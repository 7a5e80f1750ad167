import ClimateLink.Decimal.Binary
import ClimateLink.Packet.Fault
import ClimateLink.Wire.Bytes

/-!
# Scaled numbers

Fractions, setpoints and temperatures travel as whole numbers: hundredths, tenths of a degree
above ten, and tenths of a degree above minus fifty. Reading divides; writing multiplies, takes
the nearest whole number and refuses what the field cannot hold.

- `toRaw_le`: a number that is written fits its limit.
-/

namespace ClimateLink.Scale

/-! ## Numbers that mean "none" -/

/-- The byte that stands for no value. -/
def unused : UInt8 := 0xFF

/-- The word that stands for no temperature. -/
def noTemperature : UInt16 := 0x07FF

/-- The largest word that is a temperature of an air conditioner. -/
def temperatureLimit : UInt16 := 2000

/-- Zones report no more than this many degrees. -/
def zoneTemperatureMax : Float := 150.0

/-! ## Reading -/

/-- A fraction from hundredths. -/
def percentage (raw : UInt8) : Float := raw.toFloat / 100.0

/-- Degrees from tenths above ten. -/
def setpoint (raw : UInt8) : Float := (raw.toFloat + 100.0) / 10.0

/-- Degrees from tenths above minus fifty. -/
def temperature (raw : UInt16) : Float := (raw.toFloat - 500.0) / 10.0

/-! ## Writing -/

/-- The largest number that a refusal reports. -/
def reportMax : Int := 0x7FFFFFFFFFFFFFFF

/-- The smallest number that a refusal reports. -/
def reportMin : Int := -0x8000000000000000

/-- The number nearest to `x` from zero to `limit`. A number outside is refused with its nearest
integer, kept between `reportMin` and `reportMax`; what is no finite number counts as the
largest. -/
def toRaw (field : Field) (limit : Nat) (x : Float) : Except Unencodable Nat :=
  match Decimal.nearest? x with
  | none => .error (.outOfRange field reportMax)
  | some n =>
    if 0 ≤ n ∧ n ≤ limit then .ok n.toNat
    else .error (.outOfRange field (max reportMin (min n reportMax)))

theorem toRaw_le {field : Field} {limit raw : Nat} {x : Float}
    (h : toRaw field limit x = .ok raw) : raw ≤ limit := by
  unfold toRaw at h
  split at h
  · cases h
  · split at h
    · cases h; omega
    · cases h

/-- A fraction as hundredths, up to `limit` of them. -/
def percentageRaw (field : Field) (limit : Nat) (fraction : Float) : Except Unencodable UInt8 :=
  UInt8.ofNat <$> toRaw field limit (fraction * 100.0)

/-- Degrees as tenths above ten. -/
def setpointRaw (field : Field) (degrees : Float) : Except Unencodable UInt8 :=
  UInt8.ofNat <$> toRaw field 255 (degrees * 10.0 - 100.0)

/-- Degrees as tenths above minus fifty. -/
def temperatureRaw (field : Field) (degrees : Float) : Except Unencodable UInt16 :=
  UInt16.ofNat <$> toRaw field temperatureLimit.toNat (degrees * 10.0 + 500.0)

/-- A temperature that may be absent. -/
def readingRaw (field : Field) : Option Float → Except Unencodable UInt16
  | some degrees => temperatureRaw field degrees
  | none => .ok noTemperature

/-- A whole number in a byte, short of the one that stands for no value. -/
def wholeRaw (field : Field) (value : Float) : Except Unencodable UInt8 :=
  UInt8.ofNat <$> toRaw field 254 value

end ClimateLink.Scale
