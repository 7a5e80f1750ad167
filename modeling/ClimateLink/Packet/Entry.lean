import ClimateLink.Packet.Basic
import ClimateLink.Packet.Scale

/-!
# Entries of fixed layout

The layouts of the four kinds of entries, each read and written in one place. Reading looks only
at the first bytes of a slice, so that wider entries of newer consoles still read. Writing fills
the bytes that the layout leaves open with fixed values, and reports the first number that does
not fit.

- `Entry.isSome_read?`: a slice reads unless it is narrower than the layout.
- `Entry.length_write`: a written entry has the width of the layout.
-/

namespace ClimateLink

open Wire

/-- A kind of entry: its width in bytes and how it is read and written. -/
class Entry (α : Type) where
  /-- The number of bytes that are read. -/
  width : Nat
  /-- The entry at the front of a slice; nothing if the slice is too narrow. -/
  read? : Bytes → Option α
  /-- The bytes of an entry. -/
  write : α → Except Unencodable Bytes
  /-- A slice reads unless it is too narrow. -/
  isSome_read? : ∀ bs, (read? bs).isSome ↔ width ≤ bs.length
  /-- A written entry has the width of the layout. -/
  length_write : ∀ {a bs}, write a = .ok bs → bs.length = width

/-! ## Numbers of zones and units -/

/-- A number of a zone, which has six bits. -/
def zoneNumber (n : UInt8) : Except Unencodable Nat :=
  if n ≤ 63 then .ok n.toNat else .error (.outOfRange .zoneNumber n.toNat)

/-- A number of an air conditioner, which has four bits. -/
def acNumber (n : UInt8) : Except Unencodable Nat :=
  if n ≤ 15 then .ok n.toNat else .error (.outOfRange .acNumber n.toNat)

/-! ## Zone requests -/

namespace ZoneControl

/-- The value that a byte holds beside a change. -/
def readValue (change : ZoneChange) (raw : UInt8) : Option Float :=
  match change with
  | .openPercentage => some (Scale.percentage raw)
  | .targetSetpoint => some (Scale.setpoint raw)
  | _ => if raw = Scale.unused then none else some raw.toFloat

/-- The byte that holds a value beside a change. -/
def writeValue : ZoneChange → Option Float → Except Unencodable UInt8
  | .openPercentage, some v => Scale.percentageRaw .zoneOpenPercentage 100 v
  | .targetSetpoint, some v => Scale.setpointRaw .zoneTargetSetpoint v
  | .openPercentage, none | .targetSetpoint, none => .error (.missingValue .zoneControlValue)
  | _, some v => Scale.wholeRaw .zoneControlValue v
  | _, none => .ok Scale.unused

instance : Entry ZoneControl where
  width := 4
  read?
    | b0 :: b1 :: b2 :: _ :: _ =>
      let change := Coded.ofCode (bits b1 0 3)
      some {
        zone := bits b0 2 6
        change := change
        power := Coded.ofCode (bits b1 5 3)
        value := readValue change b2 }
    | _ => none
  write entry := do
    let value ← writeValue entry.change entry.value
    let zone ← zoneNumber entry.zone
    return [
      UInt8.ofNat zone,
      pack [(3, (Coded.code entry.change).toNat), (2, 0), (3, (Coded.code entry.power).toNat)],
      value, 0]
  isSome_read? bs := by
    rcases bs with _ | ⟨_, _ | ⟨_, _ | ⟨_, _ | ⟨_, _⟩⟩⟩⟩ <;> simp
  length_write h := by
    simp only [bind, Except.bind, pure, Except.pure] at h
    repeat' split at h
    all_goals cases h
    all_goals simp

end ZoneControl

/-! ## Zone reports -/

namespace ZoneStatus

/-- The byte that holds a setpoint. -/
def writeSetpoint : Option Float → Except Unencodable UInt8
  | some v => Scale.setpointRaw .zoneSetpoint v
  | none => .ok Scale.unused

instance : Entry ZoneStatus where
  width := 8
  read?
    | b0 :: b1 :: b2 :: b3 :: b4 :: b5 :: b6 :: _ :: _ =>
      let temperature := Scale.temperature (word b4 b5)
      some {
        power := Coded.ofCode (bits b0 0 2)
        zone := bits b0 2 6
        method := Coded.ofCode (bits b1 0 1)
        openPercentage := Scale.percentage (bits b1 1 7)
        setpoint := if b2 = Scale.unused then none else some (Scale.setpoint b2)
        hasSensor := flag b3 0
        temperature := if temperature ≤ Scale.zoneTemperatureMax then some temperature else none
        spillActive := flag b6 6
        lowBattery := flag b6 7 }
    | _ => none
  write entry := do
    let opening ← Scale.percentageRaw .zoneOpenPercentage 127 entry.openPercentage
    let setpoint ← writeSetpoint entry.setpoint
    let temperature ← Scale.readingRaw .zoneTemperature entry.temperature
    let zone ← zoneNumber entry.zone
    return [
      pack [(2, (Coded.code entry.power).toNat), (6, zone)],
      pack [(1, (Coded.code entry.method).toNat), (7, opening.toNat)],
      setpoint,
      pack [(1, entry.hasSensor.toNat), (7, 0)]]
      ++ wordBytes temperature ++ [
      pack [(6, 0), (1, entry.spillActive.toNat), (1, entry.lowBattery.toNat)],
      0]
  isSome_read? bs := by
    rcases bs with _ | ⟨_, _ | ⟨_, _ | ⟨_, _ | ⟨_, _ | ⟨_, _ | ⟨_, _ | ⟨_, _ | ⟨_, _⟩⟩⟩⟩⟩⟩⟩⟩ <;>
      simp
  length_write h := by
    simp only [bind, Except.bind, pure, Except.pure] at h
    repeat' split at h
    all_goals cases h
    all_goals simp

end ZoneStatus

/-! ## Requests to air conditioners -/

namespace AcControl

/-- The byte that holds the setpoint beside a request. -/
def writeSetpoint : SetpointRequest → Option Float → Except Unencodable UInt8
  | .change, some v => Scale.setpointRaw .acSetpoint v
  | .change, none => .error (.missingValue .acSetpoint)
  | .keep, _ | .invalidate, _ => .ok Scale.unused

instance : Entry AcControl where
  width := 4
  read?
    | b0 :: b1 :: b2 :: b3 :: _ => some {
        power := Coded.ofCode (bits b0 0 4)
        unit := bits b0 4 4
        mode := Coded.ofCode (bits b1 0 4)
        fan := Coded.ofCode (bits b1 4 4)
        setpointRequest := Coded.ofCode b2
        setpoint := some (Scale.setpoint b3) }
    | _ => none
  write entry := do
    let setpoint ← writeSetpoint entry.setpointRequest entry.setpoint
    let unit ← acNumber entry.unit
    return [
      pack [(4, (Coded.code entry.power).toNat), (4, unit)],
      pack [(4, (Coded.code entry.mode).toNat), (4, (Coded.code entry.fan).toNat)],
      Coded.code entry.setpointRequest,
      setpoint]
  isSome_read? bs := by
    rcases bs with _ | ⟨_, _ | ⟨_, _ | ⟨_, _ | ⟨_, _⟩⟩⟩⟩ <;> simp
  length_write h := by
    simp only [bind, Except.bind, pure, Except.pure] at h
    repeat' split at h
    all_goals cases h
    all_goals simp

end AcControl

/-! ## Reports of air conditioners -/

namespace AcStatus

instance : Entry AcStatus where
  width := 10
  read?
    | b0 :: b1 :: b2 :: b3 :: b4 :: b5 :: b6 :: b7 :: _ :: _ :: _ =>
      let raw := word b4 b5
      some {
        power := Coded.ofCode (bits b0 0 4)
        unit := bits b0 4 4
        mode := Coded.ofCode (bits b1 0 4)
        fan := Coded.ofCode (bits b1 4 4)
        setpoint := Scale.setpoint b2
        turboActive := flag b3 4
        bypassActive := flag b3 5
        spillActive := flag b3 6
        timerSet := flag b3 7
        temperature := if raw ≤ Scale.temperatureLimit then some (Scale.temperature raw) else none
        errorCode := word b6 b7 }
    | _ => none
  write entry := do
    let setpoint ← Scale.setpointRaw .acSetpoint entry.setpoint
    let temperature ← Scale.readingRaw .acTemperature entry.temperature
    let unit ← acNumber entry.unit
    return [
      pack [(4, (Coded.code entry.power).toNat), (4, unit)],
      pack [(4, (Coded.code entry.mode).toNat), (4, (Coded.code entry.fan).toNat)],
      setpoint,
      pack [(2, 3), (2, 0), (1, entry.turboActive.toNat), (1, entry.bypassActive.toNat),
        (1, entry.spillActive.toNat), (1, entry.timerSet.toNat)]]
      ++ wordBytes temperature ++ wordBytes entry.errorCode ++ [0x80, 0x00]
  isSome_read? bs := by
    rcases bs with _ | ⟨_, _ | ⟨_, _ | ⟨_, _ | ⟨_, _ | ⟨_, _ | ⟨_, _ | ⟨_, _ | ⟨_, _ | ⟨_, _ |
      ⟨_, _⟩⟩⟩⟩⟩⟩⟩⟩⟩⟩ <;> simp
  length_write h := by
    simp only [bind, Except.bind, pure, Except.pure] at h
    repeat' split at h
    all_goals cases h
    all_goals simp

end AcStatus

end ClimateLink
