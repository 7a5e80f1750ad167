import ClimateLink.Packet.Setting

/-!
# Packets

A packet is one message between a client and a console: an address, an id that the protocol does
not interpret, and a payload. Numbers in a payload are in domain units (fractions and degrees);
a number that is absent is `none`.

There are two families of payloads. Control and status messages have entries of a fixed layout,
one for each zone or air conditioner. Extended messages hold records that say their own length.
An empty status list asks the console for its status.
-/

namespace ClimateLink

/-! ## Entries -/

/-- What to do to one zone. -/
structure ZoneControl where
  /-- Six bits. -/
  zone : UInt8
  change : ZoneChange
  power : ZonePowerRequest
  /-- A fraction or degrees as the change has it, a whole number for the other changes. -/
  value : Option Float
  deriving DecidableEq

namespace ZoneControl

/-- Changes only the power of a zone. -/
def ofPower (zone : UInt8) (power : ZonePowerRequest) : ZoneControl := ⟨zone, .keep, power, none⟩

/-- Opens the damper of a zone to a fraction. -/
def ofOpenPercentage (zone : UInt8) (fraction : Float) : ZoneControl :=
  ⟨zone, .openPercentage, .keep, some fraction⟩

/-- Sets the temperature that a zone aims for. -/
def ofTargetSetpoint (zone : UInt8) (degrees : Float) : ZoneControl :=
  ⟨zone, .targetSetpoint, .keep, some degrees⟩

end ZoneControl

/-- What one zone reports. -/
structure ZoneStatus where
  power : ZonePower
  /-- Six bits. -/
  zone : UInt8
  method : ControlMethod
  /-- A fraction; consoles report up to 1.27. -/
  openPercentage : Float
  setpoint : Option Float
  hasSensor : Bool
  temperature : Option Float
  spillActive : Bool
  lowBattery : Bool
  deriving DecidableEq

/-- What to do to one air conditioner. -/
structure AcControl where
  power : UnitPowerRequest
  /-- Four bits. -/
  unit : UInt8
  mode : ModeRequest
  fan : FanRequest
  setpointRequest : SetpointRequest
  /-- Degrees. Only a change of setpoint uses them. -/
  setpoint : Option Float
  deriving DecidableEq

namespace AcControl

/-- Leaves every setting of a unit as it is. -/
def keep (unit : UInt8) : AcControl := ⟨.keep, unit, .keep, .keep, .keep, none⟩

/-- The entry with another power request. -/
def withPower (entry : AcControl) (power : UnitPowerRequest) : AcControl :=
  { entry with power := power }

/-- The entry with another mode request. -/
def withMode (entry : AcControl) (mode : ModeRequest) : AcControl := { entry with mode := mode }

/-- The entry with another fan request. -/
def withFan (entry : AcControl) (fan : FanRequest) : AcControl := { entry with fan := fan }

/-- The entry that also changes the setpoint. -/
def withSetpoint (entry : AcControl) (degrees : Float) : AcControl :=
  { entry with setpointRequest := .change, setpoint := some degrees }

/-- The setpoint that the entry asks for. -/
def effectiveSetpoint (entry : AcControl) : Option Float :=
  if entry.setpointRequest.usesSetpoint then entry.setpoint else none

end AcControl

/-- What one air conditioner reports. -/
structure AcStatus where
  power : UnitPower
  /-- Four bits. -/
  unit : UInt8
  mode : UnitMode
  fan : FanSpeed
  setpoint : Float
  turboActive : Bool
  bypassActive : Bool
  spillActive : Bool
  timerSet : Bool
  temperature : Option Float
  /-- Zero when the unit is healthy. -/
  errorCode : UInt16
  deriving DecidableEq

/-! ## Records -/

/-- The modes that a unit has. -/
structure ModeSupport where
  cool : Bool
  fan : Bool
  dry : Bool
  heat : Bool
  auto : Bool
  deriving DecidableEq, Repr

/-- The fan speeds that a unit has. -/
structure FanSupport where
  intelligentAuto : Bool
  turbo : Bool
  powerful : Bool
  high : Bool
  medium : Bool
  low : Bool
  quiet : Bool
  auto : Bool
  deriving DecidableEq, Repr

/-- What one air conditioner can do. -/
structure AcAbility where
  unit : UInt8
  /-- Up to sixteen bytes. -/
  name : String
  startZone : UInt8
  zoneCount : UInt8
  modes : ModeSupport
  fans : FanSupport
  /-- Limits of the setpoint, in whole degrees. -/
  minCool : UInt8
  maxCool : UInt8
  minHeat : UInt8
  maxHeat : UInt8
  deriving DecidableEq, Repr

/-- The name of one zone. -/
structure ZoneName where
  zone : UInt8
  name : String
  deriving DecidableEq, Repr

/-! ## Payloads -/

/-- The two families of messages. -/
inductive Family where
  | control
  | extended
  deriving DecidableEq, Repr

/-- The byte that marks a family. -/
def Family.code : Family → UInt8
  | .control => 0xC0
  | .extended => 0x1F

/-- The family with the given mark. -/
def Family.ofCode? (n : UInt8) : Option Family :=
  if n = 0xC0 then some .control
  else if n = 0x1F then some .extended
  else none

@[simp] theorem Family.ofCode?_code (f : Family) : Family.ofCode? f.code = some f := by
  cases f <;> rfl

/-- The body of a message. Requests without a number ask about every unit or zone. -/
inductive Payload where
  | zoneControl (zones : List ZoneControl)
  | zoneStatus (zones : List ZoneStatus)
  | acControl (units : List AcControl)
  | acStatus (units : List AcStatus)
  | acAbilityRequest (unit : Option UInt8)
  | acAbility (units : List AcAbility)
  | acErrorRequest (unit : UInt8)
  | acError (unit : UInt8) (text : String)
  | zoneNameRequest (zone : Option UInt8)
  | zoneNames (entries : List ZoneName)
  | versionRequest
  | version (hasUpdate : Bool) (text : String)
  deriving DecidableEq

namespace Payload

/-- The family that a payload belongs to. -/
def family : Payload → Family
  | .zoneControl _ | .zoneStatus _ | .acControl _ | .acStatus _ => .control
  | _ => .extended

/-- Whether a payload asks the console for something. -/
def isRequest : Payload → Bool
  | .zoneStatus zones => zones.isEmpty
  | .acStatus units => units.isEmpty
  | .acAbilityRequest _ | .acErrorRequest _ | .zoneNameRequest _ | .versionRequest => true
  | _ => false

/-- Whether a payload is the console's version, which verifies a session. -/
def isVersion : Payload → Bool
  | .version _ _ => true
  | _ => false

/-- The name of the kind of payload. -/
def name : Payload → String
  | .zoneControl _ => "zone-control"
  | .zoneStatus _ => "zone-status"
  | .acControl _ => "ac-control"
  | .acStatus _ => "ac-status"
  | .acAbilityRequest _ => "ac-ability-request"
  | .acAbility _ => "ac-ability"
  | .acErrorRequest _ => "ac-error-info-request"
  | .acError _ _ => "ac-error-info"
  | .zoneNameRequest _ => "zone-name-request"
  | .zoneNames _ => "zone-name"
  | .versionRequest => "console-version-request"
  | .version _ _ => "console-version"

end Payload

/-- One message. -/
structure Packet where
  address : UInt16
  id : UInt8
  payload : Payload
  deriving DecidableEq

/-! ## Addresses -/

namespace Address

/-- Control messages from a client to the console. -/
def control : UInt16 := 0x80B0

/-- Extended messages from a client to the console. -/
def extended : UInt16 := 0x90B0

/-- Control messages from the console to a client. -/
def controlReply : UInt16 := 0xB080

/-- Extended messages from the console to a client. -/
def extendedReply : UInt16 := 0xB090

/-- Where a client sends messages of a family. -/
def ofFamily : Family → UInt16
  | .control => control
  | .extended => extended

end Address

end ClimateLink
