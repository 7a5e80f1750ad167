import ClimateLink.Wire.Coded

/-!
# Settings and states

The named values that requests ask for and that reports show, with their codes on the wire.
A request's fallback keeps what there is; a report's says that the value is not known.
-/

namespace ClimateLink

/-! ## What a zone request asks for -/

/-- What a zone request does to the zone's value. -/
inductive ZoneChange where
  | keep
  | decrease
  | increase
  /-- Open the damper to a fraction. -/
  | openPercentage
  /-- Aim for a temperature. -/
  | targetSetpoint
  deriving DecidableEq, Repr

instance : Coded ZoneChange where
  members := [.keep, .decrease, .increase, .openPercentage, .targetSetpoint]
  code
    | .keep => 0
    | .decrease => 2
    | .increase => 3
    | .openPercentage => 4
    | .targetSetpoint => 5
  label
    | .keep => "Keep"
    | .decrease => "Decrease"
    | .increase => "Increase"
    | .openPercentage => "OpenPercentage"
    | .targetSetpoint => "TargetSetpoint"
  fallback := .keep

/-- Whether the change comes with a scaled value. -/
def ZoneChange.isScaled : ZoneChange → Bool
  | .openPercentage | .targetSetpoint => true
  | _ => false

/-- What a zone request does to the zone's power. -/
inductive ZonePowerRequest where
  | keep
  | toggle
  | off
  | on
  | turbo
  deriving DecidableEq, Repr

instance : Coded ZonePowerRequest where
  members := [.keep, .toggle, .off, .on, .turbo]
  code
    | .keep => 0
    | .toggle => 1
    | .off => 2
    | .on => 3
    | .turbo => 5
  label
    | .keep => "Keep"
    | .toggle => "Toggle"
    | .off => "Off"
    | .on => "On"
    | .turbo => "Turbo"
  fallback := .keep

/-! ## What a zone reports -/

/-- The power state of a zone. -/
inductive ZonePower where
  | off
  | on
  | notAvailable
  | turbo
  deriving DecidableEq, Repr

instance : Coded ZonePower where
  members := [.off, .on, .notAvailable, .turbo]
  code
    | .off => 0
    | .on => 1
    | .notAvailable => 2
    | .turbo => 3
  label
    | .off => "Off"
    | .on => "On"
    | .notAvailable => "NotAvailable"
    | .turbo => "Turbo"
  fallback := .notAvailable

/-- What a zone is regulated by. -/
inductive ControlMethod where
  | percentage
  | temperature
  deriving DecidableEq, Repr

instance : Coded ControlMethod where
  members := [.percentage, .temperature]
  code
    | .percentage => 0
    | .temperature => 1
  label
    | .percentage => "Percentage"
    | .temperature => "Temperature"
  fallback := .percentage

/-! ## What a request asks of an air conditioner -/

/-- What a request does to a unit's power. -/
inductive UnitPowerRequest where
  | keep
  | toggle
  | off
  | on
  | away
  | sleep
  deriving DecidableEq, Repr

instance : Coded UnitPowerRequest where
  members := [.keep, .toggle, .off, .on, .away, .sleep]
  code
    | .keep => 0
    | .toggle => 1
    | .off => 2
    | .on => 3
    | .away => 4
    | .sleep => 5
  label
    | .keep => "Keep"
    | .toggle => "Toggle"
    | .off => "Off"
    | .on => "On"
    | .away => "Away"
    | .sleep => "Sleep"
  fallback := .keep

/-- The mode that a request asks for. -/
inductive ModeRequest where
  | auto
  | heat
  | dry
  | fan
  | cool
  | keep
  deriving DecidableEq, Repr

instance : Coded ModeRequest where
  members := [.auto, .heat, .dry, .fan, .cool, .keep]
  code
    | .auto => 0
    | .heat => 1
    | .dry => 2
    | .fan => 3
    | .cool => 4
    | .keep => 15
  label
    | .auto => "Auto"
    | .heat => "Heat"
    | .dry => "Dry"
    | .fan => "Fan"
    | .cool => "Cool"
    | .keep => "Keep"
  fallback := .keep

/-- The fan speed that a request asks for. -/
inductive FanRequest where
  | auto
  | quiet
  | low
  | medium
  | high
  | powerful
  | turbo
  | intelligentAuto
  | keep
  deriving DecidableEq, Repr

instance : Coded FanRequest where
  members := [.auto, .quiet, .low, .medium, .high, .powerful, .turbo, .intelligentAuto, .keep]
  code
    | .auto => 0
    | .quiet => 1
    | .low => 2
    | .medium => 3
    | .high => 4
    | .powerful => 5
    | .turbo => 6
    | .intelligentAuto => 8
    | .keep => 15
  label
    | .auto => "Auto"
    | .quiet => "Quiet"
    | .low => "Low"
    | .medium => "Medium"
    | .high => "High"
    | .powerful => "Powerful"
    | .turbo => "Turbo"
    | .intelligentAuto => "IntelligentAuto"
    | .keep => "Keep"
  fallback := .keep

/-- What a request does to a unit's setpoint. -/
inductive SetpointRequest where
  | keep
  | change
  | invalidate
  deriving DecidableEq, Repr

instance : Coded SetpointRequest where
  members := [.keep, .change, .invalidate]
  code
    | .keep => 0x00
    | .change => 0x40
    | .invalidate => 0xFF
  label
    | .keep => "Keep"
    | .change => "Change"
    | .invalidate => "Invalidate"
  fallback := .invalidate

/-- Whether the request comes with a temperature. -/
def SetpointRequest.usesSetpoint : SetpointRequest → Bool
  | .change => true
  | _ => false

/-! ## What an air conditioner reports -/

/-- The power state of a unit. -/
inductive UnitPower where
  | off
  | on
  | awayOff
  | awayOn
  | sleep
  | notAvailable
  deriving DecidableEq, Repr

instance : Coded UnitPower where
  members := [.off, .on, .awayOff, .awayOn, .sleep, .notAvailable]
  code
    | .off => 0
    | .on => 1
    | .awayOff => 2
    | .awayOn => 3
    | .sleep => 5
    | .notAvailable => 15
  label
    | .off => "Off"
    | .on => "On"
    | .awayOff => "AwayOff"
    | .awayOn => "AwayOn"
    | .sleep => "Sleep"
    | .notAvailable => "NotAvailable"
  fallback := .notAvailable

/-- The mode that a unit runs in. -/
inductive UnitMode where
  | auto
  | heat
  | dry
  | fan
  | cool
  | autoHeat
  | autoCool
  | notAvailable
  deriving DecidableEq, Repr

instance : Coded UnitMode where
  members := [.auto, .heat, .dry, .fan, .cool, .autoHeat, .autoCool, .notAvailable]
  code
    | .auto => 0
    | .heat => 1
    | .dry => 2
    | .fan => 3
    | .cool => 4
    | .autoHeat => 8
    | .autoCool => 9
    | .notAvailable => 15
  label
    | .auto => "Auto"
    | .heat => "Heat"
    | .dry => "Dry"
    | .fan => "Fan"
    | .cool => "Cool"
    | .autoHeat => "AutoHeat"
    | .autoCool => "AutoCool"
    | .notAvailable => "NotAvailable"
  fallback := .notAvailable

/-- The speed that a unit's fan runs at. -/
inductive FanSpeed where
  | auto
  | quiet
  | low
  | medium
  | high
  | powerful
  | turbo
  | intelligentAuto1
  | intelligentAuto2
  | intelligentAuto3
  | intelligentAuto4
  | intelligentAuto5
  | intelligentAuto6
  | notAvailable
  deriving DecidableEq, Repr

instance : Coded FanSpeed where
  members := [.auto, .quiet, .low, .medium, .high, .powerful, .turbo, .intelligentAuto1,
    .intelligentAuto2, .intelligentAuto3, .intelligentAuto4, .intelligentAuto5,
    .intelligentAuto6, .notAvailable]
  code
    | .auto => 0
    | .quiet => 1
    | .low => 2
    | .medium => 3
    | .high => 4
    | .powerful => 5
    | .turbo => 6
    | .intelligentAuto1 => 9
    | .intelligentAuto2 => 10
    | .intelligentAuto3 => 11
    | .intelligentAuto4 => 12
    | .intelligentAuto5 => 13
    | .intelligentAuto6 => 14
    | .notAvailable => 15
  label
    | .auto => "Auto"
    | .quiet => "Quiet"
    | .low => "Low"
    | .medium => "Medium"
    | .high => "High"
    | .powerful => "Powerful"
    | .turbo => "Turbo"
    | .intelligentAuto1 => "IntelligentAuto1"
    | .intelligentAuto2 => "IntelligentAuto2"
    | .intelligentAuto3 => "IntelligentAuto3"
    | .intelligentAuto4 => "IntelligentAuto4"
    | .intelligentAuto5 => "IntelligentAuto5"
    | .intelligentAuto6 => "IntelligentAuto6"
    | .notAvailable => "NotAvailable"
  fallback := .notAvailable

end ClimateLink
