import ClimateLink.Text.Hex

/-!
# What can be wrong with a frame or a packet

A frame that does not decode is `Malformed`, and a packet that has no frame is `Unencodable`.
Both say what is wrong as a value; `message` words it.
-/

namespace ClimateLink

/-! ## Frames that do not decode -/

/-- The parts of a payload that can end too early. -/
inductive Part where
  | controlHead
  | extendedSubType
  | abilityRecord
  | errorUnit
  | errorText
  | zoneName
  | versionFlag
  | versionText
  deriving DecidableEq, Repr

/-- The name of a part in messages. -/
def Part.name : Part → String
  | .controlHead => "control/status prefix"
  | .extendedSubType => "extended sub-type"
  | .abilityRecord => "ac ability record"
  | .errorUnit => "ac error info"
  | .errorText => "ac error message"
  | .zoneName => "zone name"
  | .versionFlag => "console version"
  | .versionText => "console version string"

/-- Why a frame does not decode. -/
inductive Malformed where
  /-- Fewer bytes than a header has. -/
  | tooShort (length : Nat)
  /-- The frame does not open with the magic bytes. -/
  | badMagic
  /-- The header declares more payload than there is. -/
  | lengthMismatch (declared actual : Nat)
  /-- The trailer is not the checksum of the frame. -/
  | checksum (expected found : UInt16)
  | unknownMessageType (code : UInt8)
  | unknownControlSubType (code : UInt8)
  | unknownExtendedSubType (code : UInt16)
  /-- The sections that the head declares do not fill the payload. -/
  | sectionLength (normal count width found : Nat)
  /-- The head declares entries narrower than its sub-type needs. -/
  | entryWidth (subType : UInt8) (needed declared : Nat)
  /-- A part runs past the end of the payload. -/
  | truncated (part : Part)
  deriving DecidableEq, Repr

/-- The wording of a decoding fault. -/
def Malformed.message : Malformed → String
  | .tooShort length => s!"frame too short: {length} bytes"
  | .badMagic => "missing frame header magic"
  | .lengthMismatch declared actual =>
    s!"declared data length {declared} does not match {actual} available bytes"
  | .checksum expected found =>
    s!"CRC mismatch: expected {Text.hex 4 expected.toNat}, found {Text.hex 4 found.toNat}"
  | .unknownMessageType code => s!"unknown message type {Text.hex 2 code.toNat}"
  | .unknownControlSubType code =>
    s!"unknown control/status sub-type {Text.hex 2 code.toNat}"
  | .unknownExtendedSubType code => s!"unknown extended sub-type {Text.hex 4 code.toNat}"
  | .sectionLength normal count width found =>
    "section lengths inconsistent: " ++
      s!"expected {normal + width * count} bytes ({normal} normal + {count} x {width}), " ++
      s!"found {found}"
  | .entryWidth subType needed declared =>
    "section lengths inconsistent: " ++
      s!"sub-type {Text.hex 2 subType.toNat} entries need {needed} bytes, " ++
      s!"header says {declared}"
  | .truncated part => s!"truncated {part.name}"

/-! ## Packets that have no frame -/

/-- The fields of a packet that can fail to fit. -/
inductive Field where
  | zoneOpenPercentage
  | zoneTargetSetpoint
  | zoneControlValue
  | zoneSetpoint
  | zoneTemperature
  | zoneNumber
  | acNumber
  | acSetpoint
  | acTemperature
  | acName
  | acErrorText
  | zoneName
  | versionText
  deriving DecidableEq, Repr

/-- The name of a field in messages. -/
def Field.name : Field → String
  | .zoneOpenPercentage => "zone open percentage"
  | .zoneTargetSetpoint => "zone target setpoint"
  | .zoneControlValue => "zone control value"
  | .zoneSetpoint => "zone setpoint"
  | .zoneTemperature => "zone temperature"
  | .zoneNumber => "zone number"
  | .acNumber => "ac number"
  | .acSetpoint => "ac setpoint"
  | .acTemperature => "ac temperature"
  | .acName => "ac name"
  | .acErrorText => "ac error message"
  | .zoneName => "zone name"
  | .versionText => "console version string"

/-- Why a packet has no frame. -/
inductive Unencodable where
  /-- The entry's setting needs a value and has none. -/
  | missingValue (field : Field)
  /-- The number does not fit the field. -/
  | outOfRange (field : Field) (value : Int)
  /-- The text has more bytes than the field holds. -/
  | textTooLong (field : Field)
  /-- The payload, or its number of entries, does not fit a word. -/
  | payloadTooLarge (size : Nat)
  deriving DecidableEq, Repr

/-- The wording of an encoding fault. The limit named for a long text is that of the widest
field, also where the field itself is narrower. -/
def Unencodable.message : Unencodable → String
  | .missingValue field => s!"{field.name} requires a value but none was supplied"
  | .outOfRange field value => s!"{field.name} value {value} out of range"
  | .textTooLong field => s!"{field.name} longer than 255 bytes"
  | .payloadTooLarge size => s!"payload of {size} bytes exceeds frame limit"

end ClimateLink
