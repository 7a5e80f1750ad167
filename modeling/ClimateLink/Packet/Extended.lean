import ClimateLink.Packet.Basic
import ClimateLink.Packet.Fault
import ClimateLink.Text.Utf8
import ClimateLink.Wire.Bytes

/-!
# Extended payloads

An extended payload opens with a sub-type of two bytes. What follows is a request if it is empty
or, for most sub-types, a single number; otherwise it holds records that say their own length.

- `readText_writeText`: a text that is written reads back, whatever follows it.
-/

namespace ClimateLink.Extended

open Wire

/-! ## Sub-types -/

/-- The kinds of extended payloads. -/
inductive Kind where
  | acError
  | acAbility
  | zoneName
  | version
  deriving DecidableEq, Repr

/-- The sub-type word of a kind. -/
def Kind.code : Kind → UInt16
  | .acError => 0xFF10
  | .acAbility => 0xFF11
  | .zoneName => 0xFF13
  | .version => 0xFF30

/-- The kind with the given sub-type word. -/
def Kind.ofCode? (n : UInt16) : Option Kind :=
  [Kind.acError, .acAbility, .zoneName, .version].find? fun k => k.code == n

@[simp] theorem Kind.ofCode?_code (k : Kind) : Kind.ofCode? k.code = some k := by
  cases k <;> rfl

/-- The bytes of a sub-type. -/
def headSize : Nat := 2

/-! ## Texts -/

/-- A text behind the byte that counts its bytes, and what follows it. -/
def readText (part : Part) : Bytes → Except Malformed (String × Bytes)
  | [] => .error (.truncated part)
  | n :: rest =>
    if n.toNat ≤ rest.length then .ok (Text.ofUtf8 (rest.take n.toNat), rest.drop n.toNat)
    else .error (.truncated part)

/-- A text behind the byte that counts its bytes. -/
def writeText (field : Field) (s : String) : Except Unencodable Bytes :=
  let bytes := Text.utf8 s
  if bytes.length ≤ 255 then .ok (UInt8.ofNat bytes.length :: bytes)
  else .error (.textTooLong field)

/-- A text that is written reads back, whatever follows it. -/
theorem readText_writeText {field : Field} {s : String} {bytes : Bytes}
    (h : writeText field s = .ok bytes) (part : Part) (rest : Bytes) :
    readText part (bytes ++ rest) = .ok (s, rest) := by
  by_cases fits : (Text.utf8 s).length ≤ 255
  · simp only [writeText, fits, if_true, Except.ok.injEq] at h
    subst h
    simp [readText, Nat.mod_eq_of_lt (Nat.lt_succ_of_le fits)]
  · simp [writeText, fits] at h

/-! ## Names of zones -/

/-- The names that fill the bytes. -/
def readNames : Bytes → Except Malformed (List ZoneName)
  | [] => .ok []
  | [_] => .error (.truncated .zoneName)
  | zone :: n :: rest =>
    if n.toNat ≤ rest.length then
      (⟨zone, Text.ofUtf8 (rest.take n.toNat)⟩ :: ·) <$> readNames (rest.drop n.toNat)
    else .error (.truncated .zoneName)
termination_by bs => bs.length
decreasing_by simp only [List.length_drop, List.length_cons]; omega

/-- The bytes of one name. -/
def writeName (entry : ZoneName) : Except Unencodable Bytes :=
  (entry.zone :: ·) <$> writeText .zoneName entry.name

/-! ## Abilities of air conditioners -/

/-- The bytes of the name in an ability. -/
def nameSize : Nat := 16

/-- The bytes that an ability counts, without the two in front. -/
def abilitySize : Nat := nameSize + 8

/-- The modes in a byte. -/
def readModes (b : UInt8) : ModeSupport where
  cool := flag b 3
  fan := flag b 4
  dry := flag b 5
  heat := flag b 6
  auto := flag b 7

/-- The byte of modes. -/
def writeModes (m : ModeSupport) : UInt8 :=
  pack [(3, 0), (1, m.cool.toNat), (1, m.fan.toNat), (1, m.dry.toNat), (1, m.heat.toNat),
    (1, m.auto.toNat)]

/-- The fan speeds in a byte. -/
def readFans (b : UInt8) : FanSupport where
  intelligentAuto := flag b 0
  turbo := flag b 1
  powerful := flag b 2
  high := flag b 3
  medium := flag b 4
  low := flag b 5
  quiet := flag b 6
  auto := flag b 7

/-- The byte of fan speeds. -/
def writeFans (f : FanSupport) : UInt8 :=
  pack [(1, f.intelligentAuto.toNat), (1, f.turbo.toNat), (1, f.powerful.toNat),
    (1, f.high.toNat), (1, f.medium.toNat), (1, f.low.toNat), (1, f.quiet.toNat),
    (1, f.auto.toNat)]

/-- The ability of a unit in the bytes that its record counts. The name ends at a zero byte. -/
def readAbility? (unit : UInt8) (record : Bytes) : Option AcAbility :=
  let name := (record.take nameSize).takeWhile (· != 0)
  match record.drop nameSize with
  | start :: count :: modes :: fans :: minCool :: maxCool :: minHeat :: maxHeat :: _ => some {
      unit := unit
      name := Text.ofUtf8 name
      startZone := start
      zoneCount := count
      modes := readModes modes
      fans := readFans fans
      minCool := minCool
      maxCool := maxCool
      minHeat := minHeat
      maxHeat := maxHeat }
  | _ => none

/-- The abilities at the front of the bytes. Up to two bytes behind the last record fill up. -/
def readAbilities (bs : Bytes) : Except Malformed (List AcAbility) :=
  match bs with
  | unit :: n :: rest =>
    if rest = [] then .ok []
    else if n.toNat ≤ rest.length then
      match readAbility? unit (rest.take n.toNat) with
      | some ability => (ability :: ·) <$> readAbilities (rest.drop n.toNat)
      | none => .error (.truncated .abilityRecord)
    else .error (.truncated .abilityRecord)
  | _ => .ok []
termination_by bs.length
decreasing_by simp only [List.length_drop, List.length_cons]; omega

/-- The bytes of one ability. -/
def writeAbility (a : AcAbility) : Except Unencodable Bytes :=
  let name := Text.utf8 a.name
  if name.length ≤ nameSize then
    .ok ([a.unit, UInt8.ofNat abilitySize] ++ name ++ List.replicate (nameSize - name.length) 0 ++
      [a.startZone, a.zoneCount, writeModes a.modes, writeFans a.fans,
        a.minCool, a.maxCool, a.minHeat, a.maxHeat])
  else .error (.textTooLong .acName)

/-! ## Payloads -/

/-- The payload of a kind that the bytes behind the sub-type hold. -/
def readKind : Kind → Bytes → Except Malformed Payload
  | .acAbility, [] => .ok (.acAbilityRequest none)
  | .acAbility, [unit] => .ok (.acAbilityRequest (some unit))
  | .acAbility, body => .acAbility <$> readAbilities body
  | .acError, [] => .error (.truncated .errorUnit)
  | .acError, [unit] => .ok (.acErrorRequest unit)
  | .acError, unit :: body => (fun r => .acError unit r.1) <$> readText .errorText body
  | .zoneName, [] => .ok (.zoneNameRequest none)
  | .zoneName, [zone] => .ok (.zoneNameRequest (some zone))
  | .zoneName, body => .zoneNames <$> readNames body
  | .version, [] => .ok .versionRequest
  | .version, update :: body => (fun r => .version (update != 0) r.1) <$> readText .versionText body

/-- The extended payload that the bytes hold. -/
def read : Bytes → Except Malformed Payload
  | s0 :: s1 :: body =>
    match Kind.ofCode? (word s0 s1) with
    | some kind => readKind kind body
    | none => .error (.unknownExtendedSubType (word s0 s1))
  | _ => .error (.truncated .extendedSubType)

end ClimateLink.Extended
