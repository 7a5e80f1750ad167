import ClimateLink.Packet.Entry

/-!
# Control and status payloads

A control payload opens with a head of eight bytes: the sub-type, a reserved byte, and three
words that give the size of a normal section, the width of an entry and the number of entries.
The normal section is passed over, and the entries fill the rest. Entries may be wider than their
kind needs.
-/

namespace ClimateLink.Control

open Wire

/-! ## Sub-types -/

/-- The kinds of control payloads. -/
inductive Kind where
  | zoneControl
  | zoneStatus
  | acControl
  | acStatus
  deriving DecidableEq, Repr

/-- The sub-type byte of a kind. -/
def Kind.code : Kind → UInt8
  | .zoneControl => 0x20
  | .zoneStatus => 0x21
  | .acControl => 0x22
  | .acStatus => 0x23

/-- The kind with the given sub-type byte. -/
def Kind.ofCode? (n : UInt8) : Option Kind :=
  [Kind.zoneControl, .zoneStatus, .acControl, .acStatus].find? fun k => k.code == n

@[simp] theorem Kind.ofCode?_code (k : Kind) : Kind.ofCode? k.code = some k := by
  cases k <;> rfl

/-- The width that entries of a kind need. -/
def Kind.width : Kind → Nat
  | .zoneControl => Entry.width ZoneControl
  | .zoneStatus => Entry.width ZoneStatus
  | .acControl => Entry.width AcControl
  | .acStatus => Entry.width AcStatus

/-! ## The head -/

/-- The bytes of a head. -/
def headSize : Nat := 8

/-- What a head says. -/
structure Head where
  subType : UInt8
  /-- Bytes of the normal section. -/
  normal : Nat
  /-- Bytes of an entry. -/
  width : Nat
  /-- Number of entries. -/
  count : Nat
  deriving DecidableEq, Repr

/-- The head of a payload and what follows it. -/
def Head.read : Bytes → Except Malformed (Head × Bytes)
  | s :: _ :: n0 :: n1 :: w0 :: w1 :: c0 :: c1 :: body =>
    .ok (⟨s, (word n0 n1).toNat, (word w0 w1).toNat, (word c0 c1).toNat⟩, body)
  | _ => .error (.truncated .controlHead)

/-- The bytes of a head without normal section. -/
def Head.write (kind : Kind) (width count : UInt16) : Bytes :=
  [kind.code, 0] ++ wordBytes 0 ++ wordBytes width ++ wordBytes count

/-! ## Reading -/

/-- The `count` strings of `width` bytes that follow one another at the front of `bs`. -/
def slices (width : Nat) : (count : Nat) → Bytes → List Bytes
  | 0, _ => []
  | count + 1, bs => bs.take width :: slices width count (bs.drop width)

/-- The entries that the head places in the body. -/
def readEntries (α : Type) [Entry α] (head : Head) (body : Bytes) : List α :=
  (slices head.width head.count (body.drop head.normal)).filterMap Entry.read?

/-- The payload of a kind whose entries the head places in the body. -/
def readKind (head : Head) (body : Bytes) : Kind → Payload
  | .zoneControl => .zoneControl (readEntries ZoneControl head body)
  | .zoneStatus => .zoneStatus (readEntries ZoneStatus head body)
  | .acControl => .acControl (readEntries AcControl head body)
  | .acStatus => .acStatus (readEntries AcStatus head body)

/-- The control payload that the bytes hold. The sections have to fill the payload exactly, and
entries, if there are any, have to be wide enough. -/
def read (data : Bytes) : Except Malformed Payload := do
  let (head, body) ← Head.read data
  match Kind.ofCode? head.subType with
  | none => .error (.unknownControlSubType head.subType)
  | some kind =>
    if body.length ≠ head.normal + head.width * head.count then
      .error (.sectionLength head.normal head.count head.width body.length)
    else if 0 < head.count ∧ head.width < kind.width then
      .error (.entryWidth head.subType kind.width head.width)
    else .ok (readKind head body kind)

/-! ## Writing -/

/-- The bytes of a payload of the given kind, which declares the given width. -/
def writeEntries {α : Type} [Entry α] (kind : Kind) (width : UInt16) (entries : List α) :
    Except Unencodable Bytes := do
  if 65535 < entries.length then throw (.payloadTooLarge entries.length)
  let body ← entries.mapM Entry.write
  return Head.write kind width (UInt16.ofNat entries.length) ++ body.flatten

/-- The width that a report declares: none at all when it has no entries and so is a request. -/
def reportWidth {α : Type} [Entry α] (entries : List α) : UInt16 :=
  if entries.isEmpty then 0 else UInt16.ofNat (Entry.width α)

end ClimateLink.Control
