import ClimateLink.Proofs.Frame.Offsets
import ClimateLink.Proofs.Packet.Grammar

/-!
# The grammar of frames

The rules that the bytes of a frame have to obey, from the first byte to the last record, in the
order in which they are checked. Nothing is said about what stands behind the payload: decoding
does not look at it.

**Theorem (`decode_grammar`).** For every string of bytes:

- it decodes exactly if it obeys all rules;
- otherwise the fault is that of the first rule it breaks;
- the packet has the address and the id at their offsets, and a payload that is what the outline
  of the bytes means.
-/

namespace ClimateLink

open Wire

/-- The outline of a payload of either family. -/
def Family.Outlined : Family → Bytes → Outline → Prop
  | .control => Control.Outlined
  | .extended => Extended.Outlined

namespace Frame

/-- The bytes that the header declares as payload. -/
def payloadBytes (frame : Bytes) : Bytes := (frame.drop 10).take (wordAt frame 8).toNat

/-- The rules of a payload of the family with the given mark. -/
def payloadRules (mark : UInt8) (data : Bytes) : List (Rule Malformed) :=
  if mark = 0xC0 then Control.rules data
  else if mark = 0x1F then Extended.rules data
  else []

/-- The rules of a frame. -/
def rules (frame : Bytes) : List (Rule Malformed) :=
  let length := (wordAt frame 8).toNat
  let mark := frame.getD 7 0
  [⟨10 ≤ frame.length, .tooShort frame.length⟩,
    ⟨[0x55, 0x55, 0x55, 0xAA] <+: frame, .badMagic⟩,
    ⟨10 + length ≤ frame.length, .lengthMismatch length (frame.length - 10)⟩,
    ⟨mark ∈ [0xC0, 0x1F], .unknownMessageType mark⟩] ++
    payloadRules mark (payloadBytes frame)

/-- The outline of a frame is that of its payload. -/
def Outlined (frame : Bytes) (outline : Outline) : Prop :=
  ∃ family : Family, family.code = frame.getD 7 0 ∧
    family.Outlined (payloadBytes frame) outline

theorem exists_family_iff {n : UInt8} :
    (∃ family : Family, family.code = n) ↔ n ∈ ([0xC0, 0x1F] : List UInt8) := by
  simp only [List.mem_cons, List.not_mem_nil, or_false]
  constructor
  · rintro ⟨_ | _, rfl⟩ <;> simp [Family.code]
  · rintro (rfl | rfl)
    · exact ⟨.control, rfl⟩
    · exact ⟨.extended, rfl⟩

theorem checks_payload (family : Family) (data : Bytes) :
    Checks (Payload.decode family data) (payloadRules family.code data) fun payload =>
      ∃ outline, family.Outlined data outline ∧ outline.Means payload := by
  cases family with
  | control => exact Control.checks_read data
  | extended => exact Extended.checks_read data

theorem checks_decode (frame : Bytes) : Checks (decode frame) (rules frame) fun packet =>
    packet.address = wordAt frame 4 ∧ packet.id = frame.getD 6 0 ∧
      ∃ outline, Outlined frame outline ∧ outline.Means packet.payload := by
  refine .rule (fun short => ?_) fun long => ?_
  · have header : Header.decode frame = .error (.tooShort frame.length) := by
      rw [Header.decode_eq, if_pos (show frame.length < headerSize from Nat.not_le.1 short)]
    rw [decode, header]
    rfl
  refine .rule (fun other => ?_) fun found => ?_
  · have header : Header.decode frame = .error .badMagic := by
      rw [Header.decode_eq, if_neg (show ¬frame.length < headerSize from Nat.not_lt.2 long),
        if_neg (show ¬magic <+: frame from other)]
    rw [decode, header]
    rfl
  -- From here on the header is known, and its fields are bytes of the frame.
  have header : Header.decode frame = .ok (Header.of frame) :=
    Header.decode_eq_ok_iff.2 ⟨long, found, rfl⟩
  have size : (frame.drop headerSize).length = frame.length - 10 := List.length_drop
  have declared : (Header.of frame).length.toNat = (wordAt frame 8).toNat := rfl
  have mark : (Header.of frame).family = frame.getD 7 0 := rfl
  simp only [decode, header, bind, Except.bind, size, declared, mark]
  refine .rule (fun cut => ?_) fun fits => ?_
  · rw [if_pos (by simp only at cut; omega)]
    rfl
  rw [if_neg (by simp only at fits; omega)]
  refine .rule (fun unknown => ?_) fun known => ?_
  · have none_found : Family.ofCode? (frame.getD 7 0) = none := by
      have other : frame.getD 7 0 ≠ 0xC0 ∧ frame.getD 7 0 ≠ 0x1F := by simpa using unknown
      rw [Family.ofCode?, if_neg other.1, if_neg other.2]
    rw [none_found]
    rfl
  obtain ⟨family, known⟩ := exists_family_iff.2 known
  have payload := checks_payload family (payloadBytes frame)
  rw [← known, Family.ofCode?_code]
  show Checks ((Packet.mk (wordAt frame 4) (frame.getD 6 0) ·) <$>
    Payload.decode family (payloadBytes frame)) (payloadRules family.code (payloadBytes frame)) _
  refine payload.map ?_
  rintro payload ⟨outline, outlined, means⟩
  exact ⟨rfl, rfl, outline, ⟨family, known, outlined⟩, means⟩

/-- **The grammar of frames.** Bytes decode exactly if they obey the rules, and the fault is that
of the first rule they break otherwise. What is decoded has the address and the id at their
offsets, and is what the outline of the bytes means. -/
theorem decode_grammar (frame : Bytes) :
    ((∃ packet, decode frame = .ok packet) ↔ Obeyed (rules frame)) ∧
    (∀ fault, decode frame = .error fault ↔ FirstBroken (rules frame) fault) ∧
    (∀ packet, decode frame = .ok packet →
      packet.address = wordAt frame 4 ∧ packet.id = frame.getD 6 0 ∧
      ∃ outline, Outlined frame outline ∧ outline.Means packet.payload) := by
  have checks := checks_decode frame
  exact ⟨checks.ok_iff, checks.error_iff, fun _ => checks.post_of_ok⟩

end Frame

end ClimateLink
