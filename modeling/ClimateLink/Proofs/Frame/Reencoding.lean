import ClimateLink.Proofs.Frame.Grammar
import ClimateLink.Proofs.Packet.Rewriting

/-!
# Frames of packets that were read

A packet that was decoded from a frame need not have been encoded by this library: codes may be
unknown, entries wider, sections filled with other bytes, texts no texts. All of that has settled
after one pass.

**Theorem (`reencode_received`).** A packet that was decoded is encoded again unless its frame has
something unwritable. What is encoded decodes to the packet itself, with unused setpoints replaced
and abilities of no unit as a request.
-/

namespace ClimateLink.Frame

open Wire

theorem encode_eq {packet : Packet} {bytes : Bytes} (encoded : packet.payload.encode = .ok bytes)
    (small : bytes.length ≤ maxPayload) : encode packet = .ok (assemble ⟨packet.address, packet.id,
      packet.payload.family.code, UInt16.ofNat bytes.length⟩ bytes) := by
  rw [encode, encoded]
  exact if_neg (Nat.not_lt.2 small)

theorem exists_of_encode {packet : Packet} {frame : Bytes} (encoded : encode packet = .ok frame) :
    ∃ bytes, packet.payload.encode = .ok bytes ∧ bytes.length ≤ maxPayload ∧
      frame = assemble ⟨packet.address, packet.id, packet.payload.family.code,
        UInt16.ofNat bytes.length⟩ bytes := by
  obtain ⟨bytes, written, rest⟩ := bind_eq_ok.1 encoded
  by_cases large : maxPayload < bytes.length
  · rw [if_pos large] at rest
    cases rest
  · have small := Nat.not_lt.1 large
    exact ⟨bytes, written, small, Except.ok.inj (encoded.symm.trans (encode_eq written small))⟩

theorem exists_encode_iff (packet : Packet) :
    (∃ frame, encode packet = .ok frame) ↔ packet.payload.Writable := by
  constructor
  · rintro ⟨frame, encoded⟩
    obtain ⟨bytes, written, small, -⟩ := exists_of_encode encoded
    exact ⟨bytes, written, small⟩
  · rintro ⟨bytes, written, small⟩
    exact ⟨_, encode_eq written small⟩

theorem decode_assemble (address : UInt16) (id : UInt8) {family : Family} {bytes : Bytes}
    {payload : Payload} (small : bytes.length ≤ maxPayload)
    (decoded : Payload.decode family bytes = .ok payload) :
    decode (assemble ⟨address, id, family.code, UInt16.ofNat bytes.length⟩ bytes) =
      .ok ⟨address, id, payload⟩ := by
  have size : (UInt16.ofNat bytes.length).toNat = bytes.length :=
    UInt16.toNat_ofNat_of_lt' (Nat.lt_succ_of_le small)
  rw [decode, assemble, List.append_assoc, Header.decode_encode]
  simp only [bind, Except.bind, List.drop_left' (Header.length_encode _), size,
    Family.ofCode?_code]
  rw [if_neg (by simp), List.take_left, decoded]
  rfl

/-- The payload of a frame that was decoded is written again as its outline says. -/
theorem rewrites {frame : Bytes} {packet : Packet} (received : decode frame = .ok packet)
    {outline : Outline} (outlined : Outlined frame outline) (means : outline.Means packet.payload) :
    Rewrites outline packet.payload := by
  have obeyed : Obeyed (rules frame) := (checks_decode frame).ok_iff.1 ⟨packet, received⟩
  obtain ⟨-, obeyed⟩ := obeyed_cons.1 obeyed
  obtain ⟨-, obeyed⟩ := obeyed_cons.1 obeyed
  obtain ⟨-, obeyed⟩ := obeyed_cons.1 obeyed
  obtain ⟨-, obeyed⟩ := obeyed_cons.1 obeyed
  have small : (payloadBytes frame).length ≤ 65535 :=
    (List.length_take_le _ _).trans (Nat.le_of_lt_succ (wordAt frame 8).toNat_lt)
  obtain ⟨family, known, outlined⟩ := outlined
  rw [← known] at obeyed
  cases family with
  | control => exact Control.rewrites obeyed small outlined means
  | extended => exact Extended.rewrites small outlined means (obeyed_cons.1 obeyed).1

/-- **A packet that was received is encoded again**, unless its frame has something unwritable: a
zone that is asked to open to more than all, or a text that was none and has grown too long. It is
then decoded as it was, apart from setpoints that are not used and abilities of no unit; no unit
is asked for another setpoint. -/
theorem reencode_received {frame : Bytes} {packet : Packet} (received : decode frame = .ok packet) :
    (∃ outline, Outlined frame outline ∧ outline.Means packet.payload) ∧
    ∀ outline, Outlined frame outline → outline.Means packet.payload →
      ((∃ fault, encode packet = .error fault) ↔ outline.Unwritable) ∧
      (¬outline.Unwritable → ∃ again, encode packet = .ok again ∧
        decode again = .ok ⟨packet.address, packet.id, packet.payload.settled⟩) ∧
      (∀ units, packet.payload = .acControl units →
        ∃ settled, packet.payload.settled = .acControl settled ∧
          settled.map AcControl.effectiveSetpoint = units.map AcControl.effectiveSetpoint) := by
  refine ⟨((checks_decode frame).post_of_ok received).2.2, fun outline outlined means => ?_⟩
  obtain ⟨writable_iff, same⟩ := rewrites received outlined means
  refine ⟨?_, fun writable => ?_, fun units held => ?_⟩
  · rw [exists_error_iff, exists_encode_iff, writable_iff, not_not]
  · obtain ⟨bytes, written, small⟩ := writable_iff.2 writable
    refine ⟨_, encode_eq written small, ?_⟩
    rw [← same writable]
    exact decode_assemble _ _ small (Payload.decode_of_encode written)
  · refine ⟨units.map AcControl.settled, by rw [held]; rfl, ?_⟩
    rw [List.map_map]
    exact List.map_congr_left fun unit _ => unit.effectiveSetpoint_settled

/-- A request that turns a unit off and cools, with a setpoint that it does not use. -/
theorem reencode_received_unusedSetpoint :
    decode [0x55, 0x55, 0x55, 0xAA, 0x80, 0xB0, 0x01, 0xC0, 0x00, 0x0C, 0x22, 0x00, 0x00, 0x00,
        0x00, 0x04, 0x00, 0x01, 0x21, 0x4F, 0x00, 0x96, 0x1A, 0x86] =
      .ok ⟨0x80B0, 1, .acControl [⟨.off, 1, .cool, .keep, .keep, some 25.0⟩]⟩ ∧
    ∃ again, encode ⟨0x80B0, 1, .acControl [⟨.off, 1, .cool, .keep, .keep, some 25.0⟩]⟩ =
        .ok again ∧
      decode again = .ok ⟨0x80B0, 1, .acControl [⟨.off, 1, .cool, .keep, .keep, some 35.5⟩]⟩ := by
  have received : decode [0x55, 0x55, 0x55, 0xAA, 0x80, 0xB0, 0x01, 0xC0, 0x00, 0x0C, 0x22, 0x00,
        0x00, 0x00, 0x00, 0x04, 0x00, 0x01, 0x21, 0x4F, 0x00, 0x96, 0x1A, 0x86] =
      .ok ⟨0x80B0, 1, .acControl [⟨.off, 1, .cool, .keep, .keep, some 25.0⟩]⟩ := by
    rfl
  obtain ⟨⟨outline, outlined, means⟩, reencoded⟩ := reencode_received received
  refine ⟨received, (reencoded outline outlined means).2.1 ?_⟩
  cases means
  nofun

end ClimateLink.Frame
