import ClimateLink.Proofs.Frame.Offsets
import ClimateLink.Proofs.Frame.Reencoding

/-!
# Complete frames

A string is one complete frame if nothing is missing of it, nothing is wrong with it and nothing
stands behind it. This is what a framer gives a packet for, said of the string alone.

- `wordAt_append_left`: what stands at an offset of a frame stands there whatever follows.
- `Complete.twelve_le_length`: a complete frame has twelve bytes at least.
- `Intact.complete`: a frame that only may not decode is complete if it does.
- `exists_complete_of_encode`: whatever is encoded is complete.
-/

namespace ClimateLink

open Wire

theorem Wire.wordAt_append_left {bs : Bytes} {i : Nat} (inside : i + 1 < bs.length) (more : Bytes) :
    wordAt (bs ++ more) i = wordAt bs i := by
  have first : i < bs.length := Nat.lt_of_succ_lt inside
  simp only [wordAt, List.getD_eq_getElem?_getD, List.getElem?_append_left first,
    List.getElem?_append_left inside]

namespace Frame

/-- The string is one complete frame of the packet: it opens with the magic and is as long as its
header declares, its last two bytes are the checksum of what is between the magic and them, and it
decodes. -/
structure Complete (frame : Bytes) (packet : Packet) : Prop where
  opens : magic <+: frame
  size : frame.length = 12 + (wordAt frame 8).toNat
  trailer : wordAt frame (frame.length - 2) = checksum ((frame.take (frame.length - 2)).drop 4)
  decoded : decode frame = .ok packet

theorem Complete.twelve_le_length {frame : Bytes} {packet : Packet} (h : Complete frame packet) :
    12 ≤ frame.length := by
  rw [h.size]
  exact Nat.le_add_right _ _

theorem header_of_assemble (header : Header) (payload : Bytes) :
    Header.of (assemble header payload) = header := by
  have read : Header.decode (assemble header payload) = .ok header := by
    rw [assemble, List.append_assoc]
    exact Header.decode_encode header _
  exact (Header.decode_eq_ok_iff.1 read).2.2.symm

theorem trailer_assemble (header : Header) (payload : Bytes) :
    wordAt (assemble header payload) ((assemble header payload).length - 2) = checksum
      (((assemble header payload).take ((assemble header payload).length - 2)).drop 4) := by
  obtain ⟨sum, covered, whole⟩ : ∃ sum : UInt16,
      sum = checksum ((header.encode ++ payload).drop 4) ∧
        assemble header payload = header.encode ++ payload ++ wordBytes sum := ⟨_, rfl, rfl⟩
  have front : (header.encode ++ payload ++ wordBytes sum).length - 2 =
      (header.encode ++ payload).length := by
    rw [List.length_append, length_wordBytes, Nat.add_sub_cancel]
  have last := wordAt_drop (header.encode ++ payload ++ wordBytes sum)
    (header.encode ++ payload).length 0
  rw [List.drop_left, Nat.add_zero] at last
  rw [whole, front, List.take_left, ← covered, ← last]
  exact word_wordBytes sum

theorem opens_assemble (header : Header) (payload : Bytes) : magic <+: assemble header payload := by
  have opens : magic <+: header.encode := ⟨_, by rw [Header.encode, List.append_assoc,
    List.append_assoc]⟩
  rw [assemble, List.append_assoc]
  exact opens.trans (List.prefix_append _ _)

theorem declared_assemble (header : Header) (payload : Bytes) :
    wordAt (assemble header payload) 8 = header.length :=
  congrArg Header.length (header_of_assemble header payload)

theorem size_assemble {header : Header} {payload : Bytes}
    (declared : header.length.toNat = payload.length) :
    (assemble header payload).length = 12 + (wordAt (assemble header payload) 8).toNat := by
  rw [declared_assemble, declared, assemble, List.length_append, List.length_append,
    Header.length_encode, length_wordBytes, headerSize]
  omega

/-- A frame that is assembled is complete if its header declares the payload and it decodes. -/
theorem complete_assemble {header : Header} {payload : Bytes} {packet : Packet}
    (declared : header.length.toNat = payload.length)
    (decoded : decode (assemble header payload) = .ok packet) :
    Complete (assemble header payload) packet :=
  ⟨opens_assemble header payload, size_assemble declared, trailer_assemble header payload, decoded⟩

/-! ## Intact frames -/

/-- The frame of a header and a payload of the size that it declares, with the checksum of both. It
need not decode: the family may be unknown, and the payload may be anything. -/
def Intact (frame : Bytes) : Prop :=
  ∃ header payload, header.length.toNat = payload.length ∧ frame = assemble header payload

theorem Intact.opens {frame : Bytes} (h : Intact frame) : magic <+: frame := by
  obtain ⟨header, payload, -, rfl⟩ := h
  exact opens_assemble header payload

theorem Intact.size {frame : Bytes} (h : Intact frame) :
    frame.length = 12 + (wordAt frame 8).toNat := by
  obtain ⟨header, payload, declared, rfl⟩ := h
  exact size_assemble declared

theorem Intact.complete {frame : Bytes} {packet : Packet} (h : Intact frame)
    (decoded : decode frame = .ok packet) : Complete frame packet := by
  obtain ⟨header, payload, declared, rfl⟩ := h
  exact complete_assemble declared decoded

/-- **Whatever is encoded is one complete frame**, of the packet that it decodes to. -/
theorem exists_complete_of_encode {packet : Packet} {frame : Bytes}
    (encoded : encode packet = .ok frame) : ∃ received, Complete frame received := by
  obtain ⟨payload, written, small, rfl⟩ := exists_of_encode encoded
  have declared : (UInt16.ofNat payload.length).toNat = payload.length :=
    UInt16.toNat_ofNat_of_lt' (Nat.lt_succ_of_le small)
  have read := Payload.decode_of_encode written
  exact ⟨_, complete_assemble declared (decode_assemble _ _ small read)⟩

end Frame

end ClimateLink
