import ClimateLink.Frame.Framer
import ClimateLink.Proofs.Guarded.Payload

/-!
# Guarded frames

Frames are decoded, checked and put together with guarded operations: a header byte by byte, its
bytes written into ten that are there already, the payload cut out where the header says, the
trailer found from the end.

**Theorems (`decode_eq`, `encode_eq`, `accept_eq`).** For every string of bytes and every packet the
guarded operations end without a breach, in the result that `Frame.decode` and `Frame.encode` give.
Checking a trailer needs a string that has one: it keeps its bounds on what is as long as the
smallest frame, and leaves them on what is shorter.
-/

namespace ClimateLink.Guarded

open ClimateLink.Frame Wire

/-! ## Decoding -/

/-- The header at the front of a string of bytes. -/
def readHeader (bs : Bytes) : ExceptT Malformed Guarded Header :=
  if bs.length < headerSize then throw (.tooShort bs.length) else do
    let front ← slice bs 0 magic.length
    if front ≠ magic then throw .badMagic
    else return ⟨← wordAt bs 4, ← index bs 6, ← index bs 7, ← wordAt bs lengthOffset⟩

/-- The packet of a frame. -/
def decode (frame : Bytes) : ExceptT Malformed Guarded Packet := do
  let header ← readHeader frame
  let stop ← plus headerSize header.length.toNat
  if frame.length < stop then
    throw (.lengthMismatch header.length.toNat (← minus frame.length headerSize))
  else
    let data ← slice frame headerSize stop
    match Family.ofCode? header.family with
    | none => throw (.unknownMessageType header.family)
    | some family =>
      let payload ← readPayload family data
      return ⟨header.address, header.id, payload⟩

theorem plus_of_word {a b : Nat} (part : a ≤ minSize) (word : b < 65536) :
    plus a b = pure (a + b) := by
  have few : a ≤ 12 := part
  refine plus_of ?_
  simp only [sizeBound]
  omega

theorem readHeader_eq (bs : Bytes) : readHeader bs = sure (Header.decode bs) := by
  rw [Header.decode_eq, readHeader]
  by_cases short : bs.length < headerSize
  · rw [if_pos short, if_pos short]
    rfl
  · have long : 10 ≤ bs.length := Nat.not_lt.1 short
    have front : slice bs 0 magic.length = pure (bs.take magic.length) :=
      slice_of (Nat.zero_le _) (Nat.le_trans (by decide) long)
    rw [if_neg short, if_neg short, front]
    by_cases opens : magic <+: bs
    · have found : bs.take magic.length = magic := (List.prefix_iff_eq_take.1 opens).symm
      rw [found, wordAt_of (by omega), index_of (by omega), index_of (by omega),
        wordAt_of (Nat.lt_of_lt_of_le (by decide) long), if_pos opens]
      rfl
    · have away : bs.take magic.length ≠ magic := fun found =>
        opens (List.prefix_iff_eq_take.2 found.symm)
      rw [if_neg opens]
      simp only [liftM_pure, pure_bind, if_pos away]
      rfl

/-- **Frames are decoded, or refused, without a breach.** -/
theorem decode_eq (frame : Bytes) : decode frame = sure (Frame.decode frame) := by
  refine bind_sure (readHeader_eq frame) fun header read => ?_
  have long : headerSize ≤ frame.length := (Header.decode_eq_ok_iff.1 read).1
  have stop : plus headerSize header.length.toNat = pure _ :=
    plus_of_word (by decide) header.length.toNat_lt
  have available : (frame.drop headerSize).length = frame.length - headerSize := List.length_drop
  simp only [stop, liftM_pure, pure_bind]
  by_cases cut : frame.length < headerSize + header.length.toNat
  · have short : (frame.drop headerSize).length < header.length.toNat := by omega
    rw [if_pos cut, if_pos short, minus_of long, available]
    rfl
  · have enough : ¬(frame.drop headerSize).length < header.length.toNat := by omega
    have data : slice frame headerSize (headerSize + header.length.toNat) =
        pure ((frame.drop headerSize).take header.length.toNat) := by
      rw [slice_of (Nat.le_add_right _ _) (Nat.not_lt.1 cut), List.drop_take,
        Nat.add_sub_cancel_left]
    rw [if_neg cut, if_neg enough, data]
    simp only [liftM_pure, pure_bind]
    cases Family.ofCode? header.family with
    | none => rfl
    | some family => exact bind_sure (readPayload_eq family _) fun _ _ => rfl

/-! ## Encoding -/

/-- The bytes of a header, written over ten that are there. -/
def writeHeader (h : Header) : Guarded Bytes := do
  let bs ← put (List.replicate headerSize 0) 0 4 magic
  let bs ← put bs 4 6 (wordBytes h.address)
  let bs ← put bs 6 7 [h.id]
  let bs ← put bs 7 8 [h.family]
  put bs 8 10 (wordBytes h.length)

/-- The frame of a packet. -/
def encode (packet : Packet) : ExceptT Unencodable Guarded Bytes := do
  let payload ← writePayload packet.payload
  if maxPayload < payload.length then throw (.payloadTooLarge payload.length)
  else
    let length ← narrow 65536 payload.length
    let _room ← plus minSize payload.length
    let header ← writeHeader
      ⟨packet.address, packet.id, packet.payload.family.code, UInt16.ofNat length⟩
    let body := header ++ payload
    let covered ← slice body magic.length (← plus headerSize payload.length)
    return body ++ wordBytes (checksum covered)

theorem writeHeader_eq (h : Header) : writeHeader h = pure h.encode := rfl

/-- **Packets are encoded, or refused, without a breach.** -/
theorem encode_eq (packet : Packet) : encode packet = sure (Frame.encode packet) := by
  refine bind_sure (writePayload_eq packet.payload) fun payload _ => ?_
  by_cases large : maxPayload < payload.length
  · rw [if_pos large, if_pos large]
    rfl
  · have small : payload.length < 65536 := Nat.lt_succ_of_le (Nat.not_lt.1 large)
    have room : plus minSize payload.length = pure _ := plus_of_word (Nat.le_refl _) small
    have stop : plus headerSize payload.length = pure _ := plus_of_word (by decide) small
    rw [if_neg large, if_neg large, narrow_of small, room, stop]
    simp only [liftM_pure, pure_bind, writeHeader_eq]
    have covered (header : Header) :
        slice (header.encode ++ payload) magic.length (headerSize + payload.length) =
          pure ((header.encode ++ payload).drop magic.length) := by
      have whole : (header.encode ++ payload).length = headerSize + payload.length := by
        rw [List.length_append, Header.length_encode]
      rw [← whole, slice_of (by rw [whole]; exact Nat.le_trans (by decide) (Nat.le_add_right _ _))
        (Nat.le_refl _), List.take_length]
    rw [covered]
    rfl

/-! ## Checking -/

/-- Checks that the last two bytes of a frame are the checksum of what they have to cover. -/
def verify (frame : Bytes) : ExceptT Malformed Guarded Unit := do
  let size ← minus frame.length checksumSize
  let expected := checksum (← slice frame magic.length size)
  let found ← wordAt frame size
  if expected ≠ found then throw (.checksum expected found) else return ()

/-- The packet of a complete frame whose checksum is right. -/
def accept (frame : Bytes) : ExceptT Malformed Guarded Packet := do
  verify frame
  decode frame

theorem verify_eq {frame : Bytes} (large : minSize ≤ frame.length) :
    verify frame = sure (Frame.verify frame) := by
  have long : 12 ≤ frame.length := large
  have split : frame.length = (frame.length - checksumSize) + checksumSize :=
    (Nat.sub_add_cancel (Nat.le_trans (by decide) long)).symm
  have covered : slice frame magic.length (frame.length - checksumSize) = pure _ :=
    slice_of (by simp only [magic, checksumSize, List.length_cons, List.length_nil]; omega)
      (Nat.sub_le _ _)
  have trailer : wordAt frame (frame.length - checksumSize) = pure _ :=
    wordAt_of (by simp only [checksumSize]; omega)
  rw [verify, Frame.verify_eq split, minus_of (by simp only [checksumSize]; omega)]
  simp only [liftM_pure, pure_bind, covered, trailer]
  by_cases right : Wire.wordAt frame (frame.length - checksumSize) =
      checksum ((frame.take (frame.length - checksumSize)).drop magic.length)
  · rw [if_pos right, if_neg (not_not_intro right.symm)]
    rfl
  · rw [if_neg right, if_pos (Ne.symm right)]
    rfl

/-- What is shorter than a trailer has none to check. -/
example : verify [0xAA] = liftM (throw (.difference 1 2) : Guarded Unit) := rfl

/-- **Complete frames are taken, or refused, without a breach.** -/
theorem accept_eq {frame : Bytes} (large : minSize ≤ frame.length) :
    accept frame = sure (Framer.accept frame) :=
  bind_sure (verify_eq large) fun _ _ => decode_eq frame

end ClimateLink.Guarded
