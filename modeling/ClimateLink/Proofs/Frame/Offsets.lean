import ClimateLink.Frame.Coding
import ClimateLink.Proofs.Attempt

/-!
# Frames by offsets

A frame is described by what stands at which offset. Here that description is shown to be what
reading a header and checking a trailer come to.

- `Header.decode_eq`: a header is read if ten bytes are there that open with the magic.
- `verify_eq`, `verify_eq_ok_iff`: a trailer is right if its two bytes are the checksum of what is
  between the magic and it.
-/

namespace ClimateLink

open Wire

/-- The word in the two bytes at an offset; bytes past the end count as zero. -/
def Wire.wordAt (bs : Bytes) (i : Nat) : UInt16 := word (bs.getD i 0) (bs.getD (i + 1) 0)

theorem Wire.wordAt_drop (bs : Bytes) (i j : Nat) : wordAt (bs.drop i) j = wordAt bs (i + j) := by
  simp only [wordAt, List.getD_eq_getElem?_getD, List.getElem?_drop, Nat.add_assoc]

namespace Frame

/-- What the offsets of a header hold. -/
def Header.of (bs : Bytes) : Header := ⟨wordAt bs 4, bs.getD 6 0, bs.getD 7 0, wordAt bs 8⟩

/-- **A header by offsets**: its bytes have to be there first and to open with the magic then. -/
theorem Header.decode_eq (bs : Bytes) : Header.decode bs =
    if bs.length < headerSize then .error (.tooShort bs.length)
    else if magic <+: bs then .ok (Header.of bs)
    else .error .badMagic := by
  match bs with
  | m0 :: m1 :: m2 :: m3 :: a0 :: a1 :: id :: family :: n0 :: n1 :: rest =>
    have front : magic <+: m0 :: m1 :: m2 :: m3 :: a0 :: a1 :: id :: family :: n0 :: n1 :: rest ↔
        [m0, m1, m2, m3] = magic := by
      simp [magic, List.cons_prefix_cons, eq_comm]
    have large : ¬(m0 :: m1 :: m2 :: m3 :: a0 :: a1 :: id :: family :: n0 :: n1 :: rest).length <
        headerSize := by
      simp [headerSize]
    rw [if_neg large]
    simp only [Header.decode, front]
    rfl
  | [] | [_] | [_, _] | [_, _, _] | [_, _, _, _] | [_, _, _, _, _] | [_, _, _, _, _, _]
  | [_, _, _, _, _, _, _] | [_, _, _, _, _, _, _, _] | [_, _, _, _, _, _, _, _, _] => rfl

theorem Header.decode_eq_ok_iff {bs : Bytes} {header : Header} :
    Header.decode bs = .ok header ↔
      headerSize ≤ bs.length ∧ magic <+: bs ∧ header = Header.of bs := by
  rw [Header.decode_eq]
  by_cases short : bs.length < headerSize
  · simp [short, Nat.not_le.2 short]
  · by_cases found : magic <+: bs
    · simp [short, found, Nat.not_lt.1 short, eq_comm]
    · simp [short, found]

theorem verify_eq {frame : Bytes} {size : Nat} (h : frame.length = size + checksumSize) :
    verify frame =
      if wordAt frame size = checksum ((frame.take size).drop magic.length) then .ok ()
      else .error (.checksum (checksum ((frame.take size).drop magic.length))
        (wordAt frame size)) := by
  have rest : (frame.drop size).length = 2 := by
    rw [List.length_drop, h, Nat.add_sub_cancel_left]
    rfl
  have found : wordAt frame size = wordAt (frame.drop size) 0 := (wordAt_drop frame size 0).symm
  have end_eq : frame.length - checksumSize = size := by omega
  rw [verify, end_eq, found]
  match frame.drop size, rest with
  | [high, low], _ => rfl

/-- **A trailer by offsets**: the last two bytes are the checksum of everything between the magic
and them. -/
theorem verify_eq_ok_iff {frame : Bytes} {size : Nat} (h : frame.length = size + checksumSize) :
    verify frame = .ok () ↔
      wordAt frame size = checksum ((frame.take size).drop magic.length) := by
  rw [verify_eq h]
  split
  · next right => exact iff_of_true rfl right
  · next wrong => exact iff_of_false (by rintro ⟨⟩) wrong

end Frame

end ClimateLink
