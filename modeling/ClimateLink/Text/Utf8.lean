import ClimateLink.Wire.Bytes

/-!
# Text as UTF-8

Writing is exact. Reading never fails: where the bytes leave UTF-8, the bytes read so far of the
character that cannot be completed, or the one byte that no character starts with, become a
single replacement character, and reading goes on with the byte that did not fit.

- `ofUtf8_utf8`: a text that is written reads back.
-/

namespace ClimateLink.Text

/-! ## Writing -/

/-- The bytes of a text. -/
def utf8 (s : String) : Bytes := s.toList.flatMap String.utf8EncodeChar

/-! ## Reading -/

/-- The character that stands for bytes that are no text. -/
def replacement : Char := '\uFFFD'

/-- A character that is not complete: how many bytes are still to come, the bounds of the next
one, and the bits so far. -/
structure Partial where
  owed : Nat
  low : UInt8
  high : UInt8
  value : Nat
  deriving DecidableEq, Repr

/-- What a byte means between characters. -/
inductive Opening where
  /-- The byte is a character. -/
  | whole (c : Char)
  /-- The byte starts a character. -/
  | start (p : Partial)
  /-- No character starts with the byte. -/
  | none
  deriving DecidableEq, Repr

/-- The meaning of a byte between characters. The bounds of the second byte leave out overlong
forms, surrogates and numbers above the last character. -/
def opening (b : UInt8) : Opening :=
  let n := b.toNat
  if n < 0x80 then .whole (Char.ofNat n)
  else if n < 0xC2 then .none
  else if n < 0xE0 then .start ⟨1, 0x80, 0xBF, n % 32⟩
  else if n = 0xE0 then .start ⟨2, 0xA0, 0xBF, 0⟩
  else if n = 0xED then .start ⟨2, 0x80, 0x9F, 13⟩
  else if n < 0xF0 then .start ⟨2, 0x80, 0xBF, n % 16⟩
  else if n = 0xF0 then .start ⟨3, 0x90, 0xBF, 0⟩
  else if n < 0xF4 then .start ⟨3, 0x80, 0xBF, n % 8⟩
  else if n = 0xF4 then .start ⟨3, 0x80, 0x8F, 4⟩
  else .none

/-- Reads on between characters at the byte `b`; `reading` reads on behind it. -/
def openingWith (reading : Option Partial → List Char) (b : UInt8) : List Char :=
  match opening b with
  | .whole c => c :: reading none
  | .start p => reading (some p)
  | .none => replacement :: reading none

/-- The characters of the bytes that follow, inside the given character if there is one. -/
def chars : Option Partial → Bytes → List Char
  | none, [] => []
  | some _, [] => [replacement]
  | none, b :: rest => openingWith (fun p => chars p rest) b
  | some p, b :: rest =>
    if p.low ≤ b ∧ b ≤ p.high then
      let value := p.value * 64 + b.toNat % 64
      if p.owed ≤ 1 then Char.ofNat value :: chars none rest
      else chars (some ⟨p.owed - 1, 0x80, 0xBF, value⟩) rest
    else replacement :: openingWith (fun q => chars q rest) b

/-- The text that the bytes hold. -/
def ofUtf8 (bs : Bytes) : String := String.ofList (chars none bs)

/-! ## Reading what was written -/

theorem chars_within (p : Partial) (b : UInt8) (rest : Bytes) (h : p.low ≤ b ∧ b ≤ p.high) :
    chars (some p) (b :: rest) =
      if p.owed ≤ 1 then Char.ofNat (p.value * 64 + b.toNat % 64) :: chars none rest
      else chars (some ⟨p.owed - 1, 0x80, 0xBF, p.value * 64 + b.toNat % 64⟩) rest := by
  rw [chars, if_pos h]

theorem chars_start (b : UInt8) (rest : Bytes) {p : Partial} (h : opening b = .start p) :
    chars none (b :: rest) = chars (some p) rest := by
  simp [chars, openingWith, h]

/-- A character that is written reads back, whatever follows it. -/
theorem chars_utf8EncodeChar (c : Char) (rest : Bytes) :
    chars none (String.utf8EncodeChar c ++ rest) = c :: chars none rest := by
  have hv : c.val.toNat < 0xD800 ∨ (0xDFFF < c.val.toNat ∧ c.val.toNat < 0x110000) := c.valid
  have hc : Char.ofNat c.val.toNat = c := Char.ofNat_toNat c
  unfold String.utf8EncodeChar
  generalize c.val.toNat = v at *
  simp only
  have toNat (n : Nat) (h : n < 256) : (UInt8.ofNat n).toNat = n := by
    rw [UInt8.toNat_ofNat', Nat.mod_eq_of_lt h]
  have last : (UInt8.ofNat (v % 64 + 128)).toNat % 64 = v % 64 := by
    rw [toNat _ (by omega)]; omega
  have third : (UInt8.ofNat (v / 64 % 64 + 128)).toNat % 64 = v / 64 % 64 := by
    rw [toNat _ (by omega)]; omega
  have second : (UInt8.ofNat (v / 4096 % 64 + 128)).toNat % 64 = v / 4096 % 64 := by
    rw [toNat _ (by omega)]; omega
  have tail (n : Nat) : (0x80 : UInt8) ≤ UInt8.ofNat (n % 64 + 128) ∧
      UInt8.ofNat (n % 64 + 128) ≤ 0xBF := by
    simp only [UInt8.le_iff_toNat_le, toNat (n % 64 + 128) (by omega)]
    exact ⟨by simp, by simp; omega⟩
  split
  · simp [chars, openingWith, opening, toNat v (by omega), show v < 128 by omega, hc]
  split
  · have open₁ : opening (UInt8.ofNat (v / 64 % 32 + 192)) = .start ⟨1, 0x80, 0xBF, v / 64⟩ := by
      unfold opening
      rw [toNat _ (by omega)]
      simp only [show ¬ v / 64 % 32 + 192 < 0x80 by omega, show ¬ v / 64 % 32 + 192 < 0xC2 by omega,
        show v / 64 % 32 + 192 < 0xE0 by omega, if_true, if_false,
        show (v / 64 % 32 + 192) % 32 = v / 64 by omega]
    rw [List.cons_append, List.cons_append, chars_start _ _ open₁, chars_within _ _ _ (tail v),
      last]
    simp [show v / 64 * 64 + v % 64 = v by omega, hc]
  split
  · obtain ⟨low, high, open₁, within⟩ : ∃ low high,
        opening (UInt8.ofNat (v / 4096 % 16 + 224)) = .start ⟨2, low, high, v / 4096⟩ ∧
        low ≤ UInt8.ofNat (v / 64 % 64 + 128) ∧ UInt8.ofNat (v / 64 % 64 + 128) ≤ high := by
      unfold opening
      simp only [UInt8.le_iff_toNat_le, toNat (v / 4096 % 16 + 224) (by omega),
        toNat (v / 64 % 64 + 128) (by omega)]
      rw [if_neg (by omega), if_neg (by omega), if_neg (by omega)]
      split
      · exact ⟨0xA0, 0xBF, by rw [show v / 4096 = 0 by omega], by simp; omega, by simp; omega⟩
      split
      · exact ⟨0x80, 0x9F, by rw [show v / 4096 = 13 by omega], by simp, by simp; omega⟩
      · rw [if_pos (by omega)]
        exact ⟨0x80, 0xBF, by rw [show (v / 4096 % 16 + 224) % 16 = v / 4096 by omega],
          by simp, by simp; omega⟩
    rw [List.cons_append, List.cons_append, List.cons_append, chars_start _ _ open₁,
      chars_within _ _ _ within, third]
    simp only [show ¬ 2 ≤ 1 by omega, if_false]
    rw [chars_within _ _ _ (tail v), last]
    simp [show (v / 4096 * 64 + v / 64 % 64) * 64 + v % 64 = v by omega, hc]
  · obtain ⟨low, high, open₁, within⟩ : ∃ low high,
        opening (UInt8.ofNat (v / 262144 % 8 + 240)) = .start ⟨3, low, high, v / 262144⟩ ∧
        low ≤ UInt8.ofNat (v / 4096 % 64 + 128) ∧ UInt8.ofNat (v / 4096 % 64 + 128) ≤ high := by
      unfold opening
      simp only [UInt8.le_iff_toNat_le, toNat (v / 262144 % 8 + 240) (by omega),
        toNat (v / 4096 % 64 + 128) (by omega)]
      rw [if_neg (by omega), if_neg (by omega), if_neg (by omega), if_neg (by omega),
        if_neg (by omega), if_neg (by omega)]
      split
      · exact ⟨0x90, 0xBF, by rw [show v / 262144 = 0 by omega], by simp; omega, by simp; omega⟩
      split
      · exact ⟨0x80, 0xBF, by rw [show (v / 262144 % 8 + 240) % 8 = v / 262144 by omega],
          by simp, by simp; omega⟩
      · rw [if_pos (by omega)]
        exact ⟨0x80, 0x8F, by rw [show v / 262144 = 4 by omega], by simp, by simp; omega⟩
    rw [List.cons_append, List.cons_append, List.cons_append, List.cons_append,
      chars_start _ _ open₁, chars_within _ _ _ within, second]
    simp only [show ¬ 3 ≤ 1 by omega, if_false]
    rw [chars_within _ _ _ (tail _), third]
    simp only [show ¬ 3 - 1 ≤ 1 by omega, if_false]
    rw [chars_within _ _ _ (tail v), last]
    simp [show ((v / 262144 * 64 + v / 4096 % 64) * 64 + v / 64 % 64) * 64 + v % 64 = v by omega,
      hc]

/-- A text that is written reads back. -/
@[simp] theorem ofUtf8_utf8 (s : String) : ofUtf8 (utf8 s) = s := by
  have (l : List Char) : chars none (l.flatMap String.utf8EncodeChar) = l := by
    induction l with
    | nil => simp [chars]
    | cons c l ih => simp [chars_utf8EncodeChar, ih]
  simp [ofUtf8, utf8, this]

end ClimateLink.Text
