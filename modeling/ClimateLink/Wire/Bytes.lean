/-!
# Bytes, words and packed bits

Everything on the wire is a list of bytes. Words of two bytes come high byte first, and a byte
that holds several small numbers lists them from its most significant bit down.

- `word_wordBytes`: the two bytes of a word read back as that word.
- `length_wordBytes`: a word takes two bytes.
-/

namespace ClimateLink

/-- A string of bytes. -/
abbrev Bytes := List UInt8

namespace Wire

/-! ## Words -/

/-- The word with the given high and low byte. -/
def word (high low : UInt8) : UInt16 := UInt16.ofNat (high.toNat * 256 + low.toNat)

/-- The two bytes of a word, high byte first. -/
def wordBytes (w : UInt16) : Bytes := [UInt8.ofNat (w.toNat / 256), UInt8.ofNat (w.toNat % 256)]

@[simp] theorem length_wordBytes (w : UInt16) : (wordBytes w).length = 2 := rfl

@[simp] theorem toNat_word (high low : UInt8) :
    (word high low).toNat = high.toNat * 256 + low.toNat := by
  have h := high.toNat_lt
  have l := low.toNat_lt
  simp only [word, UInt16.toNat_ofNat']
  omega

@[simp] theorem word_wordBytes (w : UInt16) :
    word (UInt8.ofNat (w.toNat / 256)) (UInt8.ofNat (w.toNat % 256)) = w := by
  apply UInt16.toNat_inj.1
  have h := w.toNat_lt
  simp only [toNat_word, UInt8.toNat_ofNat']
  omega

/-! ## Packed bits -/

/-- The number held by the `width` bits of `b` that start `offset` bits below the top. -/
def bits (b : UInt8) (offset width : Nat) : UInt8 :=
  UInt8.ofNat (b.toNat >>> (8 - offset - width) % (1 <<< width))

/-- Whether the bit `offset` places below the top is set. -/
def flag (b : UInt8) (offset : Nat) : Bool := bits b offset 1 == 1

/-- The byte that holds the given numbers one after another from the top, each in the width
that stands before it. The widths add up to eight. -/
def pack (fields : List (Nat × Nat)) : UInt8 :=
  UInt8.ofNat (fields.foldl (fun acc f => acc <<< f.1 + f.2 % (1 <<< f.1)) 0)

end Wire

end ClimateLink
