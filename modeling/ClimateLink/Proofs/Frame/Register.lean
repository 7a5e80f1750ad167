import Mathlib.Data.Nat.Bitwise
import ClimateLink.Frame.Checksum

/-!
# The shift register of the checksum

What the checksum of a string says about its bytes. A shift is linear, and nothing is lost by it:
the polynomial has the top bit, so what is left of a register shows which bit has left it. Bytes
that are the same therefore never bring two registers together, and two bytes next to each other
fill the register exactly once.

- `shift_xor`, `shift_injective`: a shift is linear and loses nothing.
- `digest_left_injective`: registers that differ still do after the same bytes.
- `digest_pair`: two bytes are taken in like one word, before sixteen shifts.
- `eq_of_digest_eq`: strings that differ in no more than two bytes next to each other have different
  digests.
-/

namespace ClimateLink.Frame

open Wire

/-! ## One shift -/

theorem low_bit_iff (r : UInt16) : r &&& 1 = 1 ↔ r.toNat % 2 = 1 := by
  rw [← UInt16.toNat_inj, UInt16.toNat_and]
  exact iff_of_eq (congrArg (· = 1) (Nat.and_one_is_mod r.toNat))

theorem toNat_shiftRight_one (r : UInt16) : (r >>> 1).toNat = r.toNat / 2 := by
  rw [UInt16.toNat_shiftRight]
  exact Nat.shiftRight_eq_div_pow r.toNat 1

theorem shift_of_even {r : UInt16} (even : r.toNat % 2 = 0) : shift r = r >>> 1 := by
  rw [shift, if_neg]
  rw [low_bit_iff]
  omega

theorem shift_of_odd {r : UInt16} (odd : r.toNat % 2 = 1) : shift r = (r >>> 1) ^^^ polynomial := by
  rw [shift, if_pos ((low_bit_iff r).2 odd)]

/-- **A shift is linear**: the polynomial is there once, or twice and so not at all. -/
theorem shift_xor (a b : UInt16) : shift (a ^^^ b) = shift a ^^^ shift b := by
  have low : (a ^^^ b).toNat % 2 = (a.toNat + b.toNat) % 2 := by
    rw [UInt16.toNat_xor, Nat.xor_mod_two_eq]
  rcases Nat.mod_two_eq_zero_or_one a.toNat with ha | ha
  · rcases Nat.mod_two_eq_zero_or_one b.toNat with hb | hb
    · rw [shift_of_even ha, shift_of_even hb, shift_of_even (by omega), UInt16.shiftRight_xor]
    · rw [shift_of_even ha, shift_of_odd hb, shift_of_odd (by omega), UInt16.shiftRight_xor,
        UInt16.xor_assoc]
  · rcases Nat.mod_two_eq_zero_or_one b.toNat with hb | hb
    · rw [shift_of_odd ha, shift_of_even hb, shift_of_odd (by omega), UInt16.shiftRight_xor,
        UInt16.xor_assoc, UInt16.xor_assoc, UInt16.xor_comm polynomial]
    · rw [shift_of_odd ha, shift_of_odd hb, shift_of_even (by omega), UInt16.shiftRight_xor,
        UInt16.xor_assoc, ← UInt16.xor_assoc polynomial, UInt16.xor_comm polynomial,
        UInt16.xor_assoc (b >>> 1), UInt16.xor_self, UInt16.xor_zero]

/-- Only the empty register is shifted to the empty one: a bit that leaves puts the top bit of the
polynomial in its place. -/
theorem eq_zero_of_shift {r : UInt16} (h : shift r = 0) : r = 0 := by
  rcases Nat.mod_two_eq_zero_or_one r.toNat with even | odd
  · rw [shift_of_even even] at h
    have half : r.toNat / 2 = 0 := (toNat_shiftRight_one r).symm.trans (congrArg UInt16.toNat h)
    exact UInt16.toNat_inj.1 (by rw [UInt16.toNat_zero]; omega)
  · rw [shift_of_odd odd, UInt16.xor_eq_zero_iff] at h
    have half : r.toNat / 2 = 0xA001 :=
      (toNat_shiftRight_one r).symm.trans (congrArg UInt16.toNat h)
    have small := r.toNat_lt
    omega

/-- **A shift loses nothing.** -/
theorem shift_injective {a b : UInt16} (same : shift a = shift b) : a = b := by
  refine UInt16.xor_eq_zero_iff.1 (eq_zero_of_shift ?_)
  rw [shift_xor, same, UInt16.xor_self]

/-! ## Several shifts -/

theorem shifts_xor (n : Nat) (a b : UInt16) :
    Nat.repeat shift n (a ^^^ b) = Nat.repeat shift n a ^^^ Nat.repeat shift n b := by
  induction n with
  | zero => rfl
  | succ n ih => exact (congrArg shift ih).trans (shift_xor _ _)

theorem shifts_injective {n : Nat} {a b : UInt16}
    (same : Nat.repeat shift n a = Nat.repeat shift n b) : a = b := by
  induction n with
  | zero => exact same
  | succ n ih => exact ih (shift_injective same)

/-- A register that ends in zeros only moves down as long as they leave. -/
theorem toNat_shifts {n k : Nat} {r : UInt16} (zeros : r.toNat = 2 ^ n * k) :
    (Nat.repeat shift n r).toNat = k := by
  induction n generalizing k with
  | zero => rw [← Nat.one_mul k]; exact zeros
  | succ n ih =>
    have down : (Nat.repeat shift n r).toNat = 2 * k :=
      ih (by rw [zeros, Nat.pow_succ, Nat.mul_assoc])
    show (shift (Nat.repeat shift n r)).toNat = k
    rw [shift_of_even (by omega), toNat_shiftRight_one]
    omega

/-! ## Bytes -/

/-- **Registers that differ still do after the same bytes.** -/
theorem digest_left_injective {a b : UInt16} (bs : Bytes) (same : digest a bs = digest b bs) :
    a = b := by
  induction bs generalizing a b with
  | nil => exact same
  | cons x bs ih => exact (UInt16.xor_left_inj _).1 (shifts_injective (ih same))

/-- Two bytes are taken in like one word, the second one as its high byte. -/
theorem digest_pair (r : UInt16) (x y : UInt8) :
    digest r [x, y] = Nat.repeat shift 16 (r ^^^ (x.toUInt16 ^^^ word y 0)) := by
  have high : Nat.repeat shift 8 (word y 0) = y.toUInt16 := by
    refine UInt16.toNat_inj.1 ((toNat_shifts ?_).trans (UInt8.toNat_toUInt16 y).symm)
    rw [toNat_word, UInt8.toNat_zero, Nat.add_zero]
    exact Nat.mul_comm y.toNat 256
  calc digest r [x, y]
      = Nat.repeat shift 8 (Nat.repeat shift 8 (r ^^^ x.toUInt16) ^^^ y.toUInt16) := rfl
    _ = Nat.repeat shift 8 (Nat.repeat shift 8 (r ^^^ x.toUInt16 ^^^ word y 0)) := by
        rw [shifts_xor 8 _ (word y 0), high]
    _ = Nat.repeat shift 16 (r ^^^ (x.toUInt16 ^^^ word y 0)) := by rw [UInt16.xor_assoc]; rfl

theorem word_xor_injective {x y x' y' : UInt8}
    (same : x.toUInt16 ^^^ word y 0 = x'.toUInt16 ^^^ word y' 0) : x = x' ∧ y = y' := by
  have toNat (x y : UInt8) : (x.toUInt16 ^^^ word y 0).toNat % 2 ^ 8 = x.toNat ∧
      (x.toUInt16 ^^^ word y 0).toNat / 2 ^ 8 = y.toNat := by
    have low := x.toNat_lt
    have none : y.toNat * 256 % 2 ^ 8 = 0 := Nat.mul_mod_left _ _
    have all : y.toNat * 256 / 2 ^ 8 = y.toNat := Nat.mul_div_cancel _ (by decide)
    rw [UInt16.toNat_xor, UInt8.toNat_toUInt16, toNat_word, UInt8.toNat_zero, Nat.add_zero,
      Nat.xor_mod_two_pow, Nat.xor_div_two_pow, none, all, Nat.mod_eq_of_lt low,
      Nat.div_eq_of_lt low, Nat.xor_zero, Nat.zero_xor]
    exact ⟨rfl, rfl⟩
  obtain ⟨low, high⟩ := toNat x y
  obtain ⟨low', high'⟩ := toNat x' y'
  rw [same] at low high
  exact ⟨UInt8.toNat_inj.1 (low.symm.trans low'), UInt8.toNat_inj.1 (high.symm.trans high')⟩

/-- Up to two bytes can be told from the register after them. -/
theorem digest_right_injective {r : UInt16} {xs ys : Bytes} (length : xs.length = ys.length)
    (short : xs.length ≤ 2) (same : digest r xs = digest r ys) : xs = ys := by
  match xs, ys, length with
  | [], [], _ => rfl
  | [x], [y], _ =>
    have word : x.toUInt16 = y.toUInt16 := (UInt16.xor_right_inj r).1 (shifts_injective same)
    have byte := congrArg UInt16.toNat word
    rw [UInt8.toNat_toUInt16, UInt8.toNat_toUInt16] at byte
    rw [UInt8.toNat_inj.1 byte]
  | [x, x'], [y, y'], _ =>
    rw [digest_pair, digest_pair] at same
    obtain ⟨rfl, rfl⟩ := word_xor_injective ((UInt16.xor_right_inj r).1 (shifts_injective same))
    rfl
  | _ :: _ :: _ :: _, _, _ => exact absurd short (by simp)

theorem take_eq_take {xs ys : Bytes} {n : Nat} (same : ∀ j < n, xs[j]? = ys[j]?) :
    xs.take n = ys.take n := by
  refine List.ext_getElem? fun j => ?_
  rw [List.getElem?_take, List.getElem?_take]
  by_cases inside : j < n
  · rw [if_pos inside, if_pos inside, same j inside]
  · rw [if_neg inside, if_neg inside]

/-- **Strings that differ only in two bytes next to each other have different digests**, however
many bytes are in front of those and behind them. -/
theorem eq_of_digest_eq {r : UInt16} {xs ys : Bytes} (length : xs.length = ys.length) {i : Nat}
    (near : ∀ j, xs[j]? ≠ ys[j]? → j = i ∨ j = i + 1) (same : digest r xs = digest r ys) :
    xs = ys := by
  have parts (bs : Bytes) : bs.take i ++ ((bs.drop i).take 2 ++ bs.drop (i + 2)) = bs := by
    rw [← List.drop_drop, List.take_append_drop, List.take_append_drop]
  have equal (j : Nat) (away : j ≠ i ∧ j ≠ i + 1) : xs[j]? = ys[j]? := by
    by_contra differ
    rcases near j differ with here | next
    · exact away.1 here
    · exact away.2 next
  have front : xs.take i = ys.take i := take_eq_take fun j before => equal j (by omega)
  have back : xs.drop (i + 2) = ys.drop (i + 2) := by
    refine List.ext_getElem? fun j => ?_
    rw [List.getElem?_drop, List.getElem?_drop, equal _ (by omega)]
  -- The bytes behind do not bring the registers together, and those in front do not part them.
  rw [← parts xs, ← parts ys, front, back, digest_append, digest_append, digest_append,
    digest_append] at same
  have middle : (xs.drop i).take 2 = (ys.drop i).take 2 := by
    refine digest_right_injective ?_ (List.length_take_le _ _) (digest_left_injective _ same)
    rw [List.length_take, List.length_take, List.length_drop, List.length_drop, length]
  rw [← parts xs, ← parts ys, front, middle, back]

end ClimateLink.Frame
