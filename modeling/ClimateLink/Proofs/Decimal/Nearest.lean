import ClimateLink.Decimal.Binary
import ClimateLink.Proofs.Decimal.Double

/-!
# Nearest integers of doubles

The other operations on doubles, with their rounding errors, and the way from a double back to an
integer.

**Theorems (`Reads.mul`, `Reads.add`, `Reads.sub`).** Products, sums and differences are off by a
rounding error.

**Theorem (`Reads.exists_binary`).** The bits of a finite double are the sign, the mantissa and the
exponent of the number that it stands for.

**Theorem (`Reads.nearest?_eq`).** If a double stands for a number that is less than a half away
from an integer, that integer is nearest to the double.

**Theorem (`Binary.nearest_within_iff`).** The nearest integer is within bounds exactly if the
number is less than a half outside of them.
-/

namespace ClimateLink.Decimal

open Float.Model Float.Model.UnpackedFloat

/-! ## Operations before packing -/

theorem signed_mul (s₁ s₂ : Sign) (m₁ m₂ : Nat) (e₁ e₂ : Int) :
    signed s₁ m₁ e₁ * signed s₂ m₂ e₂ = signed (s₁ * s₂) (m₁ * m₂) (e₁ + e₂) := by
  have signs : (((s₁ * s₂).apply 1 : Int) : ℚ) = s₁.apply 1 * s₂.apply 1 := by
    cases s₁ <;> cases s₂
    · show ((1 : Int) : ℚ) = (-1 : Int) * (-1 : Int)
      norm_num
    · show ((-1 : Int) : ℚ) = (-1 : Int) * (1 : Int)
      norm_num
    · show ((-1 : Int) : ℚ) = (1 : Int) * (-1 : Int)
      norm_num
    · show ((1 : Int) : ℚ) = (1 : Int) * (1 : Int)
      norm_num
  rw [signed_eq, signed_eq, signed_eq, signs, zpow_add₀ two_ne_zero]
  push_cast
  ring

/-- The product of two mantissas has 53 bits, or its exponent is as low as exponents go. -/
theorem le_exponentOf_mul {m₁ m₂ : Nat} {e₁ e₂ : Int} (h₁ : 0 < m₁) (h₂ : 0 < m₂)
    (c₁ : e₁ = -1074 ∨ 2 ^ 52 ≤ m₁) (c₂ : e₂ = -1074 ∨ 2 ^ 52 ≤ m₂) :
    e₁ + e₂ ≤ exponentOf (m₁ * m₂) (e₁ + e₂) := by
  have large (h : 2 ^ 52 ≤ m₁ * m₂) : 52 ≤ (m₁ * m₂).log2 :=
    (Nat.le_log2 (Nat.mul_pos h₁ h₂).ne').2 h
  unfold exponentOf
  rcases c₁ with low₁ | high₁
  · rcases c₂ with low₂ | high₂
    · omega
    · have := large (high₂.trans (Nat.le_mul_of_pos_left m₂ h₁))
      omega
  · have := large (high₁.trans (Nat.le_mul_of_pos_right m₁ h₂))
    omega

theorem nearest_mul {u v : UnpackedFloat} (hu : u.isFinite) (hv : v.isFinite) (cu : Canonical u)
    (cv : Canonical v) : Nearest (UnpackedFloat.mul Format.binary64 u v) (value u * value v) := by
  cases u with
  | infinity | notANumber => cases hu
  | zero s₁ =>
    rw [value_zero, zero_mul]
    cases v with
    | infinity | notANumber => cases hv
    | zero s₂ => exact nearest_zero _
    | finite s₂ m₂ e₂ h₂ => exact nearest_zero _
  | finite s₁ m₁ e₁ h₁ =>
    cases v with
    | infinity | notANumber => cases hv
    | zero s₂ =>
      rw [value_zero, mul_zero]
      exact nearest_zero _
    | finite s₂ m₂ e₂ h₂ =>
      rw [value, value, signed_mul, signed_eq, UnpackedFloat.mul]
      refine nearest_roundWithAccuracy _ (.inl (Nat.mul_pos h₁ h₂).ne') ?_
        (le_exponentOf_mul h₁ h₂ cu.2.2 cv.2.2)
      rw [mul_div_cancel_right₀ _ (by positivity)]
      exact tells_exact _

/-- The double with the other sign. -/
def negated : UnpackedFloat → UnpackedFloat
  | .finite sign m e hm => .finite (-sign) m e hm
  | .zero sign => .zero (-sign)
  | .infinity sign => .infinity (-sign)
  | .notANumber => .notANumber

theorem value_negated (u : UnpackedFloat) : value (negated u) = -value u := by
  cases u with
  | finite sign m e hm => exact signed_neg sign m e
  | zero | infinity | notANumber => exact neg_zero.symm

theorem add_eq_sub_negated {u v : UnpackedFloat} (hu : u.isFinite) (hv : v.isFinite) :
    UnpackedFloat.add Format.binary64 u v = UnpackedFloat.sub Format.binary64 u (negated v) := by
  cases u with
  | infinity | notANumber => cases hu
  | zero s₁ =>
    cases v with
    | infinity | notANumber => cases hv
    | zero s₂ => cases s₁ <;> cases s₂ <;> rfl
    | finite s₂ m₂ e₂ h₂ => cases s₂ <;> rfl
  | finite s₁ m₁ e₁ h₁ =>
    cases v with
    | infinity | notANumber => cases hv
    | zero s₂ => rfl
    | finite s₂ m₂ e₂ h₂ =>
      have opposite (n : Int) : (-s₂).apply n = -s₂.apply n := by
        cases s₂
        · exact (neg_neg n).symm
        · rfl
      simp only [UnpackedFloat.add, negated, UnpackedFloat.sub, opposite, sub_neg_eq_add]

theorem nearest_add {u v : UnpackedFloat} (hu : u.isFinite) (hv : v.isFinite) (cu : Canonical u)
    (cv : Canonical v) : Nearest (UnpackedFloat.add Format.binary64 u v) (value u + value v) := by
  have finite : (negated v).isFinite := by
    cases v with
    | infinity | notANumber => cases hv
    | zero | finite => rfl
  have canonical : Canonical (negated v) := by
    cases v with
    | infinity | notANumber | zero => trivial
    | finite => exact cv
  have := nearest_sub hu finite cu canonical
  rwa [← add_eq_sub_negated hu hv, value_negated, sub_neg_eq_add] at this

/-! ## Rounding errors -/

section Errors

variable {x y : Float} {a b : ℚ}

/-- **A product is off by a rounding error**. -/
theorem Reads.mul (hx : Reads x a) (hy : Reads y b) (small : |a * b| < 2 ^ 100) :
    ∃ v, Reads (x * y) v ∧ |v - a * b| ≤ (|a * b| + 1) / 2 ^ 53 := by
  have near := nearest_mul hx.finite hy.finite hx.canonical hy.canonical
  rw [hx.value_eq, hy.value_eq] at near
  exact ⟨_, near.reads small, near.abs_sub_le⟩

/-- **A sum is off by a rounding error**. -/
theorem Reads.add (hx : Reads x a) (hy : Reads y b) (small : |a + b| < 2 ^ 100) :
    ∃ v, Reads (x + y) v ∧ |v - (a + b)| ≤ (|a + b| + 1) / 2 ^ 53 := by
  have near := nearest_add hx.finite hy.finite hx.canonical hy.canonical
  rw [hx.value_eq, hy.value_eq] at near
  exact ⟨_, near.reads small, near.abs_sub_le⟩

theorem Reads.add_int {m n : Int} (hx : Reads x m) (hy : Reads y n)
    (small : (m + n).natAbs < 2 ^ 53) : Reads (x + y) (m + n : Int) := by
  have near := nearest_add hx.finite hy.finite hx.canonical hy.canonical
  rw [hx.value_eq, hy.value_eq, ← Int.cast_add] at near
  exact near.reads_int small

/-- **A difference is off by a rounding error**. -/
theorem Reads.sub (hx : Reads x a) (hy : Reads y b) (small : |a - b| < 2 ^ 100) :
    ∃ v, Reads (x - y) v ∧ |v - (a - b)| ≤ (|a - b| + 1) / 2 ^ 53 := by
  have near := nearest_sub hx.finite hy.finite hx.canonical hy.canonical
  rw [hx.value_eq, hy.value_eq] at near
  exact ⟨_, near.reads small, near.abs_sub_le⟩

/-- Dividing by a number and multiplying by it again changes little. -/
theorem Reads.div_mul (hx : Reads x a) (hy : Reads y b) (lower : 1 ≤ b) (upper : b ≤ 100)
    (size : |a| ≤ 2 ^ 16) : ∃ v, Reads (x / y * y) v ∧ |v - a| ≤ 1 / 2 ^ 20 := by
  have pos : 0 < b := by linarith
  have smaller : |a / b| ≤ |a| := by
    rw [abs_div, abs_of_pos pos]
    exact div_le_self (abs_nonneg a) lower
  obtain ⟨q, quotient, error⟩ := hx.div hy pos.ne' (by linarith)
  have tiny : |q - a / b| ≤ 1 / 2 ^ 36 := by linarith
  have product : |q * b - a| ≤ 1 / 2 ^ 29 := by
    calc |q * b - a| = |q - a / b| * b := by
          rw [← abs_of_pos pos, ← abs_mul, abs_of_pos pos, sub_mul, div_mul_cancel₀ _ pos.ne']
      _ ≤ 1 / 2 ^ 36 * 100 := mul_le_mul tiny upper pos.le (by positivity)
      _ ≤ 1 / 2 ^ 29 := by norm_num
  have bound : |q * b| ≤ |a| + 1 := by
    have := abs_sub_abs_le_abs_sub (q * b) a
    linarith
  obtain ⟨v, reads, error⟩ := quotient.mul hy (by linarith)
  refine ⟨v, reads, ?_⟩
  have := abs_sub_le v (q * b) a
  linarith

end Errors

/-! ## The integer form -/

/-- The number that an integer form stands for. -/
def Binary.value (d : Binary) : ℚ :=
  (if d.negative then -1 else 1) * (d.mantissa * 2 ^ d.exponent)

theorem toNat_unpackMantissa (bits : BitVec 64) :
    (@unpackMantissa Format.binary64 bits).toNat = bits.toNat % hidden := by
  simp [unpackMantissa, hidden]

theorem toNat_unpackExponent (bits : BitVec 64) :
    (@unpackExponent Format.binary64 bits).toNat = bits.toNat >>> 52 % 2048 := by
  simp [unpackExponent]

theorem toNat_unpackSign (bits : BitVec 64) :
    (@unpackSign Format.binary64 bits).toNat = bits.toNat >>> 63 := by
  have := bits.isLt
  have : bits.toNat >>> 63 ≤ 1 := by
    rw [Nat.shiftRight_eq_div_pow]
    omega
  simpa [unpackSign] using this

theorem value_of_sign (s : BitVec 1) (m : Nat) (e : Int) :
    Binary.value ⟨s.toNat == 1, m, e⟩ = signed (Sign.ofBitVec s) m e := by
  have cases_of : s = 0#1 ∨ s = 1#1 := by
    revert s
    decide
  rcases cases_of with rfl | rfl
  · rw [Binary.value, signed_eq]
    simp [Sign.ofBitVec, Sign.apply]
  · rw [Binary.value, signed_eq]
    simp [Sign.ofBitVec, Sign.apply]

theorem toNat_appended {i j : Nat} (a : BitVec i) (b : BitVec j) :
    (a ++ b).toNat = a.toNat * 2 ^ j + b.toNat := by
  rw [BitVec.toNat_append, ← Nat.shiftLeft_add_eq_or_of_lt b.isLt, Nat.shiftLeft_eq]

theorem toBitVec_ofBitVec (b : BitVec 1) : (Sign.ofBitVec b).toBitVec = b := by
  revert b
  decide

theorem packComponents_unpack (bits : BitVec 64) :
    packComponents Format.binary64 (Sign.ofBitVec (@unpackSign Format.binary64 bits))
      (unpackExponent bits) (unpackMantissa bits) = bits := by
  apply BitVec.eq_of_toNat_eq
  rw [packComponents, toBitVec_ofBitVec, toNat_appended, toNat_appended, toNat_unpackSign,
    toNat_unpackExponent, toNat_unpackMantissa, Nat.shiftRight_eq_div_pow,
    Nat.shiftRight_eq_div_pow]
  show (bits.toNat / 2 ^ 63 * 2 ^ 11 + bits.toNat / 2 ^ 52 % 2048) * 2 ^ 52 +
    bits.toNat % 2 ^ 52 = _
  omega

/-- **The bits of a finite double** are the sign, the mantissa and the exponent of the number that
it stands for. -/
theorem Reads.exists_binary {x : Float} {v : ℚ} (h : Reads x v) :
    ∃ d, Binary.ofFloat? x = some d ∧ d.value = v := by
  have mantissa := toNat_unpackMantissa x.toBits.toBitVec
  have exponent := toNat_unpackExponent x.toBits.toBitVec
  have sign := toNat_unpackSign x.toBits.toBitVec
  have finite := h.finite
  have value_eq := h.value_eq
  have unpacked : x.toModel.unpack = UnpackedFloat.unpack Format.binary64 x.toBits.toBitVec := rfl
  have word_eq : x.toBits.toNat = x.toBits.toBitVec.toNat := rfl
  rw [unpacked, ← packComponents_unpack x.toBits.toBitVec, unpack_packComponents] at finite value_eq
  simp only [Binary.ofFloat?, word_eq, ← mantissa, ← exponent, ← sign]
  generalize @unpackMantissa Format.binary64 x.toBits.toBitVec = m at finite value_eq
  generalize @unpackExponent Format.binary64 x.toBits.toBitVec = e at finite value_eq
  generalize @unpackSign Format.binary64 x.toBits.toBitVec = s at finite value_eq
  -- The three ranges of the exponent: not a number or infinite, the least, and all others.
  by_cases ones : e = -1#11
  · rw [if_pos ones] at finite
    split at finite <;> cases finite
  have notOnes : ¬e.toNat = 2047 := fun same => ones (BitVec.eq_of_toNat_eq same)
  rw [if_neg ones] at value_eq
  rw [if_neg (by simpa using notOnes)]
  by_cases zero : e = 0#11
  · rw [if_pos zero] at value_eq
    rw [if_pos (by simp [zero])]
    refine ⟨_, rfl, ?_⟩
    rw [value_of_sign]
    by_cases none : m = 0#52
    · rw [dif_pos none, value_zero] at value_eq
      rw [none, ← value_eq, signed_eq, BitVec.toNat_ofNat, Nat.zero_mod, Nat.cast_zero, zero_mul,
        mul_zero]
    · rw [dif_neg none, value, zero] at value_eq
      exact value_eq
  · have notZero : ¬e.toNat = 0 := fun same => zero (BitVec.eq_of_toNat_eq same)
    rw [if_neg zero, value, toNat_leading] at value_eq
    rw [if_neg (by simpa using notZero)]
    exact ⟨_, rfl, (value_of_sign s _ _).trans value_eq⟩

/-! ## The nearest integer -/

theorem Binary.abs_nearestNat_sub_le (d : Binary) :
    |(d.nearestNat : ℚ) - d.mantissa * 2 ^ d.exponent| ≤ 1 / 2 := by
  obtain ⟨negative, m, q | q⟩ := d
  · have exact_eq : ((m <<< q : Nat) : ℚ) = m * 2 ^ (Int.ofNat q) := by
      rw [Nat.shiftLeft_eq]
      push_cast
      rfl
    show |((m <<< q : Nat) : ℚ) - m * 2 ^ (Int.ofNat q)| ≤ 1 / 2
    rw [exact_eq, sub_self, abs_zero]
    norm_num
  · show |(((m + 1 <<< q) >>> (q + 1) : Nat) : ℚ) - m * 2 ^ (Int.negSucc q)| ≤ 1 / 2
    rw [Nat.shiftRight_eq_div_pow, Nat.shiftLeft_eq, one_mul, zpow_negSucc, ← div_eq_mul_inv]
    have pos : (0 : ℚ) < 2 ^ (q + 1) := by positivity
    have half : (2 : ℚ) ^ q / 2 ^ (q + 1) = 1 / 2 := by
      rw [pow_succ]
      field_simp
    have lower : (((m + 2 ^ q) / 2 ^ (q + 1) : Nat) : ℚ) ≤
        ((m + 2 ^ q : Nat) : ℚ) / (2 ^ (q + 1) : Nat) := Nat.cast_div_le
    have upper : ((m + 2 ^ q : Nat) : ℚ) / (2 ^ (q + 1) : Nat) <
        (((m + 2 ^ q) / 2 ^ (q + 1) : Nat) : ℚ) + 1 := by
      rw [div_lt_iff₀ (by exact_mod_cast pos), mul_comm]
      exact_mod_cast Nat.lt_mul_div_succ (m + 2 ^ q) (by positivity)
    push_cast at lower upper
    rw [add_div, half] at lower upper
    rw [abs_le]
    constructor <;> linarith

/-- The magnitude is rounded to no more than a number exactly if it is less than a half above it. -/
theorem Binary.nearestNat_le_iff (d : Binary) (k : Nat) :
    d.nearestNat ≤ k ↔ (d.mantissa * 2 ^ d.exponent : ℚ) < k + 1 / 2 := by
  obtain ⟨negative, m, q | q⟩ := d
  · show m <<< q ≤ k ↔ (m * 2 ^ q : ℚ) < k + 1 / 2
    rw [Nat.shiftLeft_eq]
    constructor
    · intro within
      have : ((m * 2 ^ q : Nat) : ℚ) ≤ k := by exact_mod_cast within
      push_cast at this
      linarith
    · intro less
      have : ((m * 2 ^ q : Nat) : ℚ) < (k + 1 : Nat) := by
        push_cast
        linarith
      exact Nat.le_of_lt_succ (by exact_mod_cast this)
  · show (m + 1 <<< q) >>> (q + 1) ≤ k ↔ (m * 2 ^ (Int.negSucc q) : ℚ) < k + 1 / 2
    have double : (2 : ℚ) ^ (q + 1) = 2 * 2 ^ q := pow_succ' 2 q
    rw [Nat.shiftRight_eq_div_pow, Nat.shiftLeft_eq, one_mul, zpow_negSucc, ← div_eq_mul_inv,
      div_lt_iff₀ (by positivity), ← Nat.lt_succ_iff, Nat.div_lt_iff_lt_mul (by positivity),
      ← Nat.cast_lt (α := ℚ)]
    push_cast
    rw [double]
    constructor <;> intro less <;> linarith

/-- **An integer within bounds**: the nearest integer is from zero to a limit exactly if the number
is less than a half outside. -/
theorem Binary.nearest_within_iff (d : Binary) (limit : Nat) :
    0 ≤ d.nearest ∧ d.nearest ≤ limit ↔ -(1 / 2) < d.value ∧ d.value < limit + 1 / 2 := by
  have magnitude : (0 : ℚ) ≤ d.mantissa * 2 ^ d.exponent := by positivity
  have wide : (0 : ℚ) ≤ limit := Nat.cast_nonneg limit
  rw [Binary.nearest, Binary.value]
  -- Below zero the magnitude has to be rounded to nothing.
  by_cases negative : d.negative
  · have none := d.nearestNat_le_iff 0
    rw [Nat.cast_zero, zero_add] at none
    rw [if_pos negative, if_pos negative]
    constructor
    · rintro ⟨high, -⟩
      have := none.1 (by omega)
      constructor <;> linarith
    · rintro ⟨low, -⟩
      have := none.2 (by linarith)
      omega
  · rw [if_neg negative, if_neg negative, one_mul]
    have within := d.nearestNat_le_iff limit
    constructor
    · rintro ⟨-, high⟩
      have := within.1 (by omega)
      exact ⟨by linarith, this⟩
    · rintro ⟨-, less⟩
      have := within.2 less
      omega

theorem Binary.abs_nearest_sub_le (d : Binary) : |(d.nearest : ℚ) - d.value| ≤ 1 / 2 := by
  have near := d.abs_nearestNat_sub_le
  rw [Binary.nearest, Binary.value]
  by_cases negative : d.negative
  · rw [if_pos negative, if_pos negative, ← abs_neg]
    push_cast
    convert near using 2
    ring
  · rw [if_neg negative, if_neg negative, one_mul]
    exact near

/-- **The nearest integer** of a double that stands for a number less than a half away from it. -/
theorem Reads.nearest?_eq {x : Float} {v : ℚ} (h : Reads x v) {n : Int} (close : |v - n| < 1 / 2) :
    nearest? x = some n := by
  obtain ⟨d, found, rfl⟩ := h.exists_binary
  have near := d.abs_nearest_sub_le
  have less : |((d.nearest - n : Int) : ℚ)| < 1 := by
    push_cast
    have := abs_sub_le (d.nearest : ℚ) d.value n
    linarith
  have equal : d.nearest = n := by
    rw [← Int.cast_abs] at less
    exact sub_eq_zero.1 (Int.abs_lt_one_iff.1 (by exact_mod_cast less))
  rw [nearest?, found, Option.map_some, equal]

theorem abs_intCast_le {n : Int} (h : n.natAbs ≤ 2 ^ 16) : |(n : ℚ)| ≤ 2 ^ 16 := by
  rw [← Int.cast_abs, Int.abs_eq_natAbs]
  exact_mod_cast h

/-- What is nearly an integer is still nearly one after another integer is taken away. -/
theorem Reads.nearest?_sub {x y : Float} {v : ℚ} {m k : Int} (hx : Reads x v) (hy : Reads y k)
    (close : |v - m| ≤ 1 / 2 ^ 20) (size : (m - k).natAbs ≤ 2 ^ 16) :
    nearest? (x - y) = some (m - k) := by
  have near : |v - k - (m - k : Int)| ≤ 1 / 2 ^ 20 := by
    push_cast
    rwa [sub_sub_sub_cancel_right]
  have small : |v - k| ≤ 2 ^ 17 := by
    have whole := abs_intCast_le size
    have := abs_sub_abs_le_abs_sub (v - k) ((m - k : Int) : ℚ)
    linarith
  obtain ⟨w, reads, rounding⟩ := hx.sub hy (by linarith)
  refine reads.nearest?_eq ?_
  have := abs_sub_le w (v - k) ((m - k : Int) : ℚ)
  linarith

theorem Reads.nearest?_add {x y : Float} {v : ℚ} {m k : Int} (hx : Reads x v) (hy : Reads y k)
    (close : |v - m| ≤ 1 / 2 ^ 20) (size : (m + k).natAbs ≤ 2 ^ 16) :
    nearest? (x + y) = some (m + k) := by
  have near : |v + k - (m + k : Int)| ≤ 1 / 2 ^ 20 := by
    push_cast
    rwa [add_sub_add_right_eq_sub]
  have small : |v + k| ≤ 2 ^ 17 := by
    have whole := abs_intCast_le size
    have := abs_sub_abs_le_abs_sub (v + k) ((m + k : Int) : ℚ)
    linarith
  obtain ⟨w, reads, rounding⟩ := hx.add hy (by linarith)
  refine reads.nearest?_eq ?_
  have := abs_sub_le w (v + k) ((m + k : Int) : ℚ)
  linarith

end ClimateLink.Decimal
