import Mathlib

/-!
# Rounding of doubles

The result of an operation on doubles comes from a mantissa with two further bits, which is
shifted right until 53 bits are left and then rounded. What the shifts keep and what the rounding
loses is said over the rationals.

**Theorem (`nearest_roundWithAccuracy`).** What the mantissa and its bits tell of a positive number
is rounded to the nearest double.

**Theorems (`Nearest.value_eq_intCast`, `Nearest.abs_sub_le`).** The double nearest to an integer
of 53 bits is that integer; the double nearest to any number is off by a rounding error.
-/

namespace ClimateLink.Decimal

open Float.Model Float.Model.UnpackedFloat

/-! ## A mantissa and the two bits behind it -/

/-- The mantissa is the whole part of `x`, and its bits say whether the fraction is nothing, less
than a half, a half, or more. -/
def Tells (em : ExtendedMantissa) (x : ℚ) : Prop :=
  match em.roundBit, em.stickyBit with
  | false, false => x = em.mantissa
  | false, true => em.mantissa < x ∧ x < em.mantissa + 1 / 2
  | true, false => x = em.mantissa + 1 / 2
  | true, true => em.mantissa + 1 / 2 < x ∧ x < em.mantissa + 1

theorem tells_exact (m : Nat) : Tells (.ofMantissaAndAccuracy m .exact) m := rfl

/-- A quotient is told by its whole part and a comparison of the remainder. -/
theorem tells_quotient (m : Nat) {d : Nat} (hd : 0 < d) :
    Tells (.ofMantissaAndAccuracy (m / d) (accuracyOfFraction (m % d) d)) (m / d : ℚ) := by
  have pos : (0 : ℚ) < d := Nat.cast_pos.2 hd
  have split : (m : ℚ) / d = (m / d : Nat) + (m % d : Nat) / d := by
    rw [div_eq_iff pos.ne', add_mul, div_mul_cancel₀ _ pos.ne']
    exact_mod_cast (Nat.div_add_mod' m d).symm
  have below : ((m % d : Nat) : ℚ) / d < 1 :=
    (div_lt_one pos).2 (Nat.cast_lt.2 (Nat.mod_lt m hd))
  rw [split, accuracyOfFraction]
  by_cases zero : m % d = 0
  · rw [if_pos zero, zero, Nat.cast_zero, zero_div, add_zero]
    exact tells_exact _
  · have above : (0 : ℚ) < (m % d : Nat) / d :=
      div_pos (Nat.cast_pos.2 (Nat.pos_of_ne_zero zero)) pos
    rw [if_neg zero]
    rcases lt_trichotomy (2 * (m % d)) d with h | h | h
    · rw [Nat.compare_eq_lt.2 h]
      have half : ((m % d : Nat) : ℚ) / d < 1 / 2 := by
        rw [div_lt_iff₀ pos]
        have : (2 : ℚ) * (m % d : Nat) < d := by exact_mod_cast h
        linarith
      exact ⟨lt_add_of_pos_right _ above, (add_lt_add_iff_left _).2 half⟩
    · rw [Nat.compare_eq_eq.2 h]
      have half : ((m % d : Nat) : ℚ) / d = 1 / 2 := by
        rw [div_eq_iff pos.ne']
        have : (2 : ℚ) * (m % d : Nat) = d := by exact_mod_cast h
        linarith
      exact congrArg _ half
    · rw [Nat.compare_eq_gt.2 h]
      have half : 1 / 2 < ((m % d : Nat) : ℚ) / d := by
        rw [lt_div_iff₀ pos]
        have : (d : ℚ) < 2 * (m % d : Nat) := by exact_mod_cast h
        linarith
      exact ⟨(add_lt_add_iff_left _).2 half, (add_lt_add_iff_left _).2 below⟩

theorem Tells.shiftRightOne {em : ExtendedMantissa} {x : ℚ} (h : Tells em x) :
    Tells em.shiftRightOne (x / 2) := by
  obtain ⟨m, round, sticky⟩ := em
  have split : (m : ℚ) = 2 * (m / 2 : Nat) + (m % 2 : Nat) := by
    exact_mod_cast (Nat.div_add_mod m 2).symm
  rcases Nat.mod_two_eq_zero_or_one m with parity | parity
  · rw [parity, Nat.cast_zero] at split
    cases round <;> cases sticky <;>
      simp only [Tells, ExtendedMantissa.shiftRightOne, parity, bne_self_eq_false, Bool.or_false,
        Bool.or_true] at h ⊢
    · linarith
    · exact ⟨by linarith [h.1], by linarith [h.2]⟩
    · exact ⟨by linarith, by linarith⟩
    · exact ⟨by linarith [h.1], by linarith [h.2]⟩
  · rw [parity, Nat.cast_one] at split
    cases round <;> cases sticky <;>
      simp only [Tells, ExtendedMantissa.shiftRightOne, parity, Nat.reduceBNe, Bool.or_false,
        Bool.or_true] at h ⊢
    · linarith
    · exact ⟨by linarith [h.1], by linarith [h.2]⟩
    · exact ⟨by linarith, by linarith⟩
    · exact ⟨by linarith [h.1], by linarith [h.2]⟩

/-- Shifting keeps what is told: the bits that fall out go on counting. -/
theorem Tells.shiftRight {em : ExtendedMantissa} {x : ℚ} (h : Tells em x) (n : Nat) :
    Tells (em >>> n) (x / 2 ^ n) := by
  show Tells (n.repeat ExtendedMantissa.shiftRightOne em) (x / 2 ^ n)
  induction n with
  | zero => simpa [Nat.repeat] using h
  | succ n ih =>
    rw [pow_succ, ← div_div]
    exact ih.shiftRightOne

/-- The mantissa that is rounded to is no further from the number than a half. -/
theorem Tells.abs_roundedMantissa_sub_le {em : ExtendedMantissa} {x : ℚ} (h : Tells em x) :
    |(em.roundedMantissa : ℚ) - x| ≤ 1 / 2 := by
  obtain ⟨m, round, sticky⟩ := em
  rw [abs_le]
  cases round <;> cases sticky <;>
    simp only [Tells, ExtendedMantissa.roundedMantissa, ExtendedMantissa.accuracy,
      Accuracy.roundToNearestEven] at h ⊢
  · exact ⟨by linarith, by linarith⟩
  · exact ⟨by linarith [h.1, h.2], by linarith [h.1, h.2]⟩
  · rcases Nat.mod_two_eq_zero_or_one m with parity | parity <;> rw [parity] <;> push_cast <;>
      exact ⟨by linarith, by linarith⟩
  · push_cast
    exact ⟨by linarith [h.1, h.2], by linarith [h.1, h.2]⟩

theorem Tells.le {em : ExtendedMantissa} {x : ℚ} (h : Tells em x) : em.mantissa ≤ x := by
  obtain ⟨m, round, sticky⟩ := em
  cases round <;> cases sticky <;> simp only [Tells] at h ⊢
  · exact h.ge
  · exact h.1.le
  · linarith
  · linarith [h.1]

theorem Tells.lt {em : ExtendedMantissa} {x : ℚ} (h : Tells em x) : x < em.mantissa + 1 := by
  obtain ⟨m, round, sticky⟩ := em
  cases round <;> cases sticky <;> simp only [Tells] at h ⊢
  · linarith
  · linarith [h.2]
  · linarith
  · exact h.2

/-! ## The exponent of a number -/

/-- The exponent that doubles of the size of `x` have: the mantissa takes 53 bits, unless the
exponent is the least one. -/
structure IsExponent (e : Int) (x : ℚ) : Prop where
  least : -1074 ≤ e
  lt : x < 2 ^ (e + 53)
  le : e = -1074 ∨ 2 ^ (e + 52) ≤ x

/-- The exponent of a mantissa and an exponent. -/
def exponentOf (m : Nat) (e : Int) : Int := max (m.log2 + e - 52) (-1074)

theorem targetExponent_eq (m : Nat) (e : Int) :
    Format.binary64.targetExponent (totalExponent m e) = exponentOf m e := by
  show max (m.log2 + 1 + e - 53) (-1074) = max (m.log2 + e - 52) (-1074)
  congr 1
  omega

/-- The exponent fits every number with this whole part; without a whole part, the number must be
below the least double that there is. -/
theorem isExponent_exponentOf {m : Nat} {e : Int} {x : ℚ} (hm : m ≠ 0 ∨ e ≤ -1074)
    (le : m ≤ x / 2 ^ e) (lt : x / 2 ^ e < m + 1) : IsExponent (exponentOf m e) x := by
  have pos : (0 : ℚ) < 2 ^ e := by positivity
  refine ⟨le_max_right _ _, ?_, ?_⟩
  · have upper : (m : ℚ) + 1 ≤ 2 ^ (m.log2 + 1 : Int) := by
      exact_mod_cast Nat.lt_log2_self
    calc x < (m + 1) * 2 ^ e := (div_lt_iff₀ pos).1 lt
      _ ≤ 2 ^ (m.log2 + 1 : Int) * 2 ^ e := mul_le_mul_of_nonneg_right upper pos.le
      _ = 2 ^ (m.log2 + 1 + e : Int) := (zpow_add₀ two_ne_zero _ _).symm
      _ ≤ 2 ^ (exponentOf m e + 53) := by
        refine zpow_le_zpow_right₀ one_le_two ?_
        have := le_max_left (m.log2 + e - 52) (-1074)
        unfold exponentOf
        omega
  · by_cases least : exponentOf m e = -1074
    · exact .inl least
    · have normal : exponentOf m e = m.log2 + e - 52 := by
        unfold exponentOf at least ⊢
        omega
      -- Zero would have the least exponent.
      have positive : m ≠ 0 := by
        rintro rfl
        have zero : Nat.log2 0 = 0 := Nat.log2_zero
        unfold exponentOf at least
        omega
      have lower : (2 : ℚ) ^ (m.log2 : Int) ≤ m := by exact_mod_cast Nat.log2_self_le positive
      right
      calc (2 : ℚ) ^ (exponentOf m e + 52) = 2 ^ (m.log2 + e : Int) := by
            rw [normal]
            congr 1
            omega
        _ = 2 ^ (m.log2 : Int) * 2 ^ e := zpow_add₀ two_ne_zero _ _
        _ ≤ m * 2 ^ e := mul_le_mul_of_nonneg_right lower pos.le
        _ ≤ x := (le_div_iff₀ pos).1 le

/-! ## Doubles before they are packed -/

/-- The number that a sign, a mantissa and an exponent stand for. -/
def signed (sign : Sign) (m : Nat) (e : Int) : ℚ := sign.apply m * 2 ^ e

/-- The number that a finite double stands for. -/
def value : UnpackedFloat → ℚ
  | .finite sign m e _ => signed sign m e
  | _ => 0

@[simp] theorem value_zero (sign : Sign) : value (.zero sign) = 0 := rfl

/-- The mantissa takes 53 bits, unless the exponent is the least one. -/
def Canonical : UnpackedFloat → Prop
  | .finite _ m e _ => m < 2 ^ 53 ∧ -1074 ≤ e ∧ (e = -1074 ∨ 2 ^ 52 ≤ m)
  | _ => True

/-- The finite double `u` is nearest to `x`. -/
structure Nearest (u : UnpackedFloat) (x : ℚ) : Prop where
  finite : u.isFinite
  canonical : Canonical u
  near : ∃ (e r : Int), IsExponent e |x| ∧ value u = r * 2 ^ e ∧ |value u - x| ≤ 2 ^ e / 2

theorem signed_eq (sign : Sign) (m : Nat) (e : Int) :
    signed sign m e = sign.apply 1 * (m * 2 ^ e) := by
  cases sign <;> simp [signed, Sign.apply]

theorem abs_apply_one_mul (sign : Sign) (x : ℚ) : |sign.apply 1 * x| = |x| := by
  cases sign <;> simp [Sign.apply]

theorem abs_signed (sign : Sign) (m : Nat) (e : Int) : |signed sign m e| = m * 2 ^ e := by
  rw [signed_eq, abs_apply_one_mul, abs_of_nonneg (by positivity)]

/-- Shifting a mantissa without bits behind it by `n` is exact if it is a multiple of `2 ^ n`. -/
theorem mantissa_shiftRight (m n : Nat) :
    ((ExtendedMantissa.ofMantissaAndAccuracy (m * 2 ^ n) .exact) >>> n).mantissa = m := by
  have tells := (tells_exact (m * 2 ^ n)).shiftRight n
  rw [Nat.cast_mul, Nat.cast_pow, Nat.cast_ofNat, mul_div_cancel_right₀ _ (by positivity)] at tells
  have le : ((_ : Nat) : ℚ) ≤ (m : Nat) := tells.le
  have lt : ((m : Nat) : ℚ) < ((_ : Nat) : ℚ) + 1 := tells.lt
  exact le_antisymm (by exact_mod_cast le) (Nat.lt_succ_iff.1 (by exact_mod_cast lt))

/-- After rounding, at most one more shift is due, and it is exact. -/
theorem shiftToTargetExponent_rounded {r : Nat} {e : Int} (hr : r ≤ 2 ^ 53) (least : -1074 ≤ e)
    (low : e = -1074 ∨ 2 ^ 52 ≤ r) {em : ExtendedMantissa} {e' : Int}
    (h : shiftToTargetExponent Format.binary64 r e .exact = (em, e')) :
    (em.mantissa : ℚ) * 2 ^ e' = r * 2 ^ e ∧
      em.mantissa < 2 ^ 53 ∧ -1074 ≤ e' ∧ (e' = -1074 ∨ 2 ^ 52 ≤ em.mantissa) := by
  rw [shiftToTargetExponent, targetExponent_eq, shiftToExponent] at h
  rcases hr.lt_or_eq with small | rfl
  · have stay : (exponentOf r e - e).toNat = 0 := by
      have : r.log2 < 53 := by
        rcases eq_or_ne r 0 with rfl | pos
        · decide
        · exact (Nat.log2_lt pos).2 small
      unfold exponentOf
      omega
    rw [stay] at h
    cases h
    exact ⟨by rw [Int.natCast_zero, add_zero]; rfl, small, by omega,
      by rwa [Int.natCast_zero, add_zero]⟩
  · have next : (exponentOf (2 ^ 53) e - e).toNat = 1 := by
      have : (2 ^ 53 : Nat).log2 = 53 := Nat.log2_two_pow
      unfold exponentOf
      omega
    rw [next] at h
    cases h
    have half := mantissa_shiftRight (2 ^ 52) 1
    rw [show 2 ^ 52 * 2 ^ 1 = 2 ^ 53 from rfl] at half
    rw [half]
    refine ⟨?_, by norm_num, by omega, .inr le_rfl⟩
    rw [Nat.cast_one, zpow_add_one₀ two_ne_zero]
    push_cast
    ring

/-- A mantissa that is shifted to the exponent of its number has 53 bits when it is rounded, or
is the power of two that follows. -/
theorem Tells.roundedMantissa_bounds {em : ExtendedMantissa} {x : ℚ} {e : Int}
    (h : Tells em (x / 2 ^ e)) (exponent : IsExponent e x) :
    em.roundedMantissa ≤ 2 ^ 53 ∧ (e = -1074 ∨ 2 ^ 52 ≤ em.roundedMantissa) := by
  have pos : (0 : ℚ) < 2 ^ e := by positivity
  have near := abs_le.1 h.abs_roundedMantissa_sub_le
  have power (n : Nat) : (2 : ℚ) ^ (e + n) = 2 ^ n * 2 ^ e := by
    rw [add_comm, zpow_add₀ two_ne_zero, zpow_natCast]
  constructor
  · have upper : x / 2 ^ e < 2 ^ 53 := by
      rw [div_lt_iff₀ pos, ← power]
      exact exponent.lt
    have : (em.roundedMantissa : ℚ) < (2 ^ 53 + 1 : Nat) := by
      push_cast
      linarith [near.2]
    exact Nat.lt_succ_iff.1 (Nat.cast_lt.1 this)
  · refine exponent.le.imp_right fun le => ?_
    have lower : 2 ^ 52 ≤ x / 2 ^ e := by
      rw [le_div_iff₀ pos, ← power]
      exact le
    have : ((2 ^ 52 : Nat) : ℚ) < (em.roundedMantissa + 1 : Nat) := by
      push_cast
      linarith [near.1]
    exact Nat.lt_succ_iff.1 (Nat.cast_lt.1 this)

/-- **What is told of a positive number is rounded to the nearest double**, as long as the
exponent is not above the one that the result must have. -/
theorem nearest_roundWithAccuracy (sign : Sign) {m : Nat} {e : Int} {accuracy : Accuracy} {x : ℚ}
    (hm : m ≠ 0 ∨ e ≤ -1074) (tells : Tells (.ofMantissaAndAccuracy m accuracy) (x / 2 ^ e))
    (he : e ≤ exponentOf m e) :
    Nearest (roundWithAccuracy Format.binary64 sign m e accuracy) (sign.apply 1 * x) := by
  have mantissa : (ExtendedMantissa.ofMantissaAndAccuracy m accuracy).mantissa = m := by
    rcases accuracy with _ | _ | _ | _ <;> rfl
  have exponent : IsExponent (exponentOf m e) x :=
    isExponent_exponentOf hm (mantissa ▸ tells.le) (mantissa ▸ tells.lt)
  obtain ⟨n, hn⟩ : ∃ n : Nat, exponentOf m e = e + n := ⟨(exponentOf m e - e).toNat, by omega⟩
  obtain ⟨em, hem⟩ : ∃ em, ExtendedMantissa.ofMantissaAndAccuracy m accuracy >>> n = em := ⟨_, rfl⟩
  have first : shiftToTargetExponent Format.binary64 m e accuracy = (em, e + n) := by
    have : (e + n - e : Int).toNat = n := by omega
    rw [shiftToTargetExponent, targetExponent_eq, shiftToExponent, hn, this, hem]
  have shifted : Tells em (x / 2 ^ (e + n : Int)) := by
    rw [zpow_add₀ two_ne_zero, ← div_div, zpow_natCast, ← hem]
    exact tells.shiftRight n
  rw [hn] at exponent
  obtain ⟨high, low⟩ := shifted.roundedMantissa_bounds exponent
  -- Rounding may carry into one bit more, so the result is shifted again.
  obtain ⟨⟨em', e'⟩, second⟩ :
      ∃ p, shiftToTargetExponent Format.binary64 em.roundedMantissa (e + n) .exact = p := ⟨_, rfl⟩
  obtain ⟨same, canonical⟩ := shiftToTargetExponent_rounded high exponent.least low second
  have result : roundWithAccuracy Format.binary64 sign m e accuracy =
      if h : em'.mantissa = 0 then .zero sign
      else .finite sign em'.mantissa e' (Nat.pos_of_ne_zero h) := by
    rw [roundWithAccuracy, first]
    simp only [second]
  have rounded : value (roundWithAccuracy Format.binary64 sign m e accuracy) =
      sign.apply 1 * (em.roundedMantissa * 2 ^ (e + n : Int)) := by
    rw [result, ← same]
    by_cases zero : em'.mantissa = 0
    · rw [dif_pos zero, zero, Nat.cast_zero, zero_mul, mul_zero, value_zero]
    · rw [dif_neg zero, value, signed_eq]
  refine ⟨?_, ?_, e + n, sign.apply em.roundedMantissa, ?_, ?_, ?_⟩
  · rw [result]
    split <;> rfl
  · rw [result]
    split
    · trivial
    · exact canonical
  · have pos : 0 ≤ x := by
      have : (0 : ℚ) ≤ x / 2 ^ e := (Nat.cast_nonneg _).trans tells.le
      simpa using (le_div_iff₀ (by positivity)).1 this
    rw [abs_apply_one_mul, abs_of_nonneg pos]
    exact exponent
  · rw [rounded, ← signed_eq]
    rfl
  · have scale : (0 : ℚ) < 2 ^ (e + n : Int) := by positivity
    have near := shifted.abs_roundedMantissa_sub_le
    rw [rounded, ← mul_sub, abs_apply_one_mul]
    calc |(em.roundedMantissa * 2 ^ (e + n : Int) - x : ℚ)|
        = |em.roundedMantissa - x / 2 ^ (e + n : Int)| * 2 ^ (e + n : Int) := by
          rw [← abs_of_pos scale, ← abs_mul, abs_of_pos scale, sub_mul,
            div_mul_cancel₀ _ scale.ne']
      _ ≤ 1 / 2 * 2 ^ (e + n : Int) := mul_le_mul_of_nonneg_right near scale.le
      _ = 2 ^ (e + n : Int) / 2 := by ring

/-! ## What the nearest double is like -/

theorem nearest_zero (sign : Sign) : Nearest (.zero sign) 0 := by
  refine ⟨rfl, trivial, -1074, 0, ⟨le_rfl, ?_, .inl rfl⟩, ?_, ?_⟩
  · rw [abs_zero]
    positivity
  · rw [value_zero, Int.cast_zero, zero_mul]
  · rw [value_zero, sub_zero, abs_zero]
    positivity

theorem nearest_value {u : UnpackedFloat} (finite : u.isFinite) (canonical : Canonical u) :
    Nearest u (value u) := by
  cases u with
  | infinity | notANumber => cases finite
  | zero sign => exact nearest_zero sign
  | finite sign m e hm =>
    obtain ⟨high, least, low⟩ := canonical
    have pos : (0 : ℚ) < 2 ^ e := by positivity
    refine ⟨finite, ⟨high, least, low⟩, e, sign.apply m, ⟨least, ?_, ?_⟩, rfl, ?_⟩
    · rw [value, abs_signed, add_comm, zpow_add₀ two_ne_zero]
      exact mul_lt_mul_of_pos_right (by exact_mod_cast high) pos
    · rw [value, abs_signed, add_comm, zpow_add₀ two_ne_zero]
      exact low.imp_right fun h => mul_le_mul_of_nonneg_right (by exact_mod_cast h) pos.le
    · rw [sub_self, abs_zero]
      positivity

/-- **An integer of at most 53 bits is a double**: nothing else is nearest to it. -/
theorem Nearest.value_eq_intCast {u : UnpackedFloat} {n : Int} (h : Nearest u n)
    (small : n.natAbs < 2 ^ 53) : value u = n := by
  obtain ⟨-, -, e, r, exponent, hr, near⟩ := h
  have size : |(n : ℚ)| < 2 ^ 53 := by
    rw [← Int.cast_abs, Int.abs_eq_natAbs]
    exact_mod_cast small
  have nonpos : e ≤ 0 := by
    rcases exponent.le with least | le
    · omega
    · have : (2 : ℚ) ^ (e + 52) < 2 ^ (53 : Int) := le.trans_lt size
      have := (zpow_lt_zpow_iff_right₀ (one_lt_two (α := ℚ))).1 this
      omega
  obtain ⟨k, rfl⟩ : ∃ k : Nat, e = -k := ⟨e.natAbs, by omega⟩
  have pos : (0 : ℚ) < 2 ^ (-k : Int) := by positivity
  have grid : (n : ℚ) = (n * 2 ^ k : Int) * 2 ^ (-k : Int) := by
    push_cast
    rw [mul_assoc, zpow_neg, zpow_natCast, mul_inv_cancel₀ (by positivity), mul_one]
  rw [hr, grid, ← sub_mul, abs_mul, abs_of_pos pos, ← Int.cast_sub] at near
  -- Both are multiples of the same power, and less than one of it apart.
  have less : |(((r - n * 2 ^ k : Int)) : ℚ)| < 1 := by
    have : |(((r - n * 2 ^ k : Int)) : ℚ)| ≤ 1 / 2 := by
      refine le_of_mul_le_mul_right (near.trans_eq ?_) pos
      ring
    linarith
  have equal : r = n * 2 ^ k := by
    rw [← Int.cast_abs] at less
    have : |r - n * 2 ^ k| < 1 := by exact_mod_cast less
    exact sub_eq_zero.1 (Int.abs_lt_one_iff.1 this)
  rw [hr, equal, ← grid]

/-- **A rounding error is small**, beside the number or beside one. -/
theorem Nearest.abs_sub_le {u : UnpackedFloat} {x : ℚ} (h : Nearest u x) :
    |value u - x| ≤ (|x| + 1) / 2 ^ 53 := by
  obtain ⟨-, -, e, r, exponent, -, near⟩ := h
  refine near.trans ?_
  rcases exponent.le with rfl | le
  · calc (2 : ℚ) ^ (-1074 : Int) / 2 ≤ 2 ^ (-52 : Int) / 2 :=
          div_le_div_of_nonneg_right (zpow_le_zpow_right₀ one_le_two (by omega)) zero_le_two
      _ = 1 / 2 ^ 53 := by norm_num
      _ ≤ (|x| + 1) / 2 ^ 53 := by
        refine div_le_div_of_nonneg_right ?_ (by positivity)
        linarith [abs_nonneg x]
  · calc (2 : ℚ) ^ e / 2 = 2 ^ (e + 52) / 2 ^ 53 := by
          rw [zpow_add₀ two_ne_zero]
          norm_num
          ring
      _ ≤ (|x| + 1) / 2 ^ 53 := by
        refine div_le_div_of_nonneg_right ?_ (by positivity)
        linarith

end ClimateLink.Decimal
