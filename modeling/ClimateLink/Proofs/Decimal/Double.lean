import ClimateLink.Proofs.Decimal.Rounding

/-!
# Arithmetic of doubles

The operations on doubles as roundings of the operations on the numbers that the doubles stand
for.

**Reading (`Reads`).** A double is finite and stands for a number.

**Theorems (`reads_ofInt`, `Reads.sub_int`, `Reads.div`).** Integers and their differences are
exact; quotients are off by a rounding error.

**Theorem (`Reads.le_iff`).** Doubles are ordered as the numbers that they stand for.
-/

namespace ClimateLink.Decimal

open Float.Model Float.Model.UnpackedFloat

/-! ## Operations before packing -/

theorem nearest_round (sign : Sign) {m : Nat} (hm : m ≠ 0) (e : Int) :
    Nearest (round Format.binary64 sign m e) (signed sign m e) := by
  obtain ⟨n, hn⟩ : ∃ n : Nat, (e - exponentOf m e).toNat = n := ⟨_, rfl⟩
  have log : (m <<< n).log2 = m.log2 + n := by
    rw [Nat.log2_eq_iff (by rw [Nat.shiftLeft_eq]; positivity), Nat.shiftLeft_eq]
    have low := Nat.log2_self_le hm
    have high := @Nat.lt_log2_self m
    constructor
    · rw [pow_add]
      exact Nat.mul_le_mul_right _ low
    · rw [show m.log2 + n + 1 = m.log2 + 1 + n by omega, pow_add]
      exact Nat.mul_lt_mul_of_pos_right high (by positivity)
  have same : ((m <<< n : Nat) : ℚ) * 2 ^ (e - n) = m * 2 ^ e := by
    rw [Nat.shiftLeft_eq, zpow_sub₀ two_ne_zero, zpow_natCast]
    push_cast
    field_simp
  have scale : (0 : ℚ) < 2 ^ (e - n) := by positivity
  rw [UnpackedFloat.round, targetExponent_eq, decreaseExponent, hn, signed_eq, ← same]
  refine nearest_roundWithAccuracy sign (.inl ?_) ?_ ?_
  · rw [Nat.shiftLeft_eq]
    positivity
  · rw [mul_div_cancel_right₀ _ scale.ne']
    exact tells_exact _
  · unfold exponentOf at hn ⊢
    omega

theorem nearest_normalize (n e : Int) :
    Nearest (normalize Format.binary64 n e .positive) (n * 2 ^ e) := by
  rw [UnpackedFloat.normalize]
  rcases lt_trichotomy n 0 with negative | rfl | positive
  · rw [compare_lt_iff_lt.2 negative]
    have : signed .negative (-n).toNat e = n * 2 ^ e := by
      have : (((-n).toNat : Int)) = -n := Int.toNat_of_nonneg (by omega)
      rw [signed, Sign.apply, this, neg_neg]
    exact this ▸ nearest_round .negative (by omega) e
  · rw [compare_eq_iff_eq.2 rfl, Int.cast_zero, zero_mul]
    exact nearest_zero _
  · rw [compare_gt_iff_gt.2 positive]
    have : signed .positive n.toNat e = n * 2 ^ e := by
      rw [signed, Sign.apply, Int.toNat_of_nonneg positive.le]
    exact this ▸ nearest_round .positive (by omega) e

theorem nearest_ofInt (n : Int) : Nearest (ofInt Format.binary64 n) n := by
  have := nearest_normalize n 0
  rwa [zpow_zero, mul_one] at this

theorem signed_neg (sign : Sign) (m : Nat) (e : Int) :
    signed (-sign) m e = -signed sign m e := by
  rw [signed, signed, ← neg_mul, ← Int.cast_neg]
  cases sign
  · exact congrArg (fun n : Int => (n : ℚ) * 2 ^ e) (neg_neg (m : Int)).symm
  · rfl

theorem signed_div (s₁ s₂ : Sign) (m₁ m₂ : Nat) (e₁ e₂ : Int) :
    signed s₁ m₁ e₁ / signed s₂ m₂ e₂ = (s₁ / s₂).apply 1 * (m₁ * 2 ^ e₁ / (m₂ * 2 ^ e₂)) := by
  have signs : ((s₁ / s₂).apply 1 : ℚ) = s₁.apply 1 / s₂.apply 1 := by
    cases s₁ <;> cases s₂
    · show ((1 : Int) : ℚ) = (-1 : Int) / (-1 : Int)
      norm_num
    · show ((-1 : Int) : ℚ) = (-1 : Int) / (1 : Int)
      norm_num
    · show ((-1 : Int) : ℚ) = (1 : Int) / (-1 : Int)
      norm_num
    · show ((1 : Int) : ℚ) = (1 : Int) / (1 : Int)
      norm_num
  rw [signed_eq, signed_eq, signs, div_mul_div_comm]

theorem signed_decreaseExponent (sign : Sign) (m : Nat) {e low : Int} (h : low ≤ e) :
    (sign.apply ((decreaseExponent m e low).1 : Int) : ℚ) * 2 ^ low = signed sign m e := by
  obtain ⟨n, rfl⟩ : ∃ n : Nat, e = low + n := ⟨(e - low).toNat, by omega⟩
  have : (low + n - low : Int).toNat = n := by omega
  rw [decreaseExponent, this, Nat.shiftLeft_eq, signed, zpow_add₀ two_ne_zero, zpow_natCast]
  cases sign <;> simp only [Sign.apply] <;> push_cast <;> ring

theorem nearest_sub {u v : UnpackedFloat} (hu : u.isFinite) (hv : v.isFinite) (cu : Canonical u)
    (cv : Canonical v) : Nearest (UnpackedFloat.sub Format.binary64 u v) (value u - value v) := by
  cases u with
  | infinity | notANumber => cases hu
  | zero s₁ =>
    cases v with
    | infinity | notANumber => cases hv
    | zero s₂ =>
      rw [UnpackedFloat.sub, value_zero, value_zero, sub_zero]
      split <;> exact nearest_zero _
    | finite s₂ m₂ e₂ h₂ =>
      have : value (.zero s₁) - value (.finite s₂ m₂ e₂ h₂) = value (.finite (-s₂) m₂ e₂ h₂) := by
        rw [value_zero, zero_sub, value, value, signed_neg]
      rw [UnpackedFloat.sub, this]
      exact nearest_value rfl cv
  | finite s₁ m₁ e₁ h₁ =>
    cases v with
    | infinity | notANumber => cases hv
    | zero s₂ =>
      rw [value_zero, sub_zero]
      exact nearest_value rfl cu
    | finite s₂ m₂ e₂ h₂ =>
      -- Both mantissas are shifted to the smaller exponent, where the difference is exact.
      have := nearest_normalize (s₁.apply ((decreaseExponent m₁ e₁ (min e₁ e₂)).1 : Int) -
        s₂.apply ((decreaseExponent m₂ e₂ (min e₁ e₂)).1 : Int)) (min e₁ e₂)
      rwa [Int.cast_sub, sub_mul, signed_decreaseExponent _ _ (min_le_left _ _),
        signed_decreaseExponent _ _ (min_le_right _ _)] at this

/-- The whole part of a quotient has 53 bits, or its exponent is as low as exponents go. -/
theorem divCore_bounds {m₁ m₂ : Nat} {e₁ e₂ : Int} (h₁ : m₁ ≠ 0) (h₂ : m₂ ≠ 0)
    {m : Nat} {e : Int} {accuracy : Accuracy}
    (h : divCore Format.binary64 m₁ e₁ m₂ e₂ = (m, e, accuracy)) : 2 ^ 52 ≤ m ∨ e ≤ -1074 := by
  have target : Format.binary64.targetExponent (totalExponent m₁ e₁ - totalExponent m₂ e₂) =
      max (m₁.log2 + e₁ - (m₂.log2 + e₂) - 53) (-1074) := by
    show max ((m₁.log2 + 1 + e₁ : Int) - (m₂.log2 + 1 + e₂) - 53) (-1074) = _
    congr 1
    omega
  rw [divCore, target] at h
  obtain ⟨rfl, rfl, rfl⟩ := h
  by_cases least : (m₁.log2 + e₁ - (m₂.log2 + e₂) - 53 : Int) ≤ -1074
  · right
    omega
  · left
    generalize hn : (e₁ - e₂ - min (e₁ - e₂)
      (max (m₁.log2 + e₁ - (m₂.log2 + e₂) - 53) (-1074))).toNat = n
    -- The dividend is shifted until it has 53 bits more than the divisor.
    have enough : m₂.log2 + 53 ≤ m₁.log2 + n := by omega
    rw [Nat.shiftLeft_eq, Nat.le_div_iff_mul_le (Nat.pos_of_ne_zero h₂)]
    calc 2 ^ 52 * m₂ ≤ 2 ^ 52 * 2 ^ (m₂.log2 + 1) := Nat.mul_le_mul_left _ Nat.lt_log2_self.le
      _ = 2 ^ (m₂.log2 + 53) := by rw [← pow_add]; congr 1; omega
      _ ≤ 2 ^ (m₁.log2 + n) := Nat.pow_le_pow_right two_pos enough
      _ = 2 ^ m₁.log2 * 2 ^ n := pow_add _ _ _
      _ ≤ m₁ * 2 ^ n := Nat.mul_le_mul_right _ (Nat.log2_self_le h₁)

/-- What the whole part of a quotient and the remainder tell. -/
theorem tells_divCore {m₁ m₂ : Nat} {e₁ e₂ : Int} (h₂ : 0 < m₂) {m : Nat} {e : Int}
    {accuracy : Accuracy} (h : divCore Format.binary64 m₁ e₁ m₂ e₂ = (m, e, accuracy)) :
    Tells (.ofMantissaAndAccuracy m accuracy) (m₁ * 2 ^ e₁ / (m₂ * 2 ^ e₂) / 2 ^ e : ℚ) := by
  rw [divCore] at h
  generalize hlow : min (e₁ - e₂)
    (Format.binary64.targetExponent (totalExponent m₁ e₁ - totalExponent m₂ e₂)) = low at h
  obtain ⟨n, hn⟩ : ∃ n : Nat, e₁ - e₂ - low = n := ⟨(e₁ - e₂ - low).toNat, by omega⟩
  have positive : (m₂ : ℚ) ≠ 0 := Nat.cast_ne_zero.2 h₂.ne'
  have same : (m₁ * 2 ^ e₁ / (m₂ * 2 ^ e₂) / 2 ^ low : ℚ) = (m₁ <<< n : Nat) / m₂ := by
    have : e₁ = e₂ + low + n := by omega
    rw [this, zpow_add₀ two_ne_zero, zpow_add₀ two_ne_zero, zpow_natCast, Nat.shiftLeft_eq]
    push_cast
    field_simp
  rw [hn] at h
  obtain ⟨rfl, rfl, rfl⟩ := h
  rw [same]
  exact tells_quotient _ h₂

theorem nearest_div {u v : UnpackedFloat} (hu : u.isFinite) (hv : v.isFinite)
    (nonzero : value v ≠ 0) :
    Nearest (UnpackedFloat.div Format.binary64 u v) (value u / value v) := by
  cases v with
  | infinity | notANumber => cases hv
  | zero => exact absurd rfl nonzero
  | finite s₂ m₂ e₂ h₂ =>
    cases u with
    | infinity | notANumber => cases hu
    | zero s₁ =>
      rw [value_zero, zero_div]
      exact nearest_zero _
    | finite s₁ m₁ e₁ h₁ =>
      obtain ⟨⟨m, e, accuracy⟩, core⟩ : ∃ p, divCore Format.binary64 m₁ e₁ m₂ e₂ = p := ⟨_, rfl⟩
      have bounds := divCore_bounds h₁.ne' h₂.ne' core
      rw [value, value, signed_div, UnpackedFloat.div, core]
      refine nearest_roundWithAccuracy _ (bounds.imp_left fun large => ?_)
        (tells_divCore h₂ core) ?_
      · exact (Nat.lt_of_lt_of_le (by norm_num) large).ne'
      · unfold exponentOf
        rcases bounds with large | low
        · have : 52 ≤ m.log2 := (Nat.le_log2 (Nat.lt_of_lt_of_le (by norm_num) large).ne').2 large
          omega
        · omega

/-! ## Order -/

theorem mul_zpow_lt {m₁ m₂ : Nat} {e₁ e₂ : Int} (high : m₁ < 2 ^ 53) (least : -1074 ≤ e₁)
    (low : e₂ = -1074 ∨ 2 ^ 52 ≤ m₂) (h : e₁ < e₂) : (m₁ * 2 ^ e₁ : ℚ) < m₂ * 2 ^ e₂ := by
  have large : 2 ^ 52 ≤ m₂ := low.resolve_left (by omega)
  calc (m₁ * 2 ^ e₁ : ℚ) < 2 ^ 53 * 2 ^ e₁ :=
        mul_lt_mul_of_pos_right (by exact_mod_cast high) (by positivity)
    _ = 2 ^ 52 * 2 ^ (e₁ + 1) := by
        rw [zpow_add_one₀ two_ne_zero]
        ring
    _ ≤ m₂ * 2 ^ e₂ := mul_le_mul (by exact_mod_cast large)
        (zpow_le_zpow_right₀ one_le_two (by omega)) (by positivity) (by positivity)

/-- Exponents first and mantissas then: this is how canonical magnitudes are compared. -/
theorem compare_then {m₁ m₂ : Nat} {e₁ e₂ : Int}
    (c₁ : m₁ < 2 ^ 53 ∧ -1074 ≤ e₁ ∧ (e₁ = -1074 ∨ 2 ^ 52 ≤ m₁))
    (c₂ : m₂ < 2 ^ 53 ∧ -1074 ≤ e₂ ∧ (e₂ = -1074 ∨ 2 ^ 52 ≤ m₂)) :
    (compare e₁ e₂).then (compare m₁ m₂) = compare (m₁ * 2 ^ e₁ : ℚ) (m₂ * 2 ^ e₂) := by
  rcases lt_trichotomy e₁ e₂ with h | rfl | h
  · rw [compare_lt_iff_lt.2 h, compare_lt_iff_lt.2 (mul_zpow_lt c₁.1 c₁.2.1 c₂.2.2 h)]
    rfl
  · rw [compare_eq_iff_eq.2 rfl]
    have pos : (0 : ℚ) < 2 ^ e₁ := by positivity
    rcases lt_trichotomy m₁ m₂ with h | rfl | h
    · rw [compare_lt_iff_lt.2 h,
        compare_lt_iff_lt.2 (mul_lt_mul_of_pos_right (Nat.cast_lt.2 h) pos)]
      rfl
    · rw [compare_eq_iff_eq.2 rfl, compare_eq_iff_eq.2 rfl]
      rfl
    · rw [compare_gt_iff_gt.2 h,
        compare_gt_iff_gt.2 (mul_lt_mul_of_pos_right (Nat.cast_lt.2 h) pos)]
      rfl
  · rw [compare_gt_iff_gt.2 h, compare_gt_iff_gt.2 (mul_zpow_lt c₂.1 c₂.2.1 c₁.2.2 h)]
    rfl

theorem swap_compare (a b : ℚ) : (compare a b).swap = compare (-a) (-b) := by
  rcases lt_trichotomy a b with h | rfl | h
  · rw [compare_lt_iff_lt.2 h, compare_gt_iff_gt.2 (neg_lt_neg h)]
    rfl
  · rw [compare_eq_iff_eq.2 rfl, compare_eq_iff_eq.2 rfl]
    rfl
  · rw [compare_gt_iff_gt.2 h, compare_lt_iff_lt.2 (neg_lt_neg h)]
    rfl

theorem signed_positive (m : Nat) (e : Int) : signed .positive m e = m * 2 ^ e := rfl

theorem signed_negative (m : Nat) (e : Int) : signed .negative m e = -(m * 2 ^ e) :=
  signed_neg .positive m e

theorem compare_eq {u v : UnpackedFloat} (hu : u.isFinite) (hv : v.isFinite) (cu : Canonical u)
    (cv : Canonical v) : u.compare v = some (compare (value u) (value v)) := by
  have pos {m : Nat} (hm : 0 < m) (e : Int) : (0 : ℚ) < m * 2 ^ e :=
    mul_pos (Nat.cast_pos.2 hm) (by positivity)
  cases u with
  | infinity | notANumber => cases hu
  | zero s₁ =>
    cases v with
    | infinity | notANumber => cases hv
    | zero s₂ => exact congrArg some (compare_eq_iff_eq.2 rfl).symm
    | finite s₂ m₂ e₂ h₂ =>
      cases s₂ with
      | negative =>
        refine congrArg some (compare_gt_iff_gt.2 ?_).symm
        rw [value_zero, value, signed_negative]
        exact neg_lt_zero.2 (pos h₂ e₂)
      | positive => exact congrArg some (compare_lt_iff_lt.2 (pos h₂ e₂)).symm
  | finite s₁ m₁ e₁ h₁ =>
    cases v with
    | infinity | notANumber => cases hv
    | zero s₂ =>
      cases s₁ with
      | negative =>
        refine congrArg some (compare_lt_iff_lt.2 ?_).symm
        rw [value_zero, value, signed_negative]
        exact neg_lt_zero.2 (pos h₁ e₁)
      | positive => exact congrArg some (compare_gt_iff_gt.2 (pos h₁ e₁)).symm
    | finite s₂ m₂ e₂ h₂ =>
      cases s₁ with
      | negative =>
        cases s₂ with
        | negative =>
          refine congrArg some ?_
          rw [value, value, signed_negative, signed_negative, compare_then cu cv]
          exact swap_compare _ _
        | positive =>
          refine congrArg some (compare_lt_iff_lt.2 ?_).symm
          rw [value, value, signed_negative, signed_positive]
          exact (neg_lt_zero.2 (pos h₁ e₁)).trans (pos h₂ e₂)
      | positive =>
        cases s₂ with
        | negative =>
          refine congrArg some (compare_gt_iff_gt.2 ?_).symm
          rw [value, value, signed_negative, signed_positive]
          exact (neg_lt_zero.2 (pos h₂ e₂)).trans (pos h₁ e₁)
        | positive => exact congrArg some (compare_then cu cv)

/-! ## Packing -/

theorem toNat_leading (m : BitVec 52) : (1#1 ++ m).toNat = 2 ^ 52 + m.toNat := by
  rw [BitVec.toNat_append, ← Nat.shiftLeft_add_eq_or_of_lt m.isLt]
  rfl

theorem leading_pos (m : BitVec 52) : 0 < (1#1 ++ m).toNat := by
  rw [toNat_leading]
  positivity

theorem unpack_packComponents (sign : Sign) (exponent : BitVec 11) (mantissa : BitVec 52) :
    UnpackedFloat.unpack Format.binary64 (packComponents Format.binary64 sign exponent mantissa) =
      if exponent = -1#11 then if mantissa = 0#52 then .infinity sign else .notANumber
      else if exponent = 0#11 then
        if h : mantissa = 0#52 then .zero sign
        else .finite sign mantissa.toNat ((exponent.toNat : Int) - 1075 + 1)
          (Nat.pos_of_ne_zero fun zero => h (BitVec.eq_of_toNat_eq zero))
      else .finite sign (1#1 ++ mantissa).toNat ((exponent.toNat : Int) - 1075)
        (leading_pos mantissa) := by
  rw [UnpackedFloat.unpack]
  simp only [unpackMantissa_packComponents, unpackExponent_packComponents,
    unpackSign_packComponents, Sign.ofBitVec_toBitVec]
  rfl

/-- **Packing loses nothing** of a canonical double that does not overflow. -/
theorem unpack_pack {u : UnpackedFloat} (finite : u.isFinite) (canonical : Canonical u)
    (small : |value u| < 2 ^ 1024) : (Float.Model.pack u).unpack = u := by
  show UnpackedFloat.unpack Format.binary64 (UnpackedFloat.pack Format.binary64 u) = u
  cases u with
  | infinity | notANumber => cases finite
  | zero sign => exact unpack_packComponents sign 0#11 0#52
  | finite sign m e hm =>
    obtain ⟨high, least, low⟩ := canonical
    -- An exponent above this would make the number too large for a double.
    have upper : e ≤ 971 := by
      by_contra above
      have large : 2 ^ 52 ≤ m := low.resolve_left (by omega)
      have : (2 : ℚ) ^ (1024 : Int) ≤ |value (.finite sign m e hm)| := by
        rw [value, abs_signed]
        calc (2 : ℚ) ^ (1024 : Int) = 2 ^ 52 * 2 ^ (972 : Int) := by
              rw [← zpow_natCast, ← zpow_add₀ two_ne_zero]
              rfl
          _ ≤ m * 2 ^ e := mul_le_mul (by exact_mod_cast large)
            (zpow_le_zpow_right₀ one_le_two (by omega)) (by positivity) (by positivity)
      exact absurd small (not_lt.2 this)
    have notOver : ¬2 ^ 11 ≤ (e + 1023 + 52).toNat + 1 := by omega
    have pack_eq : UnpackedFloat.pack Format.binary64 (.finite sign m e hm) =
        if m.log2 + 1 = 53 then packComponents Format.binary64 sign
          (BitVec.ofNat 11 (e + 1023 + 52).toNat) (BitVec.ofNat 52 m)
        else packComponents Format.binary64 sign 0#11 (BitVec.ofNat 52 m) :=
      if_neg notOver
    rw [pack_eq]
    -- With 53 bits the first is left out, and without it the exponent is the least.
    by_cases normal : m.log2 + 1 = 53
    · have large : 2 ^ 52 ≤ m := (Nat.le_log2 hm.ne').1 (by omega)
      have exponent : (BitVec.ofNat 11 (e + 1023 + 52).toNat).toNat = (e + 1075).toNat := by
        rw [BitVec.toNat_ofNat]
        omega
      have mantissa : (1#1 ++ BitVec.ofNat 52 m).toNat = m := by
        rw [toNat_leading, BitVec.toNat_ofNat]
        omega
      have notOnes : BitVec.ofNat 11 (e + 1023 + 52).toNat ≠ -1#11 := by
        intro same
        have : (e + 1075).toNat = 2047 := by rw [← exponent, same]; rfl
        omega
      have notZero : BitVec.ofNat 11 (e + 1023 + 52).toNat ≠ 0#11 := by
        intro same
        have : (e + 1075).toNat = 0 := by rw [← exponent, same]; rfl
        omega
      rw [if_pos normal, unpack_packComponents, if_neg notOnes, if_neg notZero]
      simp only [mantissa, exponent, UnpackedFloat.finite.injEq, true_and]
      omega
    · have below : m < 2 ^ 52 := by
        by_contra large
        have := (Nat.le_log2 hm.ne').2 (not_lt.1 large)
        have := (Nat.log2_lt hm.ne').2 high
        omega
      have mantissa : (BitVec.ofNat 52 m).toNat = m := by
        rw [BitVec.toNat_ofNat, Nat.mod_eq_of_lt below]
      have notZero : BitVec.ofNat 52 m ≠ 0#52 := by
        intro same
        have : m = 0 := by rw [← mantissa, same]; rfl
        omega
      have lowest : e = -1074 := low.resolve_right (by omega)
      rw [if_neg normal, unpack_packComponents, if_neg (by decide), if_pos rfl, dif_neg notZero]
      simp only [mantissa, UnpackedFloat.finite.injEq, true_and]
      exact lowest.symm

/-! ## Doubles -/

/-- The double `x` is finite and stands for `v`. -/
structure Reads (x : Float) (v : ℚ) : Prop where
  finite : x.toModel.unpack.isFinite
  canonical : Canonical x.toModel.unpack
  value_eq : value x.toModel.unpack = v

/-- A double that is nearest to a number reads as itself after packing. -/
theorem Nearest.reads {u : UnpackedFloat} {x : ℚ} (h : Nearest u x) (small : |x| < 2 ^ 100) :
    Reads (.ofModel (.pack u)) (value u) := by
  have bound : |value u| < 2 ^ 1024 := by
    have := abs_sub_abs_le_abs_sub (value u) x
    have := h.abs_sub_le
    have : (|x| + 1) / 2 ^ 53 ≤ |x| + 1 := div_le_self (by positivity) (by norm_num)
    refine lt_trans (b := (2 : ℚ) ^ 102) ?_ (pow_lt_pow_right₀ one_lt_two (by norm_num))
    linarith
  have unpacked := unpack_pack h.finite h.canonical bound
  refine ⟨?_, ?_, ?_⟩
  · exact unpacked.symm ▸ h.finite
  · exact unpacked.symm ▸ h.canonical
  · exact congrArg value unpacked

theorem Nearest.reads_int {u : UnpackedFloat} {n : Int} (h : Nearest u n)
    (small : n.natAbs < 2 ^ 53) : Reads (.ofModel (.pack u)) n := by
  have size : |(n : ℚ)| < 2 ^ 100 := by
    rw [← Int.cast_abs, Int.abs_eq_natAbs]
    exact lt_trans (b := (2 : ℚ) ^ 53) (by exact_mod_cast small) (by norm_num)
  have := h.reads size
  rwa [h.value_eq_intCast small] at this

theorem reads_ofInt {n : Int} (small : n.natAbs < 2 ^ 53) : Reads (.ofModel (.ofInt n)) n :=
  (nearest_ofInt n).reads_int small

/-- **A difference of integers is exact**. -/
theorem Reads.sub_int {x y : Float} {m n : Int} (hx : Reads x m) (hy : Reads y n)
    (small : (m - n).natAbs < 2 ^ 53) : Reads (x - y) (m - n : Int) := by
  have near := nearest_sub hx.finite hy.finite hx.canonical hy.canonical
  rw [hx.value_eq, hy.value_eq, ← Int.cast_sub] at near
  exact near.reads_int small

/-- **A quotient is off by a rounding error**. -/
theorem Reads.div {x y : Float} {a b : ℚ} (hx : Reads x a) (hy : Reads y b) (nonzero : b ≠ 0)
    (small : |a / b| < 2 ^ 100) :
    ∃ v, Reads (x / y) v ∧ |v - a / b| ≤ (|a / b| + 1) / 2 ^ 53 := by
  have near := nearest_div hx.finite hy.finite (hy.value_eq ▸ nonzero)
  rw [hx.value_eq, hy.value_eq] at near
  exact ⟨_, near.reads small, near.abs_sub_le⟩

theorem Reads.le_iff {x y : Float} {a b : ℚ} (hx : Reads x a) (hy : Reads y b) :
    x ≤ y ↔ a ≤ b := by
  have compared := compare_eq hx.finite hy.finite hx.canonical hy.canonical
  rw [hx.value_eq, hy.value_eq] at compared
  have unfolded : x ≤ y ↔ (x.toModel.unpack.compare y.toModel.unpack).any (·.isLE) = true :=
    decide_eq_true_iff
  rw [unfolded, compared]
  exact Ordering.isLE_iff_ne_gt.trans compare_le_iff_le

end ClimateLink.Decimal
