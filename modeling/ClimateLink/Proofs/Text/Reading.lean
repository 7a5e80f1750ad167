import ClimateLink.Text.Utf8
import Mathlib.Algebra.Group.Nat.Defs

/-!
# Texts that were read

Which texts come out of reading, and for which bytes nothing is replaced.

**Theorem (`ne_zero_of_mem_ofUtf8`).** Bytes that are not zero are read as characters that are not
zero: neither the bits of a longer form nor a number that is no character make one. While bytes of a
character are owed, `Partial.Leads` says where the numbers lie that it can still become.

**Theorem (`utf8_ofUtf8`).** Bytes that are a text are written again as they were read.
-/

namespace ClimateLink.Text

/-! ## Bytes that are a text -/

/-- The bytes are those of some text. -/
def Valid (bs : Bytes) : Prop := ∃ s, utf8 s = bs

theorem utf8_ofUtf8 {bs : Bytes} (h : Valid bs) : utf8 (ofUtf8 bs) = bs := by
  obtain ⟨s, rfl⟩ := h
  rw [ofUtf8_utf8]

/-! ## The zero character -/

/-- The bytes within the bounds lead to characters other than zero: the least number that the
character can become is not zero, and from it to the greatest all are characters. -/
structure Partial.Leads (p : Partial) : Prop where
  bounds : 0x80 ≤ p.low.toNat ∧ p.high.toNat ≤ 0xBF
  positive : 0 < p.value * 64 + p.low.toNat % 64
  scalar : (p.value * 64 + p.high.toNat % 64 + 1) * 64 ^ (p.owed - 1) ≤ 0xD800 ∨
    0xE000 ≤ (p.value * 64 + p.low.toNat % 64) * 64 ^ (p.owed - 1) ∧
      (p.value * 64 + p.high.toNat % 64 + 1) * 64 ^ (p.owed - 1) ≤ 0x110000

theorem leads_of_opening {b : UInt8} {p : Partial} (h : opening b = .start p) : p.Leads := by
  unfold opening at h
  simp only at h
  split at h
  · cases h
  split at h
  · cases h
  repeat' split at h
  all_goals cases h
  all_goals refine ⟨⟨by simp, by simp⟩, ?_, ?_⟩
  all_goals simp only [UInt8.reduceToNat, Nat.reduceMod, Nat.reduceSub, Nat.reducePow]
  all_goals omega

theorem ofNat_ne_zero {n : Nat} (positive : 0 < n) (valid : n.isValidChar) :
    Char.ofNat n ≠ '\x00' := by
  intro zero
  have same : (Char.ofNat n).toNat = n := by
    rw [Char.ofNat, dif_pos valid]
    rfl
  rw [zero] at same
  exact Nat.ne_of_lt positive same

section Within

variable {p : Partial} {b : UInt8}

/-- The last byte of a character makes one other than zero. -/
theorem Partial.Leads.ofNat_ne_zero (h : p.Leads) (within : p.low ≤ b ∧ b ≤ p.high)
    (last : p.owed ≤ 1) : Char.ofNat (p.value * 64 + b.toNat % 64) ≠ '\x00' := by
  obtain ⟨⟨low, high⟩, positive, scalar⟩ := h
  have above := UInt8.le_iff_toNat_le.1 within.1
  have below := UInt8.le_iff_toNat_le.1 within.2
  rw [show p.owed - 1 = 0 by omega, Nat.pow_zero, Nat.mul_one, Nat.mul_one] at scalar
  refine Text.ofNat_ne_zero (by omega) ?_
  unfold Nat.isValidChar
  omega

/-- A byte that is not the last leads on. -/
theorem Partial.Leads.next (h : p.Leads) (within : p.low ≤ b ∧ b ≤ p.high)
    (more : ¬p.owed ≤ 1) :
    (⟨p.owed - 1, 0x80, 0xBF, p.value * 64 + b.toNat % 64⟩ : Partial).Leads := by
  obtain ⟨⟨low, high⟩, positive, scalar⟩ := h
  have above := UInt8.le_iff_toNat_le.1 within.1
  have below := UInt8.le_iff_toNat_le.1 within.2
  obtain ⟨k, owed⟩ : ∃ k, p.owed = k + 2 := ⟨p.owed - 2, by omega⟩
  have least : (p.value * 64 + p.low.toNat % 64) * 64 ^ (k + 1) ≤
      (p.value * 64 + b.toNat % 64) * 64 ^ (k + 1) := Nat.mul_le_mul_right _ (by omega)
  have greatest : (p.value * 64 + b.toNat % 64 + 1) * 64 ^ (k + 1) ≤
      (p.value * 64 + p.high.toNat % 64 + 1) * 64 ^ (k + 1) := Nat.mul_le_mul_right _ (by omega)
  rw [owed, show k + 2 - 1 = k + 1 by omega] at scalar
  rw [owed]
  refine ⟨⟨by simp, by simp⟩, ?_, ?_⟩
  · simp only [UInt8.reduceToNat, Nat.reduceMod]
    omega
  · simp only [UInt8.reduceToNat, Nat.reduceMod, show k + 2 - 1 - 1 = k by omega]
    rw [Nat.pow_succ] at least greatest scalar
    generalize 64 ^ k = w at *
    have unfold_least : ((p.value * 64 + b.toNat % 64) * 64 + 0) * w =
        (p.value * 64 + b.toNat % 64) * (w * 64) := by
      rw [Nat.add_zero, Nat.mul_assoc, Nat.mul_comm 64 w]
    have unfold_greatest : ((p.value * 64 + b.toNat % 64) * 64 + 63 + 1) * w =
        (p.value * 64 + b.toNat % 64 + 1) * (w * 64) := by
      rw [show (p.value * 64 + b.toNat % 64) * 64 + 63 + 1 = (p.value * 64 + b.toNat % 64 + 1) * 64
        by omega, Nat.mul_assoc, Nat.mul_comm 64 w]
    rw [unfold_least, unfold_greatest]
    omega

end Within

theorem ne_zero_of_opening {b : UInt8} (nonzero : b ≠ 0) {c : Char} (h : opening b = .whole c) :
    c ≠ '\x00' := by
  have positive : 0 < b.toNat := Nat.pos_of_ne_zero fun zero => nonzero (UInt8.toNat_inj.1 zero)
  unfold opening at h
  simp only at h
  split at h
  · cases h
    exact ofNat_ne_zero positive (.inl (by omega))
  repeat' split at h
  all_goals cases h

/-- Between characters, a byte other than zero is a character other than zero, or leads to one, or
is replaced. -/
theorem ne_zero_of_mem_openingWith {b : UInt8} (nonzero : b ≠ 0)
    {reading : Option Partial → List Char} (whole : ∀ c ∈ reading none, c ≠ '\x00')
    (started : ∀ p : Partial, p.Leads → ∀ c ∈ reading (some p), c ≠ '\x00') :
    ∀ c ∈ openingWith reading b, c ≠ '\x00' := by
  intro c among
  unfold openingWith at among
  cases opened : opening b with
  | whole first =>
    simp only [opened] at among
    rcases List.mem_cons.1 among with rfl | among
    · exact ne_zero_of_opening nonzero opened
    · exact whole c among
  | start p =>
    simp only [opened] at among
    exact started p (leads_of_opening opened) c among
  | none =>
    simp only [opened] at among
    rcases List.mem_cons.1 among with rfl | among
    · decide
    · exact whole c among

/-- The characters of bytes that are not zero, whatever character they are inside. -/
theorem ne_zero_of_mem_chars {bs : Bytes} (nonzero : ∀ b ∈ bs, b ≠ 0) {inside : Option Partial}
    (leads : ∀ p ∈ inside, p.Leads) : ∀ c ∈ chars inside bs, c ≠ '\x00' := by
  induction bs generalizing inside with
  | nil =>
    cases inside with
    | none => exact fun c among => absurd among List.not_mem_nil
    | some p =>
      intro c among
      rw [List.mem_singleton.1 among]
      decide
  | cons b rest ih =>
    have rest_nonzero : ∀ c ∈ rest, c ≠ 0 := fun c among => nonzero c (List.mem_cons_of_mem b among)
    have whole : ∀ c ∈ chars none rest, c ≠ '\x00' := ih rest_nonzero (fun p none => by cases none)
    have started (p : Partial) (leads : p.Leads) : ∀ c ∈ chars (some p) rest, c ≠ '\x00' :=
      ih rest_nonzero fun q same => Option.some.inj same ▸ leads
    have opened : ∀ c ∈ openingWith (fun p => chars p rest) b, c ≠ '\x00' :=
      ne_zero_of_mem_openingWith (nonzero b List.mem_cons_self) whole started
    cases inside with
    | none => exact opened
    | some p =>
      have leads : p.Leads := leads p rfl
      intro c among
      by_cases within : p.low ≤ b ∧ b ≤ p.high
      · rw [chars_within p b rest within] at among
        by_cases last : p.owed ≤ 1
        · rw [if_pos last] at among
          rcases List.mem_cons.1 among with rfl | among
          · exact leads.ofNat_ne_zero within last
          · exact whole c among
        · rw [if_neg last] at among
          exact started _ (leads.next within last) c among
      · rw [chars, if_neg within] at among
        rcases List.mem_cons.1 among with rfl | among
        · decide
        · exact opened c among

/-- **Bytes that are not zero are read as characters that are not zero**. -/
theorem ne_zero_of_mem_ofUtf8 {bs : Bytes} (nonzero : ∀ b ∈ bs, b ≠ 0) :
    ∀ c ∈ (ofUtf8 bs).toList, c ≠ '\x00' := by
  rw [ofUtf8, String.toList_ofList]
  exact ne_zero_of_mem_chars nonzero fun p none => by cases none

end ClimateLink.Text
