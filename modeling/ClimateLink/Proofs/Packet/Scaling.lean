import ClimateLink.Proofs.Attempt
import ClimateLink.Proofs.Decimal.Nearest
import ClimateLink.Proofs.Packet.Temperature

/-!
# Scaling there and back

A number on the wire is scaled when it is read and scaled back when it is written again. Both are
off by rounding errors, and still the number that is written is the one that was read.

**Theorems (`percentageRaw_percentage`, `setpointRaw_setpoint`, `temperatureRaw_temperature`,
`wholeRaw_toFloat`).** A number that was read is written as the same number, if it is within the
limit of what is written.
-/

namespace ClimateLink.Scale

open Decimal

/-! ## Numbers that are nearly whole -/

section Whole

variable {field : Field} {limit raw : Nat} {x : Float}

theorem toRaw_of_le (h : nearest? x = some (raw : Int)) (within : raw ≤ limit) :
    toRaw field limit x = .ok raw := by
  have bounds : 0 ≤ (raw : Int) ∧ (raw : Int) ≤ limit := by omega
  simp only [toRaw, h]
  rw [if_pos bounds, Int.toNat_natCast]

theorem toRaw_of_lt (h : nearest? x = some (raw : Int)) (beyond : limit < raw) :
    ∃ fault, toRaw field limit x = .error fault := by
  simp only [toRaw, h]
  rw [if_neg (by omega)]
  exact ⟨_, rfl⟩

end Whole

theorem reads_byte (raw : UInt8) : Reads raw.toFloat (raw.toNat : Int) := by
  have small := raw.toNat_lt
  exact reads_ofInt (by omega)

/-! ## Scalings -/

theorem nearest?_percentage (raw : UInt8) :
    nearest? (percentage raw * 100.0) = some (raw.toNat : Int) := by
  have scale : Reads 100.0 (100 : Int) := reads_ofInt (n := 100) (by decide)
  have small := raw.toNat_lt
  have size := abs_intCast_le (n := raw.toNat) (by omega)
  obtain ⟨v, reads, error⟩ := (reads_byte raw).div_mul scale (by norm_num) (by norm_num) size
  exact reads.nearest?_eq (by linarith)

/-- **A fraction that was read is written as the same number**, up to the limit. -/
theorem percentageRaw_percentage (field : Field) {limit : Nat} {raw : UInt8}
    (within : raw.toNat ≤ limit) : percentageRaw field limit (percentage raw) = .ok raw := by
  rw [percentageRaw, toRaw_of_le (nearest?_percentage raw) within]
  exact congrArg Except.ok (UInt8.ofNat_toNat)

theorem exists_percentageRaw_error (field : Field) {limit : Nat} {raw : UInt8}
    (beyond : limit < raw.toNat) :
    ∃ fault, percentageRaw field limit (percentage raw) = .error fault := by
  obtain ⟨fault, refused⟩ := toRaw_of_lt (nearest?_percentage raw) beyond
  exact ⟨fault, by rw [percentageRaw, refused]; rfl⟩

/-- **A setpoint that was read is written as the same number**. -/
theorem setpointRaw_setpoint (field : Field) (raw : UInt8) :
    setpointRaw field (setpoint raw) = .ok raw := by
  have scale : Reads 10.0 (10 : Int) := reads_ofInt (n := 10) (by decide)
  have offset : Reads 100.0 (100 : Int) := reads_ofInt (n := 100) (by decide)
  have small : raw.toNat ≤ 255 := Nat.le_of_lt_succ raw.toNat_lt
  have shifted := (reads_byte raw).add_int offset (by omega)
  have size := abs_intCast_le (n := raw.toNat + 100) (by omega)
  obtain ⟨v, reads, error⟩ := shifted.div_mul scale (by norm_num) (by norm_num) size
  have nearest : nearest? (setpoint raw * 10.0 - 100.0) = some (raw.toNat + 100 - 100 : Int) :=
    reads.nearest?_sub offset error (by omega)
  rw [add_sub_cancel_right] at nearest
  rw [setpointRaw, toRaw_of_le nearest small]
  exact congrArg Except.ok (UInt8.ofNat_toNat)

/-- **A temperature that was read is written as the same number**, up to the limit. -/
theorem temperatureRaw_temperature (field : Field) {raw : UInt16}
    (within : raw ≤ temperatureLimit) : temperatureRaw field (temperature raw) = .ok raw := by
  have scale : Reads 10.0 (10 : Int) := reads_ofInt (n := 10) (by decide)
  have offset : Reads 500.0 (500 : Int) := reads_ofInt (n := 500) (by decide)
  have small : raw.toNat ≤ 2000 := UInt16.le_iff_toNat_le.1 within
  have shifted := (reads_toFloat raw).sub_int offset (by omega)
  have size := abs_intCast_le (n := raw.toNat - 500) (by omega)
  obtain ⟨v, reads, error⟩ := shifted.div_mul scale (by norm_num) (by norm_num) size
  have nearest : nearest? (temperature raw * 10.0 + 500.0) = some (raw.toNat - 500 + 500 : Int) :=
    reads.nearest?_add offset error (by omega)
  rw [sub_add_cancel] at nearest
  rw [temperatureRaw, toRaw_of_le nearest (UInt16.le_iff_toNat_le.1 within)]
  exact congrArg Except.ok (UInt16.ofNat_toNat)

/-- **A whole number that was read is written as the same number**, unless it stands for none. -/
theorem wholeRaw_toFloat (field : Field) {raw : UInt8} (present : raw ≠ unused) :
    wholeRaw field raw.toFloat = .ok raw := by
  have small : raw.toNat ≤ 254 := by
    have := raw.toNat_lt
    have : raw.toNat ≠ 255 := fun same => present (UInt8.toNat_inj.1 same)
    omega
  have nearest : nearest? raw.toFloat = some (raw.toNat : Int) :=
    (reads_byte raw).nearest?_eq (by norm_num)
  rw [wholeRaw, toRaw_of_le nearest small]
  exact congrArg Except.ok (UInt8.ofNat_toNat)

end ClimateLink.Scale
