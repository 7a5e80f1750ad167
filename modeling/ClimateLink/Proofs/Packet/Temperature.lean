import ClimateLink.Packet.Scale
import ClimateLink.Proofs.Decimal.Double

/-!
# Temperatures

A zone's temperature is judged after scaling, as a double; an air conditioner's before, as a
whole number. Both draw the line at the same place.

**Theorem (`temperature_le_max_iff`).** A temperature is not too high for a zone exactly when its
number is not above the limit.
-/

namespace ClimateLink.Scale

open Decimal

theorem reads_toFloat (raw : UInt16) : Reads raw.toFloat (raw.toNat : Int) := by
  have small := raw.toNat_lt
  exact reads_ofInt (by omega)

/-- The temperature that a number stands for, up to a rounding error. -/
theorem exists_reads_temperature (raw : UInt16) :
    ∃ v, Reads (temperature raw) v ∧ |v - (raw.toNat - 500) / 10| ≤ 1 / 2 ^ 39 := by
  have small := raw.toNat_lt
  have offset : Reads 500.0 (500 : Int) := reads_ofInt (n := 500) (by decide)
  have scale : Reads 10.0 (10 : Int) := reads_ofInt (n := 10) (by decide)
  have shifted := (reads_toFloat raw).sub_int offset (by omega)
  have size : |((raw.toNat - 500 : Int) : ℚ) / (10 : Int)| ≤ 2 ^ 13 - 1 := by
    have upper : (raw.toNat : ℚ) ≤ 2 ^ 16 := by exact_mod_cast small.le
    have lower : (0 : ℚ) ≤ raw.toNat := Nat.cast_nonneg _
    rw [abs_le]
    push_cast
    exact ⟨by linarith, by linarith⟩
  obtain ⟨v, reads, error⟩ := shifted.div scale (by norm_num) (by linarith)
  have bound : |v - ((raw.toNat - 500 : Int) : ℚ) / (10 : Int)| ≤ 1 / 2 ^ 39 := by linarith
  push_cast at bound
  exact ⟨v, reads, bound⟩

/-- **Both limits are the same**: a temperature is not too high for a zone exactly when its number
is not above the limit for temperatures. -/
theorem temperature_le_max_iff (raw : UInt16) :
    temperature raw ≤ zoneTemperatureMax ↔ raw ≤ temperatureLimit := by
  have limit : Reads zoneTemperatureMax (150 : Int) := reads_ofInt (n := 150) (by decide)
  obtain ⟨v, reads, error⟩ := exists_reads_temperature raw
  obtain ⟨below, above⟩ := abs_le.1 error
  have tiny : (1 : ℚ) / 2 ^ 39 < 1 / 10 := by norm_num
  rw [UInt16.le_iff_toNat_le, show temperatureLimit.toNat = 2000 from rfl]
  rcases lt_trichotomy raw.toNat 2000 with less | exact | more
  · have : (raw.toNat : ℚ) ≤ 1999 := by exact_mod_cast Nat.le_of_lt_succ less
    refine iff_of_true ((reads.le_iff limit).2 ?_) less.le
    push_cast
    linarith
  · have : raw = 2000 := UInt16.toNat_inj.1 exact
    subst this
    decide
  · have : (2001 : ℚ) ≤ raw.toNat := by exact_mod_cast more
    refine iff_of_false (fun le => ?_) (by omega)
    have := (reads.le_iff limit).1 le
    push_cast at this
    linarith

end ClimateLink.Scale
