import ClimateLink.Proofs.Packet.Canonical
import ClimateLink.Proofs.Packet.Scaling

/-!
# Entries that were read

An entry that was read can be written again, and then reads back as it is: all its numbers came
from the wire. There are two exceptions. A zone can be asked to open to more than all, which reads
but is not written; and a setpoint that a request to an air conditioner does not use is not written
either.

**Theorems (`ZoneControl.exists_write`, `ZoneStatus.exists_write`, `AcControl.exists_write`,
`AcStatus.exists_write`).** For each kind of entry, what is read is written, and its canonical form
is the settled one.
-/

namespace ClimateLink

open Wire

/-! ## What has settled -/

/-- A request to an air conditioner without a setpoint of its own. -/
def AcControl.settled (entry : AcControl) : AcControl :=
  if entry.setpointRequest = .change then entry else { entry with setpoint := some 35.5 }

/-- A payload after it was written and read again: only setpoints that are not used are replaced,
and abilities of no unit are a request for those of every unit. -/
def Payload.settled : Payload → Payload
  | .acControl units => .acControl (units.map AcControl.settled)
  | .acAbility [] => .acAbilityRequest none
  | payload => payload

/-- No entry asks for another setpoint than before. -/
theorem AcControl.effectiveSetpoint_settled (entry : AcControl) :
    entry.settled.effectiveSetpoint = entry.effectiveSetpoint := by
  cases request : entry.setpointRequest <;>
    simp [AcControl.settled, AcControl.effectiveSetpoint, request, SetpointRequest.usesSetpoint]

/-! ## Numbers -/

theorem zoneNumber_bits (b : UInt8) (offset : Nat) :
    zoneNumber (bits b offset 6) = .ok (bits b offset 6).toNat := by
  have small := toNat_bits_lt b offset 6
  exact if_pos (UInt8.le_iff_toNat_le.2 (Nat.le_of_lt_succ small))

theorem acNumber_bits (b : UInt8) (offset : Nat) :
    acNumber (bits b offset 4) = .ok (bits b offset 4).toNat := by
  have small := toNat_bits_lt b offset 4
  exact if_pos (UInt8.le_iff_toNat_le.2 (Nat.le_of_lt_succ small))

/-- A temperature that was read is written and reads back, whenever the reader draws the line where
the writer does. -/
theorem Scale.exists_readingRaw (field : Field) (raw : UInt16) {valid : Prop} [Decidable valid]
    (same : valid ↔ raw ≤ temperatureLimit) :
    ∃ word, readingRaw field (if valid then some (temperature raw) else none) = .ok word ∧
      (if valid then some (temperature raw) else none : Option Float).map
        (reread (temperatureRaw field) temperature) =
          if valid then some (temperature raw) else none := by
  by_cases held : valid
  · have written := temperatureRaw_temperature field (same.1 held)
    rw [if_pos held]
    exact ⟨raw, written, congrArg some (reread_of_ok written)⟩
  · rw [if_neg held]
    exact ⟨_, rfl, rfl⟩

theorem ZoneControl.writeValue_readValue {change : ZoneChange} {raw : UInt8}
    (fits : change = .openPercentage → raw.toNat ≤ 100) :
    ZoneControl.writeValue change (ZoneControl.readValue change raw) = .ok raw := by
  cases change with
  | openPercentage => exact Scale.percentageRaw_percentage _ (fits rfl)
  | targetSetpoint => exact Scale.setpointRaw_setpoint _ raw
  | keep | decrease | increase =>
    by_cases absent : raw = Scale.unused
    · rw [absent]
      rfl
    · show ZoneControl.writeValue _ (if raw = Scale.unused then none else some raw.toFloat) = _
      rw [if_neg absent]
      exact Scale.wholeRaw_toFloat _ absent

/-- The setpoint that a zone reports is written as the byte that it was read from. -/
theorem ZoneStatus.writeSetpoint_ite (raw : UInt8) :
    writeSetpoint (if raw = Scale.unused then none else some (Scale.setpoint raw)) = .ok raw := by
  by_cases absent : raw = Scale.unused
  · rw [if_pos absent, absent]
    rfl
  · rw [if_neg absent]
    exact Scale.setpointRaw_setpoint _ raw

/-! ## Entries -/

theorem ZoneControl.of_read? {slice : Bytes} {entry : ZoneControl}
    (read : Entry.read? slice = some entry) :
    zoneNumber entry.zone = .ok entry.zone.toNat ∧
      entry.value = ZoneControl.readValue entry.change (slice.getD 2 0) := by
  match slice, read with
  | b0 :: b1 :: b2 :: _ :: _, read =>
    cases read
    exact ⟨zoneNumber_bits b0 2, rfl⟩

/-- **A zone request that was read is written**, unless it asks to open to more than all. -/
theorem ZoneControl.exists_write {slice : Bytes} {entry : ZoneControl}
    (read : Entry.read? slice = some entry)
    (fits : entry.change = .openPercentage → (slice.getD 2 0).toNat ≤ 100) :
    ∃ bytes, Entry.write entry = .ok bytes ∧ entry.canonical = entry := by
  obtain ⟨zone, value⟩ := of_read? read
  have written := writeValue_readValue fits
  have same := readValue_writeValue written
  rw [← value] at written same
  refine ⟨_, bind_eq_ok.2 ⟨_, written, bind_eq_ok.2 ⟨_, zone, rfl⟩⟩, ?_⟩
  rw [canonical, ← same]

theorem ZoneControl.exists_write_error {slice : Bytes} {entry : ZoneControl}
    (read : Entry.read? slice = some entry) (change : entry.change = .openPercentage)
    (beyond : 100 < (slice.getD 2 0).toNat) : ∃ fault, Entry.write entry = .error fault := by
  obtain ⟨-, value⟩ := of_read? read
  obtain ⟨fault, refused⟩ := Scale.exists_percentageRaw_error .zoneOpenPercentage beyond
  have refused : writeValue entry.change entry.value = .error fault := by
    rw [value, change]
    exact refused
  refine ⟨fault, ?_⟩
  show (writeValue entry.change entry.value >>= _) = _
  rw [refused]
  rfl

/-- **A zone report that was read is written**. -/
theorem ZoneStatus.exists_write {slice : Bytes} {entry : ZoneStatus}
    (read : Entry.read? slice = some entry) :
    ∃ bytes, Entry.write entry = .ok bytes ∧ entry.canonical = entry := by
  match slice, read with
  | b0 :: b1 :: b2 :: b3 :: b4 :: b5 :: b6 :: _ :: _, read =>
    have zone : entry.zone = bits b0 2 6 := by cases read; rfl
    have percentage : entry.openPercentage = Scale.percentage (bits b1 1 7) := by cases read; rfl
    have degrees : entry.setpoint = if b2 = Scale.unused then none else
        some (Scale.setpoint b2) := by cases read; rfl
    have warmth : entry.temperature = if Scale.temperature (word b4 b5) ≤ Scale.zoneTemperatureMax
        then some (Scale.temperature (word b4 b5)) else none := by cases read; rfl
    have opening := Scale.percentageRaw_percentage .zoneOpenPercentage
      (Nat.le_of_lt_succ (toNat_bits_lt b1 1 7))
    have setpoint : writeSetpoint entry.setpoint = .ok b2 := degrees ▸ writeSetpoint_ite b2
    obtain ⟨word, temperature, reading⟩ := Scale.exists_readingRaw .zoneTemperature (word b4 b5)
      (Scale.temperature_le_max_iff (word b4 b5))
    have number := zoneNumber_bits b0 2
    rw [← zone] at number
    rw [← percentage] at opening
    rw [← warmth] at temperature reading
    refine ⟨_, bind_eq_ok.2 ⟨_, opening, bind_eq_ok.2 ⟨_, setpoint, bind_eq_ok.2 ⟨_, temperature,
      bind_eq_ok.2 ⟨_, number, rfl⟩⟩⟩⟩, ?_⟩
    rw [canonical, ← canonicalSetpoint_of_writeSetpoint setpoint, ← degrees, reading,
      Scale.reread_of_ok opening, ← percentage]

theorem AcControl.exists_write {slice : Bytes} {entry : AcControl}
    (read : Entry.read? slice = some entry) :
    ∃ bytes, Entry.write entry = .ok bytes ∧ entry.canonical = entry.settled := by
  match slice, read with
  | b0 :: b1 :: b2 :: b3 :: _, read =>
    have unit : entry.unit = bits b0 4 4 := by cases read; rfl
    have degrees : entry.setpoint = some (Scale.setpoint b3) := by cases read; rfl
    have number := acNumber_bits b0 4
    rw [← unit] at number
    have raw := Scale.setpointRaw_setpoint .acSetpoint b3
    by_cases change : entry.setpointRequest = .change
    · have setpoint : writeSetpoint entry.setpointRequest entry.setpoint = .ok b3 := by
        rw [change, degrees]
        exact raw
      refine ⟨_, bind_eq_ok.2 ⟨_, setpoint, bind_eq_ok.2 ⟨_, number, rfl⟩⟩, ?_⟩
      rw [canonical, settled, if_pos change, if_pos change, degrees, Option.map_some,
        Scale.reread_of_ok raw, ← degrees]
    · have setpoint : writeSetpoint entry.setpointRequest entry.setpoint = .ok Scale.unused := by
        cases request : entry.setpointRequest with
        | change => exact absurd request change
        | keep | invalidate => rfl
      refine ⟨_, bind_eq_ok.2 ⟨_, setpoint, bind_eq_ok.2 ⟨_, number, rfl⟩⟩, ?_⟩
      rw [canonical, settled, if_neg change, if_neg change]

theorem AcStatus.exists_write {slice : Bytes} {entry : AcStatus}
    (read : Entry.read? slice = some entry) :
    ∃ bytes, Entry.write entry = .ok bytes ∧ entry.canonical = entry := by
  match slice, read with
  | b0 :: b1 :: b2 :: b3 :: b4 :: b5 :: b6 :: b7 :: _ :: _ :: _, read =>
    have unit : entry.unit = bits b0 4 4 := by cases read; rfl
    have degrees : entry.setpoint = Scale.setpoint b2 := by cases read; rfl
    have warmth : entry.temperature = if word b4 b5 ≤ Scale.temperatureLimit
        then some (Scale.temperature (word b4 b5)) else none := by cases read; rfl
    have setpoint := Scale.setpointRaw_setpoint .acSetpoint b2
    obtain ⟨word, temperature, reading⟩ :=
      Scale.exists_readingRaw .acTemperature (word b4 b5) Iff.rfl
    have number := acNumber_bits b0 4
    rw [← unit] at number
    rw [← degrees] at setpoint
    rw [← warmth] at temperature reading
    refine ⟨_, bind_eq_ok.2 ⟨_, setpoint, bind_eq_ok.2 ⟨_, temperature,
      bind_eq_ok.2 ⟨_, number, rfl⟩⟩⟩, ?_⟩
    rw [canonical, reading, Scale.reread_of_ok setpoint, ← degrees]

end ClimateLink
