import ClimateLink.Proofs.Frame.Reencoding

/-!
# Readings that are absent

Zones and units leave out what they do not know: a setpoint, a temperature, the value beside a
change. On the wire each of these has a number that stands for none, and every number that is
written has to keep clear of it.

**Theorem (`absent_after_iff`).** A reading is absent after encoding and decoding if it was absent
before, and in one case more: the setpoint of a zone may be written as the number that stands for
no setpoint. That is the number of 35.5 degrees, which the limit of what is written does not
exclude. All other limits are below the number that stands for none.
-/

namespace ClimateLink

/-! ## Readings -/

/-- A reading that may be absent, and the field that it is written to. -/
structure Reading where
  field : Field
  value : Option Float
  deriving DecidableEq

def ZoneControl.readings (entry : ZoneControl) : List Reading := [⟨.zoneControlValue, entry.value⟩]

def ZoneStatus.readings (entry : ZoneStatus) : List Reading :=
  [⟨.zoneSetpoint, entry.setpoint⟩, ⟨.zoneTemperature, entry.temperature⟩]

def AcStatus.readings (entry : AcStatus) : List Reading := [⟨.acTemperature, entry.temperature⟩]

/-- The readings of a payload that may be absent, entry by entry. -/
def Payload.readings : Payload → List Reading
  | .zoneControl zones => zones.flatMap ZoneControl.readings
  | .zoneStatus zones => zones.flatMap ZoneStatus.readings
  | .acStatus units => units.flatMap AcStatus.readings
  | _ => []

/-- The reading is a zone's setpoint that is written as the number of 35.5 degrees. -/
def Reading.Vanishes (reading : Reading) : Prop :=
  reading.field = .zoneSetpoint ∧
    ∃ degrees, reading.value = some degrees ∧ Decimal.nearest? (degrees * 10.0 - 100.0) = some 255

/-- The other reading is what is left of this one: it is absent if this one is, or vanishes. -/
def Reading.Leaves (before after : Reading) : Prop :=
  after.field = before.field ∧ (after.value = none ↔ before.value = none ∨ before.Vanishes)

/-! ## One reading -/

/-- The setpoint that takes the number of none is the one that has the largest number. -/
theorem Scale.setpointRaw_eq_unused_iff {field : Field} {x : Float} :
    setpointRaw field x = .ok unused ↔ Decimal.nearest? (x * 10.0 - 100.0) = some 255 := by
  constructor
  · intro written
    obtain ⟨raw, fits, same⟩ := map_eq_ok.1 written
    have small : raw < 256 := Nat.lt_succ_of_le (toRaw_le fits)
    have whole : raw = 255 := by
      have number := congrArg UInt8.toNat same
      rwa [UInt8.toNat_ofNat', Nat.mod_eq_of_lt small] at number
    rw [toRaw_eq_ok fits, whole]
    rfl
  · intro nearest
    rw [setpointRaw, toRaw_of_le nearest (Nat.le_refl 255)]
    rfl

theorem Reading.leaves_map {field : Field} (other : field ≠ .zoneSetpoint) (value : Option Float)
    (f : Float → Float) : Leaves ⟨field, value⟩ ⟨field, value.map f⟩ := by
  refine ⟨rfl, Option.map_eq_none_iff.trans (Iff.symm (or_iff_left ?_))⟩
  exact fun vanishes => other vanishes.1

/-- The setpoint of a zone vanishes if nothing is left of it. -/
theorem ZoneStatus.leaves_setpoint (value : Option Float) :
    Reading.Leaves ⟨.zoneSetpoint, value⟩ ⟨.zoneSetpoint, value.bind canonicalSetpoint⟩ := by
  refine ⟨rfl, ?_⟩
  cases value with
  | none => exact iff_of_true rfl (.inl rfl)
  | some degrees =>
    -- A setpoint is lost if its byte is the one that stands for none.
    have lost : canonicalSetpoint degrees = none ↔
        Scale.setpointRaw .zoneSetpoint degrees = .ok Scale.unused := by
      by_cases top : Scale.setpointRaw .zoneSetpoint degrees = .ok Scale.unused
      · exact iff_of_true (if_pos top) top
      · rw [canonicalSetpoint, if_neg top]
        exact iff_of_false (Option.some_ne_none _) top
    show canonicalSetpoint degrees = none ↔ _
    rw [lost, Scale.setpointRaw_eq_unused_iff, or_iff_right (Option.some_ne_none degrees)]
    constructor
    · exact fun top => ⟨rfl, degrees, rfl, top⟩
    · rintro ⟨-, other, same, top⟩
      cases Option.some.inj same
      exact top

/-! ## All readings -/

theorem ZoneControl.leaves_canonical (entry : ZoneControl) :
    List.Forall₂ Reading.Leaves entry.readings entry.canonical.readings :=
  .cons (Reading.leaves_map (by decide) _ _) .nil

theorem ZoneStatus.leaves_canonical (entry : ZoneStatus) :
    List.Forall₂ Reading.Leaves entry.readings entry.canonical.readings :=
  .cons (leaves_setpoint _) (.cons (Reading.leaves_map (by decide) _ _) .nil)

theorem AcStatus.leaves_canonical (entry : AcStatus) :
    List.Forall₂ Reading.Leaves entry.readings entry.canonical.readings :=
  .cons (Reading.leaves_map (by decide) _ _) .nil

theorem Reading.leaves_flatMap {α : Type} {readings : α → List Reading} {canonical : α → α}
    (each : ∀ a, List.Forall₂ Leaves (readings a) (readings (canonical a))) (entries : List α) :
    List.Forall₂ Leaves (entries.flatMap readings) ((entries.map canonical).flatMap readings) := by
  induction entries with
  | nil => exact .nil
  | cons entry entries ih =>
    rw [List.map_cons, List.flatMap_cons, List.flatMap_cons]
    exact List.rel_append (each entry) ih

theorem Payload.leaves_canonical (payload : Payload) :
    List.Forall₂ Reading.Leaves payload.readings payload.canonical.readings := by
  cases payload with
  | zoneControl zones => exact Reading.leaves_flatMap ZoneControl.leaves_canonical zones
  | zoneStatus zones => exact Reading.leaves_flatMap ZoneStatus.leaves_canonical zones
  | acStatus units => exact Reading.leaves_flatMap AcStatus.leaves_canonical units
  | acAbility units => cases units <;> exact .nil
  | zoneNames entries => cases entries <;> exact .nil
  | _ => exact .nil

namespace Frame

/-- **A reading is absent exactly if it was, or if it is a zone's setpoint of 35.5 degrees**, after
rounding. All other readings stay present. -/
theorem absent_after_iff {packet received : Packet} {frame : Bytes}
    (encoded : encode packet = .ok frame) (decoded : decode frame = .ok received) :
    List.Forall₂ Reading.Leaves packet.payload.readings received.payload.readings := by
  obtain ⟨payload, written, small, rfl⟩ := exists_of_encode encoded
  have read := decode_assemble packet.address packet.id small (Payload.decode_of_encode written)
  cases Except.ok.inj (decoded.symm.trans read)
  exact packet.payload.leaves_canonical

/-- The largest setpoint that stays, and the largest temperature. -/
theorem absent_after_iff_largest :
    encode ⟨0xB080, 1, .zoneStatus [⟨.on, 2, .temperature, 0.5, some 35.4, true, some 150.0, false,
        false⟩]⟩ =
      .ok [0x55, 0x55, 0x55, 0xAA, 0xB0, 0x80, 0x01, 0xC0, 0x00, 0x10, 0x21, 0x00, 0x00, 0x00,
        0x00, 0x08, 0x00, 0x01, 0x42, 0xB2, 0xFE, 0x80, 0x07, 0xD0, 0x00, 0x00, 0x6E, 0x8F] ∧
    decode [0x55, 0x55, 0x55, 0xAA, 0xB0, 0x80, 0x01, 0xC0, 0x00, 0x10, 0x21, 0x00, 0x00, 0x00,
        0x00, 0x08, 0x00, 0x01, 0x42, 0xB2, 0xFE, 0x80, 0x07, 0xD0, 0x00, 0x00, 0x6E, 0x8F] =
      .ok ⟨0xB080, 1, .zoneStatus [⟨.on, 2, .temperature, 0.5, some 35.4, true, some 150.0, false,
        false⟩]⟩ ∧
    List.Forall₂ Reading.Leaves [⟨.zoneSetpoint, some 35.4⟩, ⟨.zoneTemperature, some 150.0⟩]
      [⟨.zoneSetpoint, some 35.4⟩, ⟨.zoneTemperature, some 150.0⟩] := by
  have encoded : encode ⟨0xB080, 1, .zoneStatus [⟨.on, 2, .temperature, 0.5, some 35.4, true,
        some 150.0, false, false⟩]⟩ =
      .ok [0x55, 0x55, 0x55, 0xAA, 0xB0, 0x80, 0x01, 0xC0, 0x00, 0x10, 0x21, 0x00, 0x00, 0x00,
        0x00, 0x08, 0x00, 0x01, 0x42, 0xB2, 0xFE, 0x80, 0x07, 0xD0, 0x00, 0x00, 0x6E, 0x8F] := by
    decide +kernel
  have decoded : decode [0x55, 0x55, 0x55, 0xAA, 0xB0, 0x80, 0x01, 0xC0, 0x00, 0x10, 0x21, 0x00,
        0x00, 0x00, 0x00, 0x08, 0x00, 0x01, 0x42, 0xB2, 0xFE, 0x80, 0x07, 0xD0, 0x00, 0x00, 0x6E,
        0x8F] =
      .ok ⟨0xB080, 1, .zoneStatus [⟨.on, 2, .temperature, 0.5, some 35.4, true, some 150.0, false,
        false⟩]⟩ := by
    decide +kernel
  exact ⟨encoded, decoded, absent_after_iff encoded decoded⟩

/-- A setpoint that is present, and absent after encoding and decoding. -/
theorem absent_after_lostSetpoint :
    encode ⟨0xB080, 1, .zoneStatus [⟨.on, 2, .temperature, 0.5, some 35.5, true, some 24.0, false,
        false⟩]⟩ =
      .ok [0x55, 0x55, 0x55, 0xAA, 0xB0, 0x80, 0x01, 0xC0, 0x00, 0x10, 0x21, 0x00, 0x00, 0x00,
        0x00, 0x08, 0x00, 0x01, 0x42, 0xB2, 0xFF, 0x80, 0x02, 0xE4, 0x00, 0x00, 0xBD, 0xCF] ∧
    decode [0x55, 0x55, 0x55, 0xAA, 0xB0, 0x80, 0x01, 0xC0, 0x00, 0x10, 0x21, 0x00, 0x00, 0x00,
        0x00, 0x08, 0x00, 0x01, 0x42, 0xB2, 0xFF, 0x80, 0x02, 0xE4, 0x00, 0x00, 0xBD, 0xCF] =
      .ok ⟨0xB080, 1, .zoneStatus [⟨.on, 2, .temperature, 0.5, none, true, some 24.0, false,
        false⟩]⟩ := by
  decide +kernel

end Frame

end ClimateLink
