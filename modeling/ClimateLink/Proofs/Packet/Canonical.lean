import ClimateLink.Proofs.Attempt
import ClimateLink.Proofs.Packet.Bits
import ClimateLink.Proofs.Packet.Temperature
import ClimateLink.Packet.Entry
import ClimateLink.Packet.Extended

/-!
# Canonical packets

A frame does not hold everything that a packet can say: numbers are scaled and rounded, an unused
setpoint is not written, a name of fixed width ends at a zero byte, and an empty list of records
is a request. `Payload.canonical` is what is left of a payload.

**Entries.** `read?_write` in the namespace of each kind of entry: what is written reads back as
the canonical entry.
-/

namespace ClimateLink

open Wire

/-! ## Numbers -/

namespace Scale

/-- What a number reads back as after it was written; the number itself if it cannot be written. -/
def reread {ρ : Type} (write : Float → Except Unencodable ρ) (read : ρ → Float) (x : Float) :
    Float :=
  match write x with
  | .ok raw => read raw
  | .error _ => x

theorem reread_of_ok {ρ : Type} {write : Float → Except Unencodable ρ} {read : ρ → Float}
    {x : Float} {raw : ρ} (h : write x = .ok raw) : reread write read x = read raw := by
  rw [reread, h]

/-- The integer nearest to `x` as a double again; `x` itself if it is not finite. -/
def rounded (x : Float) : Float :=
  ((Decimal.nearest? x).map fun n => Float.ofModel (.ofInt n)).getD x

end Scale

/-! ## Entries -/

namespace ZoneControl

/-- The value that is left beside a change. -/
def canonicalValue (change : ZoneChange) (value : Float) : Float :=
  match change with
  | .openPercentage =>
    Scale.reread (Scale.percentageRaw .zoneOpenPercentage 100) Scale.percentage value
  | .targetSetpoint => Scale.reread (Scale.setpointRaw .zoneTargetSetpoint) Scale.setpoint value
  | _ => Scale.rounded value

/-- What is left of a zone request. -/
def canonical (entry : ZoneControl) : ZoneControl :=
  { entry with value := entry.value.map (canonicalValue entry.change) }

end ZoneControl

namespace ZoneStatus

/-- The setpoint that is left: the largest number that the byte holds stands for no setpoint. -/
def canonicalSetpoint (degrees : Float) : Option Float :=
  if Scale.setpointRaw .zoneSetpoint degrees = .ok Scale.unused then none
  else some (Scale.reread (Scale.setpointRaw .zoneSetpoint) Scale.setpoint degrees)

/-- What is left of a zone report. -/
def canonical (entry : ZoneStatus) : ZoneStatus :=
  { entry with
    openPercentage :=
      Scale.reread (Scale.percentageRaw .zoneOpenPercentage 127) Scale.percentage
        entry.openPercentage
    setpoint := entry.setpoint.bind canonicalSetpoint
    temperature :=
      entry.temperature.map (Scale.reread (Scale.temperatureRaw .zoneTemperature)
        Scale.temperature) }

end ZoneStatus

namespace AcControl

/-- What is left of a request to an air conditioner. Without a change of setpoint, the byte of the
setpoint is unused and reads as a number all the same. -/
def canonical (entry : AcControl) : AcControl :=
  { entry with
    setpoint :=
      if entry.setpointRequest = .change then
        entry.setpoint.map (Scale.reread (Scale.setpointRaw .acSetpoint) Scale.setpoint)
      else some 35.5 }

end AcControl

namespace AcStatus

/-- What is left of a report of an air conditioner. -/
def canonical (entry : AcStatus) : AcStatus :=
  { entry with
    setpoint := Scale.reread (Scale.setpointRaw .acSetpoint) Scale.setpoint entry.setpoint
    temperature :=
      entry.temperature.map (Scale.reread (Scale.temperatureRaw .acTemperature)
        Scale.temperature) }

end AcStatus

namespace AcAbility

/-- What is left of an ability, whose name ends at its first zero character. -/
def canonical (ability : AcAbility) : AcAbility :=
  { ability with name := String.ofList (ability.name.toList.takeWhile (· ≠ '\x00')) }

theorem canonical_eq_self_iff {ability : AcAbility} :
    ability.canonical = ability ↔ '\x00' ∉ ability.name.toList := by
  have kept : ability.canonical = ability ↔
      ability.name.toList.takeWhile (· ≠ '\x00') = ability.name.toList := by
    constructor
    · intro same
      have name := congrArg (String.toList ∘ AcAbility.name) same
      simpa [canonical] using name
    · intro same
      rw [canonical, same, String.ofList_toList]
  rw [kept, List.takeWhile_eq_self_iff]
  constructor
  · intro nonzero among
    simpa using nonzero _ among
  · intro absent c among
    exact decide_eq_true fun zero => absent (zero ▸ among)

end AcAbility

/-! ## Payloads -/

/-- What is left of a payload. -/
def Payload.canonical : Payload → Payload
  | .zoneControl zones => .zoneControl (zones.map ZoneControl.canonical)
  | .zoneStatus zones => .zoneStatus (zones.map ZoneStatus.canonical)
  | .acControl units => .acControl (units.map AcControl.canonical)
  | .acStatus units => .acStatus (units.map AcStatus.canonical)
  | .acAbility [] => .acAbilityRequest none
  | .acAbility units => .acAbility (units.map AcAbility.canonical)
  | .zoneNames [] => .zoneNameRequest none
  | payload => payload

/-! ## Written numbers -/

theorem zoneNumber_eq_ok {n : UInt8} {zone : Nat} (h : zoneNumber n = .ok zone) :
    zone = n.toNat ∧ n.toNat < 2 ^ 6 := by
  by_cases small : n ≤ 63
  · rw [zoneNumber, if_pos small] at h
    cases h
    exact ⟨rfl, Nat.lt_succ_of_le (UInt8.le_iff_toNat_le.1 small)⟩
  · rw [zoneNumber, if_neg small] at h
    cases h

theorem acNumber_eq_ok {n : UInt8} {unit : Nat} (h : acNumber n = .ok unit) :
    unit = n.toNat ∧ n.toNat < 2 ^ 4 := by
  by_cases small : n ≤ 15
  · rw [acNumber, if_pos small] at h
    cases h
    exact ⟨rfl, Nat.lt_succ_of_le (UInt8.le_iff_toNat_le.1 small)⟩
  · rw [acNumber, if_neg small] at h
    cases h

namespace Scale

theorem toRaw_eq_ok {field : Field} {limit raw : Nat} {x : Float}
    (h : toRaw field limit x = .ok raw) : Decimal.nearest? x = some (raw : Int) := by
  unfold toRaw at h
  split at h
  · cases h
  · next n hn =>
    split at h
    · next bounds =>
      cases h
      rw [hn, Int.toNat_of_nonneg bounds.1]
    · cases h

theorem toNat_percentageRaw_le {field : Field} {limit : Nat} {x : Float} {raw : UInt8}
    (h : percentageRaw field limit x = .ok raw) : raw.toNat ≤ limit := by
  obtain ⟨n, hn, rfl⟩ := map_eq_ok.1 h
  exact (Nat.mod_le _ _).trans (toRaw_le hn)

/-- A temperature that is written fits its limit, so that it does not look absent. -/
theorem temperatureRaw_le {field : Field} {x : Float} {raw : UInt16}
    (h : temperatureRaw field x = .ok raw) : raw ≤ temperatureLimit := by
  obtain ⟨n, hn, rfl⟩ := map_eq_ok.1 h
  exact UInt16.le_iff_toNat_le.2 ((Nat.mod_le _ _).trans (toRaw_le hn))

/-- A whole number that is written does not look absent, and reads back rounded. -/
theorem wholeRaw_eq_ok {field : Field} {x : Float} {raw : UInt8}
    (h : wholeRaw field x = .ok raw) : raw ≠ unused ∧ raw.toFloat = rounded x := by
  obtain ⟨n, hn, rfl⟩ := map_eq_ok.1 h
  have small : n ≤ 254 := toRaw_le hn
  have toNat : (UInt8.ofNat n).toNat = n := by
    rw [UInt8.toNat_ofNat', Nat.mod_eq_of_lt (by omega)]
  constructor
  · intro same
    have : n = 255 := by rw [← toNat, same]; rfl
    omega
  · rw [rounded, toRaw_eq_ok hn]
    show Float.ofModel (.ofInt ((UInt8.ofNat n).toNat : Int)) = Float.ofModel (.ofInt n)
    rw [toNat]

/-- A temperature that is written reads back, or none does, whenever the reader takes the numbers
up to the limit for temperatures and the one that stands for none for no temperature. -/
theorem reading_of_readingRaw {field : Field} {reading : Option Float} {raw : UInt16}
    (h : readingRaw field reading = .ok raw) (valid : UInt16 → Prop) [DecidablePred valid]
    (hvalid : ∀ raw, raw ≤ temperatureLimit → valid raw) (hnone : ¬valid noTemperature) :
    (if valid raw then some (temperature raw) else none) =
      reading.map (reread (temperatureRaw field) temperature) := by
  cases reading with
  | none =>
    cases h
    exact if_neg hnone
  | some x => rw [if_pos (hvalid raw (temperatureRaw_le h)), Option.map_some, reread_of_ok h]

end Scale

/-! ## Written entries -/

theorem ZoneControl.readValue_writeValue {change : ZoneChange} {value : Option Float}
    {raw : UInt8} (h : ZoneControl.writeValue change value = .ok raw) :
    ZoneControl.readValue change raw = value.map (ZoneControl.canonicalValue change) := by
  cases value with
  | none =>
    cases change with
    | openPercentage | targetSetpoint => cases h
    | keep | decrease | increase => cases h; rfl
  | some v =>
    cases change with
    | openPercentage | targetSetpoint =>
      exact congrArg some (Scale.reread_of_ok h).symm
    | keep | decrease | increase =>
      obtain ⟨present, rounded⟩ := Scale.wholeRaw_eq_ok h
      exact (if_neg present).trans (congrArg some rounded)

/-- **A zone request that is written reads back** in canonical form. -/
theorem ZoneControl.read?_write {entry : ZoneControl} {bytes : Bytes}
    (h : Entry.write entry = .ok bytes) : Entry.read? bytes = some entry.canonical := by
  obtain ⟨value, hvalue, h⟩ := bind_eq_ok.1 h
  obtain ⟨zone, hzone, h⟩ := bind_eq_ok.1 h
  obtain ⟨rfl, small⟩ := zoneNumber_eq_ok hzone
  have hzone : UInt8.ofNat entry.zone.toNat = pack [(2, 0), (6, entry.zone.toNat)] := by
    show _ = UInt8.ofNat (0 + entry.zone.toNat % 2 ^ 6)
    rw [Nat.zero_add, Nat.mod_eq_of_lt small]
  have hchange : Coded.ofCode (bits (pack [(3, (Coded.code entry.change).toNat), (2, 0),
      (3, (Coded.code entry.power).toNat)]) 0 3) = entry.change :=
    ofCode_pack [] 3 entry.change [(2, 0), (3, _)] rfl (by decide)
  cases h
  simp only [Entry.read?, ZoneControl.canonical, Option.some.injEq, ZoneControl.mk.injEq]
  refine ⟨?_, hchange, ?_, ?_⟩
  · rw [hzone]
    exact byte_pack [(2, 0)] 6 entry.zone [] rfl small
  · exact ofCode_pack [(3, _), (2, 0)] 3 entry.power [] rfl (by decide)
  -- What the value means depends on the change, which is read back first.
  · rw [hchange]
    exact ZoneControl.readValue_writeValue hvalue

theorem ZoneStatus.canonicalSetpoint_of_writeSetpoint {setpoint : Option Float} {raw : UInt8}
    (h : ZoneStatus.writeSetpoint setpoint = .ok raw) :
    (if raw = Scale.unused then none else some (Scale.setpoint raw)) =
      setpoint.bind ZoneStatus.canonicalSetpoint := by
  cases setpoint with
  | none =>
    cases h
    rfl
  | some x =>
    have hraw : Scale.setpointRaw .zoneSetpoint x = .ok raw := h
    rw [Option.bind_some, ZoneStatus.canonicalSetpoint, Scale.reread_of_ok hraw, hraw]
    simp only [Except.ok.injEq]

theorem ZoneStatus.read?_write {entry : ZoneStatus} {bytes : Bytes}
    (h : Entry.write entry = .ok bytes) : Entry.read? bytes = some entry.canonical := by
  obtain ⟨opening, hopening, h⟩ := bind_eq_ok.1 h
  obtain ⟨setpoint, hsetpoint, h⟩ := bind_eq_ok.1 h
  obtain ⟨temperature, htemperature, h⟩ := bind_eq_ok.1 h
  obtain ⟨zone, hzone, h⟩ := bind_eq_ok.1 h
  obtain ⟨rfl, small⟩ := zoneNumber_eq_ok hzone
  have narrow : opening.toNat < 2 ^ 7 := Nat.lt_succ_of_le (Scale.toNat_percentageRaw_le hopening)
  cases h
  simp only [List.cons_append, List.nil_append, wordBytes, Entry.read?, ZoneStatus.canonical,
    Option.some.injEq, ZoneStatus.mk.injEq, word_wordBytes]
  refine ⟨?_, ?_, ?_, ?_, ?_, ?_, ?_, ?_, ?_⟩
  · exact ofCode_pack [] 2 entry.power [(6, _)] rfl (by decide)
  · exact byte_pack [(2, _)] 6 entry.zone [] rfl small
  · exact ofCode_pack [] 1 entry.method [(7, _)] rfl (by decide)
  · rw [Scale.reread_of_ok hopening]
    exact congrArg Scale.percentage (byte_pack [(1, _)] 7 opening [] rfl narrow)
  · exact ZoneStatus.canonicalSetpoint_of_writeSetpoint hsetpoint
  · exact flag_pack [] entry.hasSensor [(7, 0)] rfl
  · exact Scale.reading_of_readingRaw htemperature
      (fun raw => Scale.temperature raw ≤ Scale.zoneTemperatureMax)
      (fun raw => (Scale.temperature_le_max_iff raw).2) (by decide)
  · exact flag_pack [(6, 0)] entry.spillActive [(1, _)] rfl
  · exact flag_pack [(6, 0), (1, _)] entry.lowBattery [] rfl

theorem AcControl.read?_write {entry : AcControl} {bytes : Bytes}
    (h : Entry.write entry = .ok bytes) : Entry.read? bytes = some entry.canonical := by
  obtain ⟨setpoint, hsetpoint, h⟩ := bind_eq_ok.1 h
  obtain ⟨unit, hunit, h⟩ := bind_eq_ok.1 h
  obtain ⟨rfl, small⟩ := acNumber_eq_ok hunit
  cases h
  simp only [Entry.read?, AcControl.canonical, Option.some.injEq, AcControl.mk.injEq]
  refine ⟨?_, ?_, ?_, ?_, Coded.ofCode_code _, ?_⟩
  · exact ofCode_pack [] 4 entry.power [(4, _)] rfl (by decide)
  · exact byte_pack [(4, _)] 4 entry.unit [] rfl small
  · exact ofCode_pack [] 4 entry.mode [(4, _)] rfl (by decide)
  · exact ofCode_pack [(4, _)] 4 entry.fan [] rfl (by decide)
  · cases hr : entry.setpointRequest with
    | keep | invalidate =>
      rw [hr] at hsetpoint
      cases hsetpoint
      -- The byte that stands for no setpoint is read as degrees here.
      exact congrArg some (by decide : Scale.setpoint Scale.unused = 35.5)
    | change =>
      rw [hr] at hsetpoint
      cases hs : entry.setpoint with
      | none =>
        rw [hs] at hsetpoint
        cases hsetpoint
      | some v =>
        rw [hs] at hsetpoint
        rw [if_pos rfl, Option.map_some, Scale.reread_of_ok hsetpoint]

theorem AcStatus.read?_write {entry : AcStatus} {bytes : Bytes}
    (h : Entry.write entry = .ok bytes) : Entry.read? bytes = some entry.canonical := by
  obtain ⟨setpoint, hsetpoint, h⟩ := bind_eq_ok.1 h
  obtain ⟨temperature, htemperature, h⟩ := bind_eq_ok.1 h
  obtain ⟨unit, hunit, h⟩ := bind_eq_ok.1 h
  obtain ⟨rfl, small⟩ := acNumber_eq_ok hunit
  cases h
  simp only [List.cons_append, List.nil_append, wordBytes, Entry.read?, AcStatus.canonical,
    Option.some.injEq, AcStatus.mk.injEq, word_wordBytes, and_true]
  refine ⟨?_, ?_, ?_, ?_, ?_, ?_, ?_, ?_, ?_, ?_⟩
  · exact ofCode_pack [] 4 entry.power [(4, _)] rfl (by decide)
  · exact byte_pack [(4, _)] 4 entry.unit [] rfl small
  · exact ofCode_pack [] 4 entry.mode [(4, _)] rfl (by decide)
  · exact ofCode_pack [(4, _)] 4 entry.fan [] rfl (by decide)
  · exact (Scale.reread_of_ok hsetpoint).symm
  · exact flag_pack [(2, 3), (2, 0)] entry.turboActive [(1, _), (1, _), (1, _)] rfl
  · exact flag_pack [(2, 3), (2, 0), (1, _)] entry.bypassActive [(1, _), (1, _)] rfl
  · exact flag_pack [(2, 3), (2, 0), (1, _), (1, _)] entry.spillActive [(1, _)] rfl
  · exact flag_pack [(2, 3), (2, 0), (1, _), (1, _), (1, _)] entry.timerSet [] rfl
  · exact Scale.reading_of_readingRaw htemperature (fun raw => raw ≤ Scale.temperatureLimit)
      (fun _ h => h) (by decide)

end ClimateLink
