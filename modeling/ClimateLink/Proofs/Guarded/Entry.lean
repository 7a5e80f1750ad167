import ClimateLink.Proofs.Guarded.Basic
import ClimateLink.Proofs.Packet.Canonical

/-!
# Guarded entries

Entries of fixed layout are read and written with guarded operations. Reading takes each byte by
its offset in the slice; that the slice is wide enough is checked elsewhere, before there are
slices. Writing narrows a scaled number to its field; that it fits is what the limit of the field is
for. So both are theorems here: a slice from which an entry can be read gives it without a breach
(`Layout.read_of`), and an entry is written, or refused, without one (`Layout.write_eq`).
-/

namespace ClimateLink.Guarded

open Wire

/-! ## Scaled numbers -/

/-- The number nearest to `x`, kept between the numbers that a refusal can report, if it is one of
those from zero to `limit`. -/
def checked (field : Field) (limit : Nat) (x : Float) : Except Unencodable Int :=
  match Decimal.nearest? x with
  | none => .error (.outOfRange field Scale.reportMax)
  | some n =>
    let value := max Scale.reportMin (min n Scale.reportMax)
    if value < 0 ∨ limit < value then .error (.outOfRange field value) else .ok value

theorem checked_eq {limit : Nat} (small : limit < Scale.reportMax) (field : Field) (x : Float) :
    checked field limit x = Int.ofNat <$> Scale.toRaw field limit x := by
  have least : Scale.reportMin < 0 := by decide
  unfold checked Scale.toRaw
  cases Decimal.nearest? x with
  | none => rfl
  | some n =>
    by_cases inside : 0 ≤ n ∧ n ≤ limit
    · -- What is within the limit is not changed by keeping it reportable.
      have kept : max Scale.reportMin (min n Scale.reportMax) = n := by omega
      simp only [kept, if_pos inside, if_neg (show ¬(n < 0 ∨ limit < n) by omega)]
      exact congrArg Except.ok (Int.toNat_of_nonneg inside.1).symm
    · have outside : max Scale.reportMin (min n Scale.reportMax) < 0 ∨
          limit < max Scale.reportMin (min n Scale.reportMax) := by
        omega
      simp only [if_neg inside, if_pos outside]
      rfl

/-- A scaled number from zero to `limit`, for a field with `bound` values. -/
def scaled (bound : Nat) (field : Field) (limit : Nat) (x : Float) :
    ExceptT Unencodable Guarded Nat := do
  narrow bound (← sure (checked field limit x))

/-- **Narrowing a scaled number loses nothing**, if the limit fits the field. -/
theorem scaled_eq {bound limit : Nat} (fits : limit < bound) (small : limit < Scale.reportMax)
    (field : Field) (x : Float) :
    scaled bound field limit x = sure (Scale.toRaw field limit x) := by
  rw [scaled, checked_eq small]
  cases raw : Scale.toRaw field limit x with
  | error e => rfl
  | ok n =>
    have within : n < bound := Nat.lt_of_le_of_lt (Scale.toRaw_le raw) fits
    show (liftM (narrow bound n) : ExceptT Unencodable Guarded Nat) = _
    rw [narrow_of within]
    rfl

/-- A fraction as hundredths. -/
def percentage (field : Field) (limit : Nat) (fraction : Float) :
    ExceptT Unencodable Guarded UInt8 :=
  UInt8.ofNat <$> scaled 256 field limit (fraction * 100.0)

/-- Degrees as tenths above ten. -/
def setpoint (field : Field) (degrees : Float) : ExceptT Unencodable Guarded UInt8 :=
  UInt8.ofNat <$> scaled 256 field 255 (degrees * 10.0 - 100.0)

/-- Degrees as tenths above minus fifty, unless there are none. -/
def reading (field : Field) : Option Float → ExceptT Unencodable Guarded UInt16
  | some degrees =>
    UInt16.ofNat <$> scaled 65536 field Scale.temperatureLimit.toNat (degrees * 10.0 + 500.0)
  | none => pure Scale.noTemperature

/-- A whole number in a byte, short of the one that stands for no value. -/
def whole (field : Field) (value : Float) : ExceptT Unencodable Guarded UInt8 :=
  UInt8.ofNat <$> scaled 256 field 254 value

theorem percentage_eq {limit : Nat} (fits : limit < 256) (field : Field) (fraction : Float) :
    percentage field limit fraction = sure (Scale.percentageRaw field limit fraction) := by
  rw [percentage, scaled_eq fits (Int.lt_trans (Int.ofNat_lt.2 fits) (by decide)), map_sure]
  rfl

theorem setpoint_eq (field : Field) (degrees : Float) :
    setpoint field degrees = sure (Scale.setpointRaw field degrees) := by
  rw [setpoint, scaled_eq (by decide) (by decide), map_sure]
  rfl

theorem reading_eq (field : Field) (degrees : Option Float) :
    reading field degrees = sure (Scale.readingRaw field degrees) := by
  cases degrees with
  | none => rfl
  | some degrees =>
    rw [reading, scaled_eq (by decide) (by decide), map_sure]
    rfl

theorem whole_eq (field : Field) (value : Float) :
    whole field value = sure (Scale.wholeRaw field value) := by
  rw [whole, scaled_eq (by decide) (by decide), map_sure]
  rfl

/-! ## Numbers that fit their place -/

theorem code_lt {α : Type} [Coded α] {width : Nat}
    (fit : ∀ a ∈ Coded.members (α := α), (Coded.code a).toNat < 1 <<< width) (a : α) :
    (Coded.code a).toNat < 1 <<< width := fit a (mem_members a)

theorem fit_cons {width n : Nat} {fields : List (Nat × Nat)} (wide : 0 < width)
    (fits : n < 1 <<< width) (others : ∀ f ∈ fields, Fits f) :
    ∀ f ∈ (width, n) :: fields, Fits f :=
  List.forall_mem_cons.2 ⟨⟨wide, fits⟩, others⟩

theorem fit_bit (b : Bool) {fields : List (Nat × Nat)}
    (others : ∀ f ∈ fields, Fits f) :
    ∀ f ∈ (1, b.toNat) :: fields, Fits f :=
  fit_cons Nat.one_pos b.toNat_lt others

theorem fit_nil : ∀ f ∈ ([] : List (Nat × Nat)), Fits f := by
  rintro f ⟨⟩

/-! ## Layouts -/

/-- A kind of entry that is read and written with guarded operations. -/
class Layout (α : Type) [Entry α] where
  /-- The entry at the front of a slice. -/
  read : Bytes → Guarded α
  /-- The bytes of an entry. -/
  write : α → ExceptT Unencodable Guarded Bytes
  /-- No bounds are left in a slice that is wide enough. -/
  read_of : ∀ {bs : Bytes} {entry : α}, Entry.read? bs = some entry → read bs = pure entry
  /-- No bounds are left in writing. -/
  write_eq : ∀ entry, write entry = sure (Entry.write entry)

/-! ## Zone requests -/

/-- The byte that holds a value beside a change. -/
def changeValue : ZoneChange → Option Float → ExceptT Unencodable Guarded UInt8
  | .openPercentage, some v => percentage .zoneOpenPercentage 100 v
  | .targetSetpoint, some v => setpoint .zoneTargetSetpoint v
  | .openPercentage, none | .targetSetpoint, none => throw (.missingValue .zoneControlValue)
  | _, some v => whole .zoneControlValue v
  | _, none => pure Scale.unused

theorem changeValue_eq (change : ZoneChange) (value : Option Float) :
    changeValue change value = sure (ZoneControl.writeValue change value) := by
  cases value with
  | none => cases change <;> rfl
  | some v =>
    cases change with
    | openPercentage => exact percentage_eq (by decide) _ v
    | targetSetpoint => exact setpoint_eq _ v
    | keep | decrease | increase => exact whole_eq _ v

instance : Layout ZoneControl where
  read b := do
    let change := Coded.ofCode (← field (← index b 1) 0 3)
    let raw ← index b 2
    return {
      zone := ← field (← index b 0) 2 6
      change := change
      power := Coded.ofCode (← field (← index b 1) 5 3)
      value := ZoneControl.readValue change raw }
  write entry := do
    let value ← changeValue entry.change entry.value
    let zone ← sure (zoneNumber entry.zone)
    let settings ← pack
      [(3, (Coded.code entry.change).toNat), (2, 0), (3, (Coded.code entry.power).toNat)]
    return [UInt8.ofNat zone, settings, value, 0]
  read_of {bs entry} h := by
    rcases bs with _ | ⟨b0, _ | ⟨b1, _ | ⟨b2, _ | ⟨b3, rest⟩⟩⟩⟩
    all_goals cases h
    rfl
  write_eq entry := by
    refine bind_sure (changeValue_eq _ _) fun value _ => ?_
    refine bind_sure rfl fun zone _ => ?_
    rw [pack_of rfl (fit_cons (by decide) (code_lt (by decide) _)
      (fit_cons (by decide) (by decide) (fit_cons (by decide) (code_lt (by decide) _) fit_nil)))]
    rfl

/-! ## Zone reports -/

/-- The byte that holds the setpoint of a zone, if it has one. -/
def zoneSetpoint : Option Float → ExceptT Unencodable Guarded UInt8
  | some v => setpoint .zoneSetpoint v
  | none => pure Scale.unused

theorem zoneSetpoint_eq (value : Option Float) :
    zoneSetpoint value = sure (ZoneStatus.writeSetpoint value) := by
  cases value with
  | none => rfl
  | some v => exact setpoint_eq _ v

instance : Layout ZoneStatus where
  read b := do
    let raw ← index b 2
    let temperature := Scale.temperature (← wordAt b 4)
    return {
      power := Coded.ofCode (← field (← index b 0) 0 2)
      zone := ← field (← index b 0) 2 6
      method := Coded.ofCode (← field (← index b 1) 0 1)
      openPercentage := Scale.percentage (← field (← index b 1) 1 7)
      setpoint := if raw = Scale.unused then none else some (Scale.setpoint raw)
      hasSensor := ← flag (← index b 3) 0
      temperature := if temperature ≤ Scale.zoneTemperatureMax then some temperature else none
      spillActive := ← flag (← index b 6) 6
      lowBattery := ← flag (← index b 6) 7 }
  write entry := do
    let opening ← percentage .zoneOpenPercentage 127 entry.openPercentage
    let setpoint ← zoneSetpoint entry.setpoint
    let temperature ← reading .zoneTemperature entry.temperature
    let zone ← sure (zoneNumber entry.zone)
    let b0 ← pack [(2, (Coded.code entry.power).toNat), (6, zone)]
    let b1 ← pack [(1, (Coded.code entry.method).toNat), (7, opening.toNat)]
    let b3 ← pack [(1, entry.hasSensor.toNat), (7, 0)]
    let b6 ← pack [(6, 0), (1, entry.spillActive.toNat), (1, entry.lowBattery.toNat)]
    return [b0, b1, setpoint, b3] ++ wordBytes temperature ++ [b6, 0]
  read_of {bs entry} h := by
    rcases bs with _ | ⟨b0, _ | ⟨b1, _ | ⟨b2, _ | ⟨b3, _ | ⟨b4, _ | ⟨b5, _ | ⟨b6, _ |
      ⟨b7, rest⟩⟩⟩⟩⟩⟩⟩⟩
    all_goals cases h
    rfl
  write_eq entry := by
    refine bind_sure (percentage_eq (by decide) _ _) fun opening written => ?_
    refine bind_sure (zoneSetpoint_eq _) fun setpoint _ => ?_
    refine bind_sure (reading_eq _ _) fun temperature _ => ?_
    refine bind_sure rfl fun zone numbered => ?_
    obtain ⟨rfl, small⟩ := zoneNumber_eq_ok numbered
    have below : opening.toNat < 128 := Nat.lt_succ_of_le (Scale.toNat_percentageRaw_le written)
    rw [pack_of rfl (fit_cons (by decide) (code_lt (by decide) _)
        (fit_cons (by decide) small fit_nil)),
      pack_of rfl (fit_cons (by decide) (code_lt (by decide) _)
        (fit_cons (by decide) below fit_nil)),
      pack_of rfl (fit_bit _ (fit_cons (by decide) (by decide) fit_nil)),
      pack_of rfl (fit_cons (by decide) (by decide) (fit_bit _ (fit_bit _ fit_nil)))]
    rfl

/-! ## Requests to air conditioners -/

/-- The byte that holds the setpoint beside a request. -/
def requestedSetpoint : SetpointRequest → Option Float → ExceptT Unencodable Guarded UInt8
  | .change, some v => setpoint .acSetpoint v
  | .change, none => throw (.missingValue .acSetpoint)
  | .keep, _ | .invalidate, _ => pure Scale.unused

theorem requestedSetpoint_eq (request : SetpointRequest) (value : Option Float) :
    requestedSetpoint request value = sure (AcControl.writeSetpoint request value) := by
  cases request with
  | keep | invalidate => rfl
  | change =>
    cases value with
    | none => rfl
    | some v => exact setpoint_eq _ v

instance : Layout AcControl where
  read b := do
    return {
      power := Coded.ofCode (← field (← index b 0) 0 4)
      unit := ← field (← index b 0) 4 4
      mode := Coded.ofCode (← field (← index b 1) 0 4)
      fan := Coded.ofCode (← field (← index b 1) 4 4)
      setpointRequest := Coded.ofCode (← index b 2)
      setpoint := some (Scale.setpoint (← index b 3)) }
  write entry := do
    let setpoint ← requestedSetpoint entry.setpointRequest entry.setpoint
    let unit ← sure (acNumber entry.unit)
    let b0 ← pack [(4, (Coded.code entry.power).toNat), (4, unit)]
    let b1 ← pack [(4, (Coded.code entry.mode).toNat), (4, (Coded.code entry.fan).toNat)]
    return [b0, b1, Coded.code entry.setpointRequest, setpoint]
  read_of {bs entry} h := by
    rcases bs with _ | ⟨b0, _ | ⟨b1, _ | ⟨b2, _ | ⟨b3, rest⟩⟩⟩⟩
    all_goals cases h
    rfl
  write_eq entry := by
    refine bind_sure (requestedSetpoint_eq _ _) fun setpoint _ => ?_
    refine bind_sure rfl fun unit numbered => ?_
    obtain ⟨rfl, small⟩ := acNumber_eq_ok numbered
    rw [pack_of rfl (fit_cons (by decide) (code_lt (by decide) _)
        (fit_cons (by decide) small fit_nil)),
      pack_of rfl (fit_cons (by decide) (code_lt (by decide) _)
        (fit_cons (by decide) (code_lt (by decide) _) fit_nil))]
    rfl

/-! ## Reports of air conditioners -/

instance : Layout AcStatus where
  read b := do
    let raw ← wordAt b 4
    return {
      power := Coded.ofCode (← field (← index b 0) 0 4)
      unit := ← field (← index b 0) 4 4
      mode := Coded.ofCode (← field (← index b 1) 0 4)
      fan := Coded.ofCode (← field (← index b 1) 4 4)
      setpoint := Scale.setpoint (← index b 2)
      turboActive := ← flag (← index b 3) 4
      bypassActive := ← flag (← index b 3) 5
      spillActive := ← flag (← index b 3) 6
      timerSet := ← flag (← index b 3) 7
      temperature := if raw ≤ Scale.temperatureLimit then some (Scale.temperature raw) else none
      errorCode := ← wordAt b 6 }
  write entry := do
    let setpoint ← setpoint .acSetpoint entry.setpoint
    let temperature ← reading .acTemperature entry.temperature
    let unit ← sure (acNumber entry.unit)
    let b0 ← pack [(4, (Coded.code entry.power).toNat), (4, unit)]
    let b1 ← pack [(4, (Coded.code entry.mode).toNat), (4, (Coded.code entry.fan).toNat)]
    let b3 ← pack [(2, 3), (2, 0), (1, entry.turboActive.toNat), (1, entry.bypassActive.toNat),
      (1, entry.spillActive.toNat), (1, entry.timerSet.toNat)]
    return [b0, b1, setpoint, b3] ++ wordBytes temperature ++ wordBytes entry.errorCode ++
      [0x80, 0x00]
  read_of {bs entry} h := by
    rcases bs with _ | ⟨b0, _ | ⟨b1, _ | ⟨b2, _ | ⟨b3, _ | ⟨b4, _ | ⟨b5, _ | ⟨b6, _ | ⟨b7, _ |
      ⟨b8, _ | ⟨b9, rest⟩⟩⟩⟩⟩⟩⟩⟩⟩⟩
    all_goals cases h
    rfl
  write_eq entry := by
    refine bind_sure (setpoint_eq _ _) fun setpoint _ => ?_
    refine bind_sure (reading_eq _ _) fun temperature _ => ?_
    refine bind_sure rfl fun unit numbered => ?_
    obtain ⟨rfl, small⟩ := acNumber_eq_ok numbered
    rw [pack_of rfl (fit_cons (by decide) (code_lt (by decide) _)
        (fit_cons (by decide) small fit_nil)),
      pack_of rfl (fit_cons (by decide) (code_lt (by decide) _)
        (fit_cons (by decide) (code_lt (by decide) _) fit_nil)),
      pack_of rfl (fit_cons (by decide) (by decide) (fit_cons (by decide) (by decide)
        (fit_bit _ (fit_bit _ (fit_bit _ (fit_bit _ fit_nil))))))]
    rfl

end ClimateLink.Guarded
