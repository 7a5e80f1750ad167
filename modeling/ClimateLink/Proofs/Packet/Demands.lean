import ClimateLink.Proofs.Decimal.Nearest
import ClimateLink.Proofs.Packet.Canonical
import ClimateLink.Proofs.Rules

/-!
# What entries and records have to obey

For each kind of entry and record, the rules that it has to obey to be written, in the order in
which they are checked, each with the fault of breaking it. In an entry, the number of the zone or
the unit comes last.

- `Scale.fits_iff`: a number fits if it is finite and what it is rounded to is from zero to the
  limit.
- `checks_write` in the namespace of each kind of entry: an entry is written if it obeys its rules,
  and the fault is that of the first it breaks otherwise.
-/

namespace ClimateLink

open Wire

/-! ## Numbers -/

namespace Scale

/-- The number is finite, and less than a half outside of the integers from zero to the limit. -/
def Fits (limit : Nat) (x : Float) : Prop :=
  ∃ d, Decimal.Binary.ofFloat? x = some d ∧ -(1 / 2) < d.value ∧ d.value < limit + 1 / 2

/-- The integer that a refusal reports: the nearest one, as far as it has 64 bits, and the largest
of those for what is not finite. -/
def reported (x : Float) : Int :=
  (Decimal.nearest? x).elim reportMax fun n => max reportMin (min n reportMax)

/-- A number has to fit a field. -/
def demand (field : Field) (limit : Nat) (x : Float) : Rule Unencodable :=
  ⟨Fits limit x, .outOfRange field (reported x)⟩

/-- **A number fits** exactly if what it is rounded to is from zero to the limit. -/
theorem fits_iff {limit : Nat} {x : Float} :
    Fits limit x ↔ ∃ n, Decimal.nearest? x = some n ∧ 0 ≤ n ∧ n ≤ limit := by
  constructor
  · rintro ⟨d, found, within⟩
    exact ⟨d.nearest, by rw [Decimal.nearest?, found]; rfl, (d.nearest_within_iff limit).2 within⟩
  · rintro ⟨n, nearest, within⟩
    obtain ⟨d, found, rfl⟩ := Option.map_eq_some_iff.1 nearest
    exact ⟨d, found, (d.nearest_within_iff limit).1 within⟩

theorem checks_toRaw (field : Field) (limit : Nat) (x : Float) :
    Checks (toRaw field limit x) [demand field limit x] fun _ => True := by
  refine .rule (fun broken => ?_) fun fits => ?_
  · rw [toRaw, demand, reported]
    cases nearest : Decimal.nearest? x with
    | none => rfl
    | some n => exact if_neg fun within => broken (fits_iff.2 ⟨n, nearest, within⟩)
  · obtain ⟨n, nearest, within⟩ := fits_iff.1 fits
    simp only [toRaw, nearest]
    rw [if_pos within]
    exact .done trivial

/-- A fraction has to fit as hundredths. -/
def percentageDemand (field : Field) (limit : Nat) (v : Float) : Rule Unencodable :=
  demand field limit (v * 100.0)

/-- A setpoint has to fit a byte as tenths of a degree above ten. -/
def setpointDemand (field : Field) (v : Float) : Rule Unencodable :=
  demand field 255 (v * 10.0 - 100.0)

/-- A temperature has to be no more than 2000 tenths of a degree above minus fifty. -/
def temperatureDemand (field : Field) (v : Float) : Rule Unencodable :=
  demand field 2000 (v * 10.0 + 500.0)

theorem checks_percentageRaw (field : Field) (limit : Nat) (v : Float) :
    Checks (percentageRaw field limit v) [percentageDemand field limit v] fun _ => True :=
  (checks_toRaw ..).map fun _ _ => trivial

theorem checks_setpointRaw (field : Field) (v : Float) :
    Checks (setpointRaw field v) [setpointDemand field v] fun _ => True :=
  (checks_toRaw ..).map fun _ _ => trivial

theorem checks_readingRaw (field : Field) (reading : Option Float) :
    Checks (readingRaw field reading) (reading.toList.map (temperatureDemand field))
      fun _ => True := by
  cases reading with
  | none => exact .done trivial
  | some v => exact (checks_toRaw ..).map fun _ _ => trivial

theorem checks_wholeRaw (field : Field) (v : Float) :
    Checks (wholeRaw field v) [demand field 254 v] fun _ => True :=
  (checks_toRaw ..).map fun _ _ => trivial

end Scale

/-! ## Numbers of zones and units -/

/-- The number of a zone has to have six bits. -/
def zoneDemand (n : UInt8) : Rule Unencodable := ⟨n.toNat ≤ 63, .outOfRange .zoneNumber n.toNat⟩

/-- The number of a unit has to have four bits. -/
def unitDemand (n : UInt8) : Rule Unencodable := ⟨n.toNat ≤ 15, .outOfRange .acNumber n.toNat⟩

theorem checks_zoneNumber (n : UInt8) : Checks (zoneNumber n) [zoneDemand n] fun _ => True := by
  have small : n ≤ 63 ↔ (zoneDemand n).holds := UInt8.le_iff_toNat_le
  refine .rule (fun broken => if_neg (mt small.1 broken)) fun holds => ?_
  rw [zoneNumber, if_pos (small.2 holds)]
  exact .done trivial

theorem checks_acNumber (n : UInt8) : Checks (acNumber n) [unitDemand n] fun _ => True := by
  have small : n ≤ 15 ↔ (unitDemand n).holds := UInt8.le_iff_toNat_le
  refine .rule (fun broken => if_neg (mt small.1 broken)) fun holds => ?_
  rw [acNumber, if_pos (small.2 holds)]
  exact .done trivial

/-! ## Zone requests -/

namespace ZoneControl

/-- What a value has to obey beside a change. -/
def valueDemand : ZoneChange → Float → Rule Unencodable
  | .openPercentage => Scale.percentageDemand .zoneOpenPercentage 100
  | .targetSetpoint => Scale.setpointDemand .zoneTargetSetpoint
  | .keep | .decrease | .increase => Scale.demand .zoneControlValue 254

/-- What the value of a zone request has to obey: it has to be there if the change scales it. -/
def valueDemands (change : ZoneChange) (value : Option Float) : List (Rule Unencodable) :=
  ⟨change.isScaled = true → value.isSome = true, .missingValue .zoneControlValue⟩ ::
    value.toList.map (valueDemand change)

/-- The rules of a zone request. -/
def demands (entry : ZoneControl) : List (Rule Unencodable) :=
  valueDemands entry.change entry.value ++ [zoneDemand entry.zone]

theorem checks_writeValue (change : ZoneChange) (value : Option Float) :
    Checks (writeValue change value) (valueDemands change value) fun _ => True := by
  cases value with
  | none =>
    cases change with
    | openPercentage | targetSetpoint =>
      refine .rule (fun _ => rfl) fun present => ?_
      cases present rfl
    | keep | decrease | increase =>
      refine .rule (fun broken => (broken ?_).elim) fun _ => .done trivial
      rintro ⟨⟩
  | some v =>
    refine .rule (fun broken => (broken fun _ => rfl).elim) fun _ => ?_
    cases change with
    | openPercentage => exact Scale.checks_percentageRaw ..
    | targetSetpoint => exact Scale.checks_setpointRaw ..
    | keep | decrease | increase => exact Scale.checks_wholeRaw ..

/-- **A zone request is written** if it obeys its rules. -/
theorem checks_write (entry : ZoneControl) :
    Checks (Entry.write entry) entry.demands fun _ => True :=
  (checks_writeValue ..).bind fun _ _ => (checks_zoneNumber _).map fun _ _ => trivial

end ZoneControl

/-! ## Zone reports -/

namespace ZoneStatus

/-- The rules of a zone report. What is absent has nothing to obey. -/
def demands (entry : ZoneStatus) : List (Rule Unencodable) :=
  [Scale.percentageDemand .zoneOpenPercentage 127 entry.openPercentage] ++
    (entry.setpoint.toList.map (Scale.setpointDemand .zoneSetpoint) ++
      (entry.temperature.toList.map (Scale.temperatureDemand .zoneTemperature) ++
        [zoneDemand entry.zone]))

theorem checks_writeSetpoint (setpoint : Option Float) :
    Checks (writeSetpoint setpoint) (setpoint.toList.map (Scale.setpointDemand .zoneSetpoint))
      fun _ => True := by
  cases setpoint with
  | none => exact .done trivial
  | some v => exact Scale.checks_setpointRaw ..

theorem checks_write (entry : ZoneStatus) :
    Checks (Entry.write entry) entry.demands fun _ => True :=
  (Scale.checks_percentageRaw ..).bind fun _ _ => (checks_writeSetpoint _).bind fun _ _ =>
    (Scale.checks_readingRaw ..).bind fun _ _ => (checks_zoneNumber _).map fun _ _ => trivial

end ZoneStatus

/-! ## Requests to air conditioners -/

namespace AcControl

/-- What the setpoint of a request has to obey: nothing unless the request uses it, and to be there
if it does. -/
def setpointDemands (request : SetpointRequest) (setpoint : Option Float) :
    List (Rule Unencodable) :=
  if request.usesSetpoint then
    ⟨setpoint.isSome = true, .missingValue .acSetpoint⟩ ::
      setpoint.toList.map (Scale.setpointDemand .acSetpoint)
  else []

/-- The rules of a request to an air conditioner. -/
def demands (entry : AcControl) : List (Rule Unencodable) :=
  setpointDemands entry.setpointRequest entry.setpoint ++ [unitDemand entry.unit]

theorem checks_writeSetpoint (request : SetpointRequest) (setpoint : Option Float) :
    Checks (writeSetpoint request setpoint) (setpointDemands request setpoint) fun _ => True := by
  cases request with
  | keep | invalidate => exact .done trivial
  | change =>
    cases setpoint with
    | none =>
      refine .rule (fun _ => rfl) fun present => ?_
      cases present
    | some v => exact .rule (fun broken => (broken rfl).elim) fun _ => Scale.checks_setpointRaw ..

theorem checks_write (entry : AcControl) :
    Checks (Entry.write entry) entry.demands fun _ => True :=
  (checks_writeSetpoint ..).bind fun _ _ => (checks_acNumber _).map fun _ _ => trivial

end AcControl

/-! ## Reports of air conditioners -/

namespace AcStatus

/-- The rules of a report of an air conditioner. -/
def demands (entry : AcStatus) : List (Rule Unencodable) :=
  [Scale.setpointDemand .acSetpoint entry.setpoint] ++
    (entry.temperature.toList.map (Scale.temperatureDemand .acTemperature) ++
      [unitDemand entry.unit])

theorem checks_write (entry : AcStatus) :
    Checks (Entry.write entry) entry.demands fun _ => True :=
  (Scale.checks_setpointRaw ..).bind fun _ _ => (Scale.checks_readingRaw ..).bind fun _ _ =>
    (checks_acNumber _).map fun _ _ => trivial

end AcStatus

/-! ## Texts and records -/

/-- A text has to have no more bytes than a field holds. -/
def textDemand (field : Field) (limit : Nat) (text : String) : Rule Unencodable :=
  ⟨(Text.utf8 text).length ≤ limit, .textTooLong field⟩

namespace Extended

/-- A text takes its bytes and the one that counts them. -/
theorem checks_writeText (field : Field) (text : String) :
    Checks (writeText field text) [textDemand field 255 text] fun bytes =>
      bytes.length = 1 + (Text.utf8 text).length := by
  refine .rule (fun broken => if_neg broken) fun holds => ?_
  have fits : (Text.utf8 text).length ≤ 255 := holds
  rw [writeText, if_pos fits]
  exact .done (Nat.add_comm ..)

theorem checks_writeName (entry : ZoneName) :
    Checks (writeName entry) [textDemand .zoneName 255 entry.name] fun bytes =>
      bytes.length = 2 + (Text.utf8 entry.name).length := by
  refine (checks_writeText .zoneName entry.name).map fun text length => ?_
  rw [List.length_cons, length]
  omega

/-- An ability takes 26 bytes whatever its name. -/
theorem checks_writeAbility (unit : AcAbility) :
    Checks (writeAbility unit) [textDemand .acName 16 unit.name] fun bytes =>
      bytes.length = 26 := by
  refine .rule (fun broken => if_neg broken) fun holds => ?_
  have fits : (Text.utf8 unit.name).length ≤ nameSize := holds
  rw [writeAbility, if_pos fits]
  refine .done ?_
  simp only [nameSize] at fits ⊢
  simp only [List.length_append, List.length_replicate, List.length_cons, List.length_nil]
  omega

end Extended

end ClimateLink
