import ClimateLink.Proofs.Frame.Offsets
import ClimateLink.Proofs.Packet.Outline
import ClimateLink.Proofs.Rules

/-!
# The grammar of payloads

For each family, the rules that the bytes of a payload have to obey, in the order in which they
are checked, and the outline that the bytes have then.

**Theorem (`Control.checks_read`).** A control payload is read if its sections fill it exactly and
its entries are wide enough. Its outline has as many slices as the head says, each of them where
the head places it.

**Theorem (`Extended.checks_read`).** An extended payload is read if what follows its sub-type is
a request or records that say their own length. What may be left over behind the records depends
on the sub-type.
-/

namespace ClimateLink

open Wire

/-! ## Control payloads -/

namespace Control

/-- What the offsets of a head hold. -/
def Head.of (data : Bytes) : Head :=
  ⟨data.getD 0 0, (wordAt data 2).toNat, (wordAt data 4).toNat, (wordAt data 6).toNat⟩

/-- The width that entries of a sub-type need. -/
def neededWidth (subType : UInt8) : Nat :=
  if subType = 0x21 then 8 else if subType = 0x23 then 10 else 4

/-- The rules of a control payload. -/
def rules (data : Bytes) : List (Rule Malformed) :=
  let head := Head.of data
  [⟨8 ≤ data.length, .truncated .controlHead⟩,
    ⟨head.subType ∈ [0x20, 0x21, 0x22, 0x23], .unknownControlSubType head.subType⟩,
    ⟨data.length - 8 = head.normal + head.width * head.count,
      .sectionLength head.normal head.count head.width (data.length - 8)⟩,
    ⟨head.count = 0 ∨ neededWidth head.subType ≤ head.width,
      .entryWidth head.subType (neededWidth head.subType) head.width⟩]

/-- The slice of an entry: behind the head, the normal section and the entries before it. -/
def sliceAt (data : Bytes) (i : Nat) : Bytes :=
  let head := Head.of data
  (data.drop (8 + head.normal + head.width * i)).take head.width

/-- A control payload has one slice for each entry. -/
inductive Outlined (data : Bytes) : Outline → Prop
  | entries {kind : Kind} (known : kind.code = (Head.of data).subType) :
    Outlined data (.entries kind ((List.range (Head.of data).count).map (sliceAt data)))

theorem Head.read_eq (data : Bytes) : Head.read data =
    if data.length < 8 then .error (.truncated .controlHead)
    else .ok (Head.of data, data.drop 8) := by
  match data with
  | s :: r :: n0 :: n1 :: w0 :: w1 :: c0 :: c1 :: body =>
    rw [if_neg (by simp)]
    rfl
  | [] | [_] | [_, _] | [_, _, _] | [_, _, _, _] | [_, _, _, _, _] | [_, _, _, _, _, _]
  | [_, _, _, _, _, _, _] => rfl

theorem slices_eq_map (width count : Nat) (bs : Bytes) :
    slices width count bs = (List.range count).map fun i => (bs.drop (width * i)).take width := by
  induction count generalizing bs with
  | zero => rfl
  | succ count ih =>
    rw [slices, ih, List.range_succ_eq_map, List.map_cons, List.map_map]
    simp [Function.comp_def, List.drop_drop, Nat.mul_succ, Nat.add_comm]

theorem Kind.ofCode?_eq_some_iff {n : UInt8} {kind : Kind} :
    Kind.ofCode? n = some kind ↔ kind.code = n := by
  constructor
  · intro h
    simpa using List.find?_some h
  · rintro rfl
    exact Kind.ofCode?_code kind

theorem Kind.width_eq (kind : Kind) : kind.width = neededWidth kind.code := by
  cases kind <;> rfl

theorem exists_kind_iff {n : UInt8} :
    (∃ kind : Kind, kind.code = n) ↔ n ∈ ([0x20, 0x21, 0x22, 0x23] : List UInt8) := by
  simp only [List.mem_cons, List.not_mem_nil, or_false]
  constructor
  · rintro ⟨_ | _ | _ | _, rfl⟩ <;> simp [Kind.code]
  · rintro (rfl | rfl | rfl | rfl)
    · exact ⟨.zoneControl, rfl⟩
    · exact ⟨.zoneStatus, rfl⟩
    · exact ⟨.acControl, rfl⟩
    · exact ⟨.acStatus, rfl⟩

theorem length_sliceAt {data : Bytes} (long : 8 ≤ data.length)
    (filled : data.length - 8 = (Head.of data).normal + (Head.of data).width * (Head.of data).count)
    {i : Nat} (h : i < (Head.of data).count) :
    (sliceAt data i).length = (Head.of data).width := by
  have inside : (Head.of data).width * (i + 1) ≤ (Head.of data).width * (Head.of data).count :=
    Nat.mul_le_mul_left _ h
  rw [Nat.mul_succ] at inside
  rw [sliceAt, List.length_take_of_le]
  rw [List.length_drop]
  omega

theorem map_read?_sliceAt {α : Type} [Entry α] {data : Bytes} (long : 8 ≤ data.length)
    (filled : data.length - 8 = (Head.of data).normal + (Head.of data).width * (Head.of data).count)
    (wide : (Head.of data).count = 0 ∨ Entry.width α ≤ (Head.of data).width) :
    ((List.range (Head.of data).count).map (sliceAt data)).map Entry.read? =
      (readEntries α (Head.of data) (data.drop 8)).map some := by
  have placed : (List.range (Head.of data).count).map (sliceAt data) =
      slices (Head.of data).width (Head.of data).count
        ((data.drop 8).drop (Head.of data).normal) := by
    rw [slices_eq_map]
    simp only [List.drop_drop]
    rfl
  rw [readEntries, ← placed]
  refine map_eq_map_some_filterMap fun slice among => ?_
  obtain ⟨i, inside, rfl⟩ := List.mem_map.1 among
  have below := List.mem_range.1 inside
  rw [Entry.isSome_read?, length_sliceAt long filled below]
  exact wide.resolve_left (Nat.ne_of_gt (Nat.zero_lt_of_lt below))

theorem means_readKind {data : Bytes} (long : 8 ≤ data.length)
    (filled : data.length - 8 = (Head.of data).normal + (Head.of data).width * (Head.of data).count)
    {kind : Kind} (wide : (Head.of data).count = 0 ∨ kind.width ≤ (Head.of data).width) :
    (Outline.entries kind ((List.range (Head.of data).count).map (sliceAt data))).Means
      (readKind (Head.of data) (data.drop 8) kind) := by
  cases kind with
  | zoneControl => exact .zoneControl (map_read?_sliceAt long filled wide)
  | zoneStatus => exact .zoneStatus (map_read?_sliceAt long filled wide)
  | acControl => exact .acControl (map_read?_sliceAt long filled wide)
  | acStatus => exact .acStatus (map_read?_sliceAt long filled wide)

theorem read_eq {data : Bytes} (long : 8 ≤ data.length) {kind : Kind}
    (known : kind.code = (Head.of data).subType) : read data =
      if data.length - 8 ≠ (Head.of data).normal + (Head.of data).width * (Head.of data).count then
        .error (.sectionLength (Head.of data).normal (Head.of data).count (Head.of data).width
          (data.length - 8))
      else if 0 < (Head.of data).count ∧ (Head.of data).width < kind.width then
        .error (.entryWidth (Head.of data).subType kind.width (Head.of data).width)
      else .ok (readKind (Head.of data) (data.drop 8) kind) := by
  rw [read, Head.read_eq, if_neg (Nat.not_lt.2 long), ← List.length_drop]
  simp only [bind, Except.bind, Kind.ofCode?_eq_some_iff.2 known]

/-- **The grammar of control payloads.** A payload is read exactly if it obeys the rules, and is
then what its outline means; otherwise the fault is that of the first rule it breaks. -/
theorem checks_read (data : Bytes) :
    Checks (read data) (rules data) fun payload =>
      ∃ outline, Outlined data outline ∧ outline.Means payload := by
  refine .rule (fun short => ?_) fun long => ?_
  · rw [read, Head.read_eq, if_pos (Nat.not_le.1 short)]
    rfl
  refine .rule (fun unknown => ?_) fun known => ?_
  · have none_found : Kind.ofCode? (Head.of data).subType = none := by
      rw [Option.eq_none_iff_forall_ne_some]
      exact fun kind found => unknown (exists_kind_iff.1 ⟨kind, Kind.ofCode?_eq_some_iff.1 found⟩)
    rw [read, Head.read_eq, if_neg (Nat.not_lt.2 long)]
    simp only [bind, Except.bind, none_found]
  obtain ⟨kind, known⟩ := exists_kind_iff.2 known
  have needed : kind.width = neededWidth (Head.of data).subType := known ▸ kind.width_eq
  rw [read_eq long known, needed]
  refine .rule (fun unfilled => if_pos unfilled) fun filled => ?_
  rw [if_neg (not_not_intro filled)]
  refine .rule (fun narrow => if_pos ?_) fun wide => ?_
  · exact ⟨Nat.pos_of_ne_zero fun none => narrow (.inl none),
      Nat.not_le.1 fun wide => narrow (.inr wide)⟩
  rw [if_neg fun narrow => wide.elim (Nat.ne_of_gt narrow.1) (Nat.not_le.2 narrow.2)]
  exact .done ⟨_, .entries known, means_readKind long filled (needed ▸ wide)⟩

end Control

/-! ## Extended payloads -/

namespace Extended

/-- The requests of a kind: a unit's error is asked for by its number, a version without one. -/
def Kind.Asks : Kind → Option UInt8 → Prop
  | .acAbility, _ | .zoneName, _ => True
  | .acError, number => number.isSome
  | .version, number => number = none

/-- The records that a body of a kind holds, and what may be left over behind them. -/
def Kind.Holds : Kind → List Record → (padding : Bytes) → Prop
  | .acAbility, records, padding => (∀ r ∈ records, 24 ≤ r.content.length) ∧
      padding.length ≤ 2 ∧ 2 ≤ (Record.join records ++ padding).length
  | .acError, records, _ | .version, records, _ => ∃ r, records = [r]
  | .zoneName, records, padding => records ≠ [] ∧ padding = []

/-- A body is a request, or records and what is left over. -/
inductive Kind.Outlined (kind : Kind) (body : Bytes) : Outline → Prop
  | request {number : Option UInt8} (asks : kind.Asks number) (filled : body = number.toList) :
    Outlined kind body (.request kind number)
  | records {records : List Record} {padding : Bytes} (holds : kind.Holds records padding)
    (filled : body = Record.join records ++ padding) : Outlined kind body (.records kind records)

/-- The outline of an extended payload is that of the body behind its sub-type. -/
def Outlined (data : Bytes) (outline : Outline) : Prop :=
  ∃ kind : Kind, kind.code = wordAt data 0 ∧ kind.Outlined (data.drop headSize) outline

/-- The rules of a body behind its sub-type. -/
def bodyRules (subType : UInt16) (body : Bytes) : List (Rule Malformed) :=
  if subType = 0xFF11 then
    [⟨body.length ≤ 2 ∨ ∃ records padding, body = Record.join records ++ padding ∧
        records ≠ [] ∧ (∀ r ∈ records, 24 ≤ r.content.length) ∧ padding.length ≤ 2,
      .truncated .abilityRecord⟩]
  else if subType = 0xFF10 then
    [⟨1 ≤ body.length, .truncated .errorUnit⟩,
      ⟨body.length = 1 ∨ 2 ≤ body.length ∧ (body.getD 1 0).toNat ≤ body.length - 2,
        .truncated .errorText⟩]
  else if subType = 0xFF13 then
    [⟨body.length ≤ 1 ∨ ∃ records, body = Record.join records, .truncated .zoneName⟩]
  else if subType = 0xFF30 then
    [⟨body.length = 0 ∨ 2 ≤ body.length ∧ (body.getD 1 0).toNat ≤ body.length - 2,
      .truncated .versionText⟩]
  else []

/-- The rules of an extended payload. -/
def rules (data : Bytes) : List (Rule Malformed) :=
  let subType := wordAt data 0
  [⟨2 ≤ data.length, .truncated .extendedSubType⟩,
    ⟨subType ∈ [0xFF11, 0xFF10, 0xFF13, 0xFF30], .unknownExtendedSubType subType⟩] ++
    bodyRules subType (data.drop 2)

/-- A body is read exactly if it obeys the rules of its kind, and is then what its outline
means. -/
abbrev Kind.Covered (kind : Kind) (body : Bytes) : Prop :=
  Checks (readKind kind body) (bodyRules kind.code body) fun payload =>
    ∃ outline, kind.Outlined body outline ∧ outline.Means payload

theorem Kind.ofCode?_eq_some_iff {n : UInt16} {kind : Kind} :
    Kind.ofCode? n = some kind ↔ kind.code = n := by
  constructor
  · intro h
    simpa using List.find?_some h
  · rintro rfl
    exact Kind.ofCode?_code kind

theorem exists_kind_iff {n : UInt16} :
    (∃ kind : Kind, kind.code = n) ↔ n ∈ ([0xFF11, 0xFF10, 0xFF13, 0xFF30] : List UInt16) := by
  simp only [List.mem_cons, List.not_mem_nil, or_false]
  constructor
  · rintro ⟨_ | _ | _ | _, rfl⟩ <;> simp [Kind.code]
  · rintro (rfl | rfl | rfl | rfl)
    · exact ⟨.acAbility, rfl⟩
    · exact ⟨.acError, rfl⟩
    · exact ⟨.zoneName, rfl⟩
    · exact ⟨.version, rfl⟩

/-- Nothing, or nothing but a number, is covered as a request if the kind has such a request. -/
theorem covered_request {kind : Kind} (number : Option UInt8) {payload : Payload}
    (asks : kind.Asks number) (read : readKind kind number.toList = .ok payload)
    (obeyed : Obeyed (bodyRules kind.code number.toList))
    (means : (Outline.request kind number).Means payload) : kind.Covered number.toList := by
  rw [Kind.Covered, read]
  exact .ok obeyed ⟨_, .request asks rfl, means⟩

/-- Abilities are read if there are records or nothing but what may be left over. -/
theorem exists_readAbilities_iff {body : Bytes} : (∃ units, readAbilities body = .ok units) ↔
    body.length ≤ 2 ∨ ∃ records padding, body = Record.join records ++ padding ∧
      records ≠ [] ∧ (∀ r ∈ records, 24 ≤ r.content.length) ∧ padding.length ≤ 2 := by
  simp only [readAbilities_eq_ok_iff]
  constructor
  · rintro ⟨units, records, padding, rfl, short, read⟩
    by_cases none : records = []
    · subst none
      exact .inl short
    · exact .inr ⟨records, padding, rfl, none,
        fun r among => (isSome_ability? r).1 (isSome_of_map_eq read among), short⟩
  · rintro (short | ⟨records, padding, rfl, -, wide, short⟩)
    · exact ⟨[], [], body, rfl, short, rfl⟩
    · exact ⟨_, records, padding, rfl, short,
        map_eq_map_some_filterMap fun r among => (isSome_ability? r).2 (wide r among)⟩

theorem covered_acAbility (body : Bytes) : Kind.acAbility.Covered body := by
  -- With less than two bytes the body is a request; with more it is all records.
  match body with
  | [] =>
    exact covered_request none trivial rfl (by simp [bodyRules, Kind.code, Obeyed])
      (.abilityRequest none)
  | [unit] =>
    exact covered_request (some unit) trivial rfl (by simp [bodyRules, Kind.code, Obeyed])
      (.abilityRequest (some unit))
  | unit :: n :: rest =>
    refine .map (.only (fun _ => readAbilities_fault) exists_readAbilities_iff fun units read =>
      readAbilities_eq_ok_iff.1 read) ?_
    rintro units ⟨records, padding, filled, short, read⟩
    have wide : ∀ r ∈ records, 24 ≤ r.content.length := fun r among =>
      (isSome_ability? r).1 (isSome_of_map_eq read among)
    have many : 2 ≤ (Record.join records ++ padding).length := by
      rw [← filled]
      exact Nat.le_add_left 2 rest.length
    exact ⟨_, .records ⟨wide, short, many⟩ filled, .abilities read⟩

theorem covered_zoneName (body : Bytes) : Kind.zoneName.Covered body := by
  match body with
  | [] =>
    exact covered_request none trivial rfl (by simp [bodyRules, Kind.code, Obeyed])
      (.nameRequest none)
  | [zone] =>
    exact covered_request (some zone) trivial rfl (by simp [bodyRules, Kind.code, Obeyed])
      (.nameRequest (some zone))
  | zone :: n :: rest =>
    refine .map (.only (fun _ => readNames_fault) ?_ fun entries read =>
      readNames_eq_ok_iff.1 read) ?_
    · simp only [readNames_eq_ok_iff]
      constructor
      · rintro ⟨entries, records, joined, -⟩
        exact .inr ⟨records, joined⟩
      · rintro (short | ⟨records, joined⟩)
        · exact absurd short (by simp)
        · exact ⟨_, records, joined, rfl⟩
    rintro entries ⟨records, joined, rfl⟩
    refine ⟨_, .records ⟨?_, rfl⟩ (joined.trans (List.append_nil _).symm), .names records⟩
    -- A body of two bytes or more has a record.
    rintro rfl
    cases joined

/-- A text is read if its bytes are there. Further bytes are passed over. -/
theorem checks_readText (part : Part) (number n : UInt8) (rest : Bytes) {fits : Prop}
    (decides : fits ↔ n.toNat ≤ rest.length) :
    Checks (readText part (n :: rest)) [⟨fits, .truncated part⟩] fun text =>
      ∃ (r : Record) (padding : Bytes), number :: n :: rest = Record.join [r] ++ padding ∧
        r.number = number ∧ text.1 = Text.ofUtf8 r.content := by
  rw [readText_eq part number]
  refine .rule (fun beyond => if_neg fun fits => beyond (decides.2 fits)) fun fits => ?_
  rw [if_pos (decides.1 fits)]
  refine .done ⟨.ofCount number n rest, rest.drop n.toNat, ?_, rfl, rfl⟩
  rw [Record.join, List.flatMap_singleton, Record.bytes_ofCount (decides.1 fits)]

theorem covered_acError (body : Bytes) : Kind.acError.Covered body := by
  match body with
  | [] => exact .rule (fun _ => rfl) fun some => absurd some (by simp)
  | [unit] =>
    exact covered_request (some unit) rfl rfl (by simp [bodyRules, Kind.code, Obeyed])
      (.errorRequest unit)
  | unit :: n :: rest =>
    refine .rule (fun none => absurd (Nat.le_add_left 1 _) none) fun _ => ?_
    refine (checks_readText .errorText unit n rest (by simp)).map ?_
    rintro ⟨text, _⟩ ⟨r, padding, filled, rfl, rfl⟩
    exact ⟨_, .records ⟨r, rfl⟩ filled, .error r⟩

theorem covered_version (body : Bytes) : Kind.version.Covered body := by
  match body with
  | [] =>
    exact covered_request none rfl rfl (by simp [bodyRules, Kind.code, Obeyed]) .versionRequest
  | [update] => exact .rule (fun _ => rfl) fun whole => absurd whole (by simp)
  | update :: n :: rest =>
    refine (checks_readText .versionText update n rest (by simp)).map ?_
    rintro ⟨text, _⟩ ⟨r, padding, filled, rfl, rfl⟩
    exact ⟨_, .records ⟨r, rfl⟩ filled, .version r⟩

/-- **The grammar of extended payloads.** A payload is read exactly if it obeys the rules, and is
then what its outline means; otherwise the fault is that of the first rule it breaks. -/
theorem checks_read (data : Bytes) :
    Checks (read data) (rules data) fun payload =>
      ∃ outline, Outlined data outline ∧ outline.Means payload := by
  match data with
  | [] | [_] => exact .rule (fun _ => rfl) fun long => absurd long (by simp)
  | s0 :: s1 :: body =>
    refine .rule (fun short => absurd (Nat.le_add_left 2 _) short) fun _ => ?_
    refine .rule (fun unknown => ?_) fun known => ?_
    · have none_found : Kind.ofCode? (word s0 s1) = none := by
        rw [Option.eq_none_iff_forall_ne_some]
        exact fun kind found =>
          unknown (exists_kind_iff.1 ⟨kind, Kind.ofCode?_eq_some_iff.1 found⟩)
      simp only [read, none_found]
      rfl
    obtain ⟨kind, known⟩ := exists_kind_iff.2 known
    have found : Kind.ofCode? (word s0 s1) = some kind := Kind.ofCode?_eq_some_iff.2 known
    have covered : kind.Covered body := by
      cases kind with
      | acError => exact covered_acError body
      | acAbility => exact covered_acAbility body
      | zoneName => exact covered_zoneName body
      | version => exact covered_version body
    rw [Kind.Covered, known] at covered
    simp only [read, found]
    refine covered.mono ?_
    rintro payload ⟨outline, outlined, means⟩
    exact ⟨outline, ⟨kind, known, outlined⟩, means⟩

end Extended

end ClimateLink
