import ClimateLink.Proofs.Guarded.Entry
import ClimateLink.Proofs.Packet.Grammar

/-!
# Guarded payloads

Payloads are read and written with guarded operations: a cursor goes over the parts, entries are cut
out of a section, texts at their count, and records are read in a loop for as long as there are
any.

**Theorems (`readPayload_eq`, `writePayload_eq`).** For every string of bytes and every payload the
guarded operations end without a breach, in the result that `Payload.decode` and `Payload.encode`
give. What keeps the bounds of an operation is often checked far from it: the width of the entries
in a section only if there are any, the room for a name in an ability by the count in front of it.
-/

namespace ClimateLink.Guarded

open ClimateLink.Frame Wire

variable {ε α β : Type}

/-! ## A cursor -/

/-- The next `n` bytes, and those behind them. -/
def take (part : Part) (n : Nat) (bs : Bytes) : ExceptT Malformed Guarded (Bytes × Bytes) :=
  if bs.length < n then throw (.truncated part) else split bs n

def takeByte (part : Part) (bs : Bytes) : ExceptT Malformed Guarded (UInt8 × Bytes) := do
  let (front, rest) ← take part 1 bs
  return (← index front 0, rest)

def takeWord (part : Part) (bs : Bytes) : ExceptT Malformed Guarded (UInt16 × Bytes) := do
  let (front, rest) ← take part 2 bs
  return (← wordAt front 0, rest)

/-- A text behind the byte that counts its bytes. -/
def takeText (part : Part) (bs : Bytes) : ExceptT Malformed Guarded (String × Bytes) := do
  let (n, rest) ← takeByte part bs
  let (front, rest) ← take part n.toNat rest
  return (Text.ofUtf8 front, rest)

theorem take_of {part : Part} {n : Nat} {bs : Bytes} (h : n ≤ bs.length) :
    take part n bs = pure (bs.take n, bs.drop n) := by
  rw [take, if_neg (Nat.not_lt.2 h), split_of h]
  rfl

theorem take_of_lt {part : Part} {n : Nat} {bs : Bytes} (h : bs.length < n) :
    take part n bs = throw (.truncated part) := if_pos h

@[simp] theorem takeByte_cons (part : Part) (b : UInt8) (rest : Bytes) :
    takeByte part (b :: rest) = pure (b, rest) := rfl

@[simp] theorem takeWord_cons_cons (part : Part) (high low : UInt8) (rest : Bytes) :
    takeWord part (high :: low :: rest) = pure (word high low, rest) := rfl

theorem takeText_eq (part : Part) (bs : Bytes) :
    takeText part bs = sure (Extended.readText part bs) := by
  cases bs with
  | nil => rfl
  | cons n rest =>
    simp only [takeText, takeByte_cons, pure_bind]
    by_cases fits : n.toNat ≤ rest.length
    · rw [take_of fits, Extended.readText, if_pos fits]
      rfl
    · rw [take_of_lt (Nat.lt_of_not_le fits), Extended.readText, if_neg fits]
      rfl

/-! ## Control payloads -/

/-- The head of a control payload, part by part. -/
def readHead (data : Bytes) : ExceptT Malformed Guarded Control.Head := do
  let (subType, rest) ← takeByte .controlHead data
  let (_, rest) ← takeByte .controlHead rest
  let (normal, rest) ← takeWord .controlHead rest
  let (width, rest) ← takeWord .controlHead rest
  let (count, _) ← takeWord .controlHead rest
  return ⟨subType, normal.toNat, width.toNat, count.toNat⟩

/-- The pieces of the body that entries are read from. -/
def sections (head : Control.Head) (body : Bytes) : Guarded (List Bytes) :=
  if head.count = 0 then return [] else do
    chunks (← slice body head.normal body.length) head.width

/-- The payload of a kind whose entries are in the pieces. -/
def readKind (pieces : List Bytes) : Control.Kind → Guarded Payload
  | .zoneControl => .zoneControl <$> pieces.mapM Layout.read
  | .zoneStatus => .zoneStatus <$> pieces.mapM Layout.read
  | .acControl => .acControl <$> pieces.mapM Layout.read
  | .acStatus => .acStatus <$> pieces.mapM Layout.read

def readControl (data : Bytes) : ExceptT Malformed Guarded Payload := do
  let head ← readHead data
  match Control.Kind.ofCode? head.subType with
  | none => throw (.unknownControlSubType head.subType)
  | some kind =>
    let body ← slice data Control.headSize data.length
    let filled ← plus head.normal (← times head.width head.count)
    if body.length ≠ filled then
      throw (.sectionLength head.normal head.count head.width body.length)
    else if 0 < head.count ∧ head.width < kind.width then
      throw (.entryWidth head.subType kind.width head.width)
    else
      readKind (← sections head body) kind

theorem readHead_eq (data : Bytes) : readHead data =
    sure (if data.length < 8 then .error (.truncated .controlHead)
      else .ok (Control.Head.of data)) := by
  match data with
  | s :: r :: n0 :: n1 :: w0 :: w1 :: c0 :: c1 :: body =>
    rw [if_neg (by simp)]
    rfl
  | [] | [_] | [_, _] | [_, _, _] | [_, _, _, _] | [_, _, _, _, _] | [_, _, _, _, _, _]
  | [_, _, _, _, _, _, _] => rfl

theorem length_of_mem_slices {width count : Nat} {bs slice : Bytes}
    (enough : width * count ≤ bs.length) (among : slice ∈ Control.slices width count bs) :
    slice.length = width := by
  rw [Control.slices_eq_map] at among
  obtain ⟨i, inside, rfl⟩ := List.mem_map.1 among
  have below : width * (i + 1) ≤ width * count := Nat.mul_le_mul_left _ (List.mem_range.1 inside)
  rw [Nat.mul_succ] at below
  rw [List.length_take_of_le]
  rw [List.length_drop]
  omega

variable {head : Control.Head} {body : Bytes}

/-- **Pieces have a width**: that entries are wide enough is not checked if there are none, but then
nothing is cut. -/
theorem sections_eq {needed : Nat} (filled : body.length = head.normal + head.width * head.count)
    (wide : head.count = 0 ∨ needed ≤ head.width) (pos : 0 < needed) :
    sections head body =
      pure (Control.slices head.width head.count (body.drop head.normal)) := by
  by_cases empty : head.count = 0
  · rw [sections, if_pos empty, empty]
    rfl
  · have some_width : 0 < head.width := Nat.lt_of_lt_of_le pos (wide.resolve_left empty)
    have rest : (body.take body.length).drop head.normal = body.drop head.normal := by
      rw [List.take_length]
    have count : (body.drop head.normal).length / head.width = head.count := by
      rw [List.length_drop, filled, Nat.add_sub_cancel_left, Nat.mul_div_cancel_left _ some_width]
    rw [sections, if_neg empty, slice_of (by omega) (Nat.le_refl _), pure_bind, rest,
      chunks_of some_width, count]

theorem readEntries_eq {α : Type} [Entry α] [Layout α]
    (filled : body.length = head.normal + head.width * head.count)
    (wide : head.count = 0 ∨ Entry.width α ≤ head.width) :
    (Control.slices head.width head.count (body.drop head.normal)).mapM Layout.read =
      pure (Control.readEntries α head body) := by
  refine mapM_filterMap fun slice among => ?_
  have some_count : head.count ≠ 0 := by
    intro none
    rw [none] at among
    cases among
  have length : slice.length = head.width := by
    refine length_of_mem_slices ?_ among
    rw [List.length_drop]
    omega
  have fits : Entry.width α ≤ slice.length := length ▸ wide.resolve_left some_count
  obtain ⟨entry, found⟩ := Option.isSome_iff_exists.1 ((Entry.isSome_read? slice).2 fits)
  exact ⟨entry, found, Layout.read_of found⟩

theorem readKind_eq {kind : Control.Kind}
    (filled : body.length = head.normal + head.width * head.count)
    (wide : head.count = 0 ∨ kind.width ≤ head.width) :
    readKind (Control.slices head.width head.count (body.drop head.normal)) kind =
      pure (Control.readKind head body kind) := by
  cases kind with
  | zoneControl => rw [readKind, readEntries_eq (α := ZoneControl) filled wide]; rfl
  | zoneStatus => rw [readKind, readEntries_eq filled wide]; rfl
  | acControl => rw [readKind, readEntries_eq filled wide]; rfl
  | acStatus => rw [readKind, readEntries_eq filled wide]; rfl

theorem width_pos (kind : Control.Kind) : 0 < kind.width := by
  cases kind <;> decide

/-- The sections that a head declares make a size, also on a small machine. -/
theorem filled_lt (normal width count : UInt16) :
    normal.toNat + width.toNat * count.toNat < sizeBound := by
  have most : width.toNat * count.toNat ≤ 65535 * 65535 :=
    Nat.mul_le_mul (Nat.le_of_lt_succ width.toNat_lt) (Nat.le_of_lt_succ count.toNat_lt)
  have normal := normal.toNat_lt
  simp only [sizeBound]
  omega

/-- **Control payloads are read without a breach.** -/
theorem readControl_eq (data : Bytes) : readControl data = sure (Control.read data) := by
  by_cases short : data.length < 8
  · rw [readControl, readHead_eq, Control.read, Control.Head.read_eq, if_pos short, if_pos short]
    rfl
  have long : 8 ≤ data.length := Nat.not_lt.1 short
  have bounded := filled_lt (Wire.wordAt data 2) (Wire.wordAt data 4) (Wire.wordAt data 6)
  rw [readControl, readHead_eq, if_neg short]
  cases known : Control.Kind.ofCode? (Control.Head.of data).subType with
  | none =>
    have refused : Control.read data =
        .error (.unknownControlSubType (Control.Head.of data).subType) := by
      rw [Control.read, Control.Head.read_eq, if_neg short]
      simp only [bind, Except.bind, known]
    simp only [refused, sure_ok_bind, known]
    rfl
  | some kind =>
    rw [Control.read_eq long (Control.Kind.ofCode?_eq_some_iff.1 known), ← List.length_drop]
    have body : slice data Control.headSize data.length = pure (data.drop 8) := by
      show slice data 8 data.length = _
      rw [slice_of long (Nat.le_refl _), List.take_length]
    -- A section and the entries together stay below the bound of a size, so nothing wraps.
    have size : times (Control.Head.of data).width (Control.Head.of data).count = pure _ :=
      times_of (Nat.lt_of_le_of_lt (Nat.le_add_left _ _) bounded)
    have total : plus (Control.Head.of data).normal
        ((Control.Head.of data).width * (Control.Head.of data).count) = pure _ := plus_of bounded
    simp only [sure_ok_bind, known, body, size, total, liftM_pure, pure_bind]
    by_cases filled : (data.drop 8).length =
        (Control.Head.of data).normal + (Control.Head.of data).width * (Control.Head.of data).count
    · rw [if_neg (not_not_intro filled), if_neg (not_not_intro filled)]
      split
      · rfl
      · next wide =>
        have wide : (Control.Head.of data).count = 0 ∨
            kind.width ≤ (Control.Head.of data).width := by
          omega
        rw [sections_eq filled wide (width_pos kind), liftM_pure, pure_bind,
          readKind_eq filled wide]
        rfl
    · rw [if_pos filled, if_pos filled]
      rfl

/-! ## Extended payloads -/

/-- One more name, or those that were found. -/
def nameStep (state : List ZoneName × Bytes) :
    ExceptT Malformed Guarded ((List ZoneName × Bytes) ⊕ List ZoneName) :=
  let (found, bs) := state
  if bs.isEmpty then return .inr found else do
    let (zone, rest) ← takeByte .zoneName bs
    let (name, rest) ← takeText .zoneName rest
    return .inl (found ++ [⟨zone, name⟩], rest)

def readNames (bs : Bytes) : ExceptT Malformed Guarded (List ZoneName) :=
  rounds nameStep (bs.length + 1) ([], bs)

def readModes (b : UInt8) : Guarded ModeSupport :=
  return {
    cool := ← flag b 3
    fan := ← flag b 4
    dry := ← flag b 5
    heat := ← flag b 6
    auto := ← flag b 7 }

def readFans (b : UInt8) : Guarded FanSupport :=
  return {
    intelligentAuto := ← flag b 0
    turbo := ← flag b 1
    powerful := ← flag b 2
    high := ← flag b 3
    medium := ← flag b 4
    low := ← flag b 5
    quiet := ← flag b 6
    auto := ← flag b 7 }

/-- The ability of a unit in the bytes that its record counts. -/
def readAbility (unit : UInt8) (record : Bytes) : Guarded AcAbility := do
  let name ← slice record 0 Extended.nameSize
  let stop := (name.findIdx? (· == 0)).getD Extended.nameSize
  return {
    unit := unit
    name := Text.ofUtf8 (← slice name 0 stop)
    startZone := ← index record 16
    zoneCount := ← index record 17
    modes := ← readModes (← index record 18)
    fans := ← readFans (← index record 19)
    minCool := ← index record 20
    maxCool := ← index record 21
    minHeat := ← index record 22
    maxHeat := ← index record 23 }

/-- One more ability, or those that were found. -/
def abilityStep (state : List AcAbility × Bytes) :
    ExceptT Malformed Guarded ((List AcAbility × Bytes) ⊕ List AcAbility) :=
  let (found, bs) := state
  if bs.length ≤ 2 then return .inr found else do
    let (unit, rest) ← takeByte .abilityRecord bs
    let (n, rest) ← takeByte .abilityRecord rest
    if n.toNat < Extended.abilitySize then throw (.truncated .abilityRecord)
    else
      let (record, rest) ← take .abilityRecord n.toNat rest
      let ability ← readAbility unit record
      return .inl (found ++ [ability], rest)

def readAbilities (bs : Bytes) : ExceptT Malformed Guarded (List AcAbility) :=
  rounds abilityStep (bs.length + 1) ([], bs)

def readExtended (data : Bytes) : ExceptT Malformed Guarded Payload := do
  let (code, body) ← takeWord .extendedSubType data
  match Extended.Kind.ofCode? code with
  | none => throw (.unknownExtendedSubType code)
  | some .acAbility =>
    if body.length = 0 then return .acAbilityRequest none
    else if body.length = 1 then return .acAbilityRequest (some (← index body 0))
    else return .acAbility (← readAbilities body)
  | some .acError =>
    let (unit, body) ← takeByte .errorUnit body
    if body.isEmpty then return .acErrorRequest unit
    else
      let (text, _) ← takeText .errorText body
      return .acError unit text
  | some .zoneName =>
    if body.length = 0 then return .zoneNameRequest none
    else if body.length = 1 then return .zoneNameRequest (some (← index body 0))
    else return .zoneNames (← readNames body)
  | some .version =>
    if body.isEmpty then return .versionRequest
    else
      let (update, body) ← takeByte .versionFlag body
      let (text, _) ← takeText .versionText body
      return .version (update != 0) text

/-- What is found after all others is found first of what is left. -/
theorem map_append_cons (found : List α) (a : α) (later : Except ε (List α)) :
    (fun more => found ++ [a] ++ more) <$> later =
      (found ++ ·) <$> (a :: ·) <$> later := by
  cases later with
  | error e => rfl
  | ok later =>
    show Except.ok (found ++ [a] ++ later) = .ok (found ++ a :: later)
    rw [List.append_assoc, List.singleton_append]

theorem map_append_nil (found : List α) :
    sure ((found ++ ·) <$> (.ok [] : Except ε (List α))) = pure found :=
  congrArg (fun all => sure (.ok all)) (List.append_nil found)

/-- After a record was read there are rounds left for the others. -/
theorem exists_round_left {number count : UInt8} {rest : Bytes} {n : Nat}
    (enough : (number :: count :: rest).length ≤ n) :
    ∃ m, n = m + 1 ∧ (rest.drop count.toNat).length ≤ m := by
  simp only [List.length_cons, List.length_drop] at enough ⊢
  exact ⟨n - 1, by omega, by omega⟩

/-- Names are found one after another, in no more rounds than there are bytes, and one. -/
theorem rounds_nameStep (bs : Bytes) {n : Nat} (enough : bs.length ≤ n) (found : List ZoneName) :
    rounds nameStep (n + 1) (found, bs) = sure ((found ++ ·) <$> Extended.readNames bs) := by
  induction bs using Extended.readNames.induct generalizing n found with
  | case1 => rw [rounds_of_inr rfl, Extended.readNames, map_append_nil]
  | case2 zone =>
    rw [rounds_of_fault rfl, Extended.readNames]
    rfl
  | case3 zone count rest fits ih =>
    have step : nameStep (found, zone :: count :: rest) =
        pure (.inl (found ++ [⟨zone, Text.ofUtf8 (rest.take count.toNat)⟩],
          rest.drop count.toNat)) := by
      simp only [nameStep, List.isEmpty_cons, takeByte_cons, pure_bind, takeText_eq,
        Extended.readText, if_pos fits]
      rfl
    obtain ⟨n, rfl, left⟩ := exists_round_left enough
    rw [rounds_of_inl step, ih left, map_append_cons, Extended.readNames, if_pos fits]
  | case4 zone count rest beyond =>
    have step : nameStep (found, zone :: count :: rest) = sure (.error (.truncated .zoneName)) := by
      simp only [nameStep, List.isEmpty_cons, takeByte_cons, pure_bind, takeText_eq,
        Extended.readText, if_neg beyond]
      rfl
    rw [rounds_of_fault step, Extended.readNames, if_neg beyond]
    rfl

/-- **Names are read without a breach**, and their loop ends. -/
theorem readNames_eq (bs : Bytes) : readNames bs = sure (Extended.readNames bs) := by
  rw [readNames, rounds_nameStep bs (Nat.le_refl _)]
  cases Extended.readNames bs <;> rfl

/-- A name ends where the first zero byte is found, or at its size. -/
theorem take_stop {name : Bytes} {size : Nat} (full : name.length = size) :
    (name.findIdx? (· == 0)).getD size ≤ size ∧
      name.take ((name.findIdx? (· == 0)).getD size) = name.takeWhile (· != 0) := by
  rw [← full, ← List.findIdx_eq_getD_findIdx?, List.takeWhile_eq_take_findIdx_not]
  refine ⟨List.findIdx_le_length, ?_⟩
  simp only [bne, Bool.not_not]

theorem readAbility_of {unit : UInt8} {record : Bytes} {ability : AcAbility}
    (found : Extended.readAbility? unit record = some ability) :
    readAbility unit record = pure ability := by
  unfold Extended.readAbility? at found
  split at found
  · next start count modes fans minCool maxCool minHeat maxHeat rest behind =>
    have long : 24 ≤ record.length := by
      have size := congrArg List.length behind
      simp only [Extended.nameSize, List.length_drop, List.length_cons] at size
      omega
    -- The bytes behind the name are those of the shape that was found there.
    have byte (i : Nat) (behind_name : 16 ≤ i) (inside : i < 24) : index record i =
        pure ((start :: count :: modes :: fans :: minCool :: maxCool :: minHeat :: maxHeat ::
          rest).getD (i - 16) 0) := by
      rw [← behind, index_of (Nat.lt_of_lt_of_le inside long), List.getD_eq_getElem?_getD,
        List.getD_eq_getElem?_getD, List.getElem?_drop]
      show _ = pure (record[16 + (i - 16)]?.getD 0)
      rw [Nat.add_sub_cancel' behind_name]
    have full : (record.take 16).length = 16 :=
      List.length_take_of_le (Nat.le_trans (by decide) long)
    obtain ⟨inside, name⟩ := take_stop full
    have front : slice record 0 Extended.nameSize = pure (record.take 16) :=
      slice_of (Nat.zero_le _) (Nat.le_trans (by decide) long)
    have text : slice (record.take 16) 0
        (((record.take 16).findIdx? (· == 0)).getD Extended.nameSize) =
          pure ((record.take 16).takeWhile (· != 0)) := by
      rw [← name]
      exact slice_of (Nat.zero_le _) (inside.trans_eq full.symm)
    rw [readAbility, front]
    simp only [pure_bind, text]
    rw [byte 16 (by decide) (by decide), byte 17 (by decide) (by decide),
      byte 18 (by decide) (by decide), byte 19 (by decide) (by decide),
      byte 20 (by decide) (by decide), byte 21 (by decide) (by decide),
      byte 22 (by decide) (by decide), byte 23 (by decide) (by decide)]
    cases found
    rfl
  · cases found

theorem abilityStep_of_more (found : List AcAbility) (unit n : UInt8) {rest : Bytes}
    (more : rest ≠ []) : abilityStep (found, unit :: n :: rest) =
      if n.toNat < Extended.abilitySize then throw (.truncated .abilityRecord)
      else do
        let (record, rest) ← take .abilityRecord n.toNat rest
        let ability ← readAbility unit record
        return .inl (found ++ [ability], rest) := by
  have long : ¬(unit :: n :: rest).length ≤ 2 := by
    have some_rest := List.length_pos_iff.2 more
    simp only [List.length_cons]
    omega
  simp only [abilityStep, if_neg long]
  rfl

/-- Abilities are found one after another, in no more rounds than there are bytes, and one. -/
theorem rounds_abilityStep (bs : Bytes) {n : Nat} (enough : bs.length ≤ n)
    (found : List AcAbility) :
    rounds abilityStep (n + 1) (found, bs) =
      sure ((found ++ ·) <$> Extended.readAbilities bs) := by
  -- The loop and the reader both stop where two bytes or less are left.
  have done {bs : Bytes} (short : bs.length ≤ 2) (found : List AcAbility) (n : Nat) :
      rounds abilityStep (n + 1) (found, bs) =
        sure ((found ++ ·) <$> Extended.readAbilities bs) := by
    have step : abilityStep (found, bs) = pure (.inr found) := if_pos short
    rw [rounds_of_inr step, Extended.readAbilities_of_short short, map_append_nil]
  induction bs using Extended.readAbilities.induct generalizing n found with
  | case1 unit count =>
    have two : ([unit, count] : Bytes).length ≤ 2 := Nat.le_refl 2
    exact done two found n
  | case2 unit count rest more fits ability read ih =>
    have wide : ¬count.toNat < Extended.abilitySize := by
      have wide : 24 ≤ (rest.take count.toNat).length :=
        (Extended.isSome_ability? (.ofCount unit count rest)).1 (Option.isSome_of_eq_some read)
      rw [List.length_take_of_le fits] at wide
      exact Nat.not_lt.2 wide
    have step : abilityStep (found, unit :: count :: rest) =
        pure (.inl (found ++ [ability], rest.drop count.toNat)) := by
      rw [abilityStep_of_more found unit count more, if_neg wide, take_of fits]
      simp only [pure_bind, readAbility_of read, liftM_pure]
    obtain ⟨n, rfl, left⟩ := exists_round_left enough
    rw [rounds_of_inl step, ih left, map_append_cons, Extended.readAbilities, if_neg more,
      if_pos fits]
    simp only [read]
  | case3 unit count rest more fits narrow =>
    have small : count.toNat < Extended.abilitySize := by
      refine Nat.lt_of_not_le fun wide => ?_
      have wide : 24 ≤ (rest.take count.toNat).length :=
        (List.length_take_of_le fits).symm ▸ wide
      have read := (Extended.isSome_ability? (.ofCount unit count rest)).2 wide
      exact absurd narrow (Option.ne_none_iff_isSome.2 read)
    have step : abilityStep (found, unit :: count :: rest) =
        sure (.error (.truncated .abilityRecord)) := by
      rw [abilityStep_of_more found unit count more, if_pos small]
      rfl
    rw [rounds_of_fault step, Extended.readAbilities, if_neg more, if_pos fits]
    simp only [narrow]
    rfl
  | case4 unit count rest more beyond =>
    have step : abilityStep (found, unit :: count :: rest) =
        sure (.error (.truncated .abilityRecord)) := by
      rw [abilityStep_of_more found unit count more, take_of_lt (Nat.lt_of_not_le beyond)]
      split <;> rfl
    rw [rounds_of_fault step, Extended.readAbilities, if_neg more, if_neg beyond]
    rfl
  | case5 bs few =>
    refine done ?_ found n
    rcases bs with _ | ⟨a, _ | ⟨b, rest⟩⟩
    · exact Nat.zero_le 2
    · exact Nat.le_succ 1
    · exact (few a b rest rfl).elim

/-- **Abilities are read without a breach**, and their loop ends. -/
theorem readAbilities_eq (bs : Bytes) : readAbilities bs = sure (Extended.readAbilities bs) := by
  rw [readAbilities, rounds_abilityStep bs (Nat.le_refl _)]
  cases Extended.readAbilities bs <;> rfl

/-- **Extended payloads are read without a breach.** -/
theorem readExtended_eq (data : Bytes) : readExtended data = sure (Extended.read data) := by
  match data with
  | [] | [_] => rfl
  | s0 :: s1 :: body =>
    rw [readExtended, Extended.read]
    simp only [takeWord_cons_cons, pure_bind]
    cases Extended.Kind.ofCode? (word s0 s1) with
    | none => rfl
    | some kind =>
      cases kind with
      | acAbility =>
        rcases body with _ | ⟨unit, _ | ⟨n, rest⟩⟩
        · rfl
        · rfl
        · show Payload.acAbility <$> readAbilities (unit :: n :: rest) = _
          rw [readAbilities_eq, map_sure]
          rfl
      | acError =>
        rcases body with _ | ⟨unit, _ | ⟨n, rest⟩⟩
        · rfl
        · rfl
        · simp only [takeByte_cons, pure_bind, takeText_eq, Extended.readKind]
          cases Extended.readText .errorText (n :: rest) <;> rfl
      | zoneName =>
        rcases body with _ | ⟨zone, _ | ⟨n, rest⟩⟩
        · rfl
        · rfl
        · show Payload.zoneNames <$> readNames (zone :: n :: rest) = _
          rw [readNames_eq, map_sure]
          rfl
      | version =>
        rcases body with _ | ⟨update, rest⟩
        · rfl
        · simp only [takeByte_cons, pure_bind, takeText_eq, Extended.readKind]
          cases Extended.readText .versionText rest <;> rfl

/-- The payload of a family that the bytes hold. -/
def readPayload : Family → Bytes → ExceptT Malformed Guarded Payload
  | .control => readControl
  | .extended => readExtended

/-- **Payloads are read without a breach.** -/
theorem readPayload_eq (family : Family) (data : Bytes) :
    readPayload family data = sure (Payload.decode family data) := by
  cases family with
  | control => exact readControl_eq data
  | extended => exact readExtended_eq data

/-! ## Writing -/

/-- The bytes of a payload of the given kind, which declares the given width. -/
def writeEntries {α : Type} [Entry α] [Layout α] (kind : Control.Kind) (width : UInt16)
    (entries : List α) : ExceptT Unencodable Guarded Bytes :=
  if 65535 < entries.length then throw (.payloadTooLarge entries.length) else do
    let count ← narrow 65536 entries.length
    let body ← entries.mapM Layout.write
    return Control.Head.write kind width (UInt16.ofNat count) ++ body.flatten

/-- A text behind the byte that counts its bytes. -/
def writeText (field : Field) (s : String) : ExceptT Unencodable Guarded Bytes :=
  let bytes := Text.utf8 s
  if 255 < bytes.length then throw (.textTooLong field) else do
    let n ← narrow 256 bytes.length
    return UInt8.ofNat n :: bytes

def writeName (entry : ZoneName) : ExceptT Unencodable Guarded Bytes :=
  (entry.zone :: ·) <$> writeText .zoneName entry.name

def writeModes (m : ModeSupport) : Guarded UInt8 :=
  pack [(3, 0), (1, m.cool.toNat), (1, m.fan.toNat), (1, m.dry.toNat), (1, m.heat.toNat),
    (1, m.auto.toNat)]

def writeFans (f : FanSupport) : Guarded UInt8 :=
  pack [(1, f.intelligentAuto.toNat), (1, f.turbo.toNat), (1, f.powerful.toNat),
    (1, f.high.toNat), (1, f.medium.toNat), (1, f.low.toNat), (1, f.quiet.toNat),
    (1, f.auto.toNat)]

def writeAbility (a : AcAbility) : ExceptT Unencodable Guarded Bytes :=
  let name := Text.utf8 a.name
  if Extended.nameSize < name.length then throw (.textTooLong .acName) else do
    let padding ← minus Extended.nameSize name.length
    let modes ← writeModes a.modes
    let fans ← writeFans a.fans
    return [a.unit, UInt8.ofNat Extended.abilitySize] ++ name ++ List.replicate padding 0 ++
      [a.startZone, a.zoneCount, modes, fans, a.minCool, a.maxCool, a.minHeat, a.maxHeat]

/-- The bytes of a payload. -/
def writePayload : Payload → ExceptT Unencodable Guarded Bytes
  | .zoneControl zones => writeEntries .zoneControl 4 zones
  | .zoneStatus zones => writeEntries .zoneStatus (Control.reportWidth zones) zones
  | .acControl units => writeEntries .acControl 4 units
  | .acStatus units => writeEntries .acStatus (Control.reportWidth units) units
  | .acAbilityRequest unit => pure (wordBytes Extended.Kind.acAbility.code ++ unit.toList)
  | .acAbility units => do
    let records ← units.mapM writeAbility
    return wordBytes Extended.Kind.acAbility.code ++ records.flatten
  | .acErrorRequest unit => pure (wordBytes Extended.Kind.acError.code ++ [unit])
  | .acError unit text => do
    let text ← writeText .acErrorText text
    return wordBytes Extended.Kind.acError.code ++ [unit] ++ text
  | .zoneNameRequest zone => pure (wordBytes Extended.Kind.zoneName.code ++ zone.toList)
  | .zoneNames entries => do
    let records ← entries.mapM writeName
    return wordBytes Extended.Kind.zoneName.code ++ records.flatten
  | .versionRequest => pure (wordBytes Extended.Kind.version.code)
  | .version hasUpdate text => do
    let text ← writeText .versionText text
    return wordBytes Extended.Kind.version.code ++ [UInt8.ofNat hasUpdate.toNat] ++ text

theorem writeEntries_eq {α : Type} [Entry α] [Layout α] (kind : Control.Kind) (width : UInt16)
    (entries : List α) :
    writeEntries kind width entries = sure (Control.writeEntries kind width entries) := by
  by_cases many : 65535 < entries.length
  · rw [writeEntries, if_pos many, Control.writeEntries, if_pos many]
    rfl
  · rw [writeEntries, if_neg many, narrow_of (Nat.lt_succ_of_le (Nat.not_lt.1 many)),
      Control.writeEntries, if_neg many]
    exact bind_sure (mapM_sure fun entry _ => Layout.write_eq entry) fun _ _ => rfl

theorem writeText_eq (field : Field) (s : String) :
    writeText field s = sure (Extended.writeText field s) := by
  by_cases fits : (Text.utf8 s).length ≤ 255
  · have short : ¬255 < (Text.utf8 s).length := Nat.not_lt.2 fits
    simp only [writeText, Extended.writeText, if_neg short, if_pos fits,
      narrow_of (Nat.lt_succ_of_le fits)]
    rfl
  · simp only [writeText, Extended.writeText, if_pos (Nat.lt_of_not_le fits), if_neg fits]
    rfl

theorem writeName_eq (entry : ZoneName) : writeName entry = sure (Extended.writeName entry) := by
  rw [writeName, writeText_eq, map_sure]
  rfl

theorem writeModes_eq (m : ModeSupport) : writeModes m = pure (Extended.writeModes m) :=
  pack_of rfl (fit_cons (by decide) (by decide)
    (fit_bit _ (fit_bit _ (fit_bit _ (fit_bit _ (fit_bit _ fit_nil))))))

theorem writeFans_eq (f : FanSupport) : writeFans f = pure (Extended.writeFans f) :=
  pack_of rfl (fit_bit _ (fit_bit _ (fit_bit _ (fit_bit _ (fit_bit _ (fit_bit _ (fit_bit _
    (fit_bit _ fit_nil))))))))

theorem writeAbility_eq (a : AcAbility) :
    writeAbility a = sure (Extended.writeAbility a) := by
  by_cases fits : (Text.utf8 a.name).length ≤ Extended.nameSize
  · have short : ¬Extended.nameSize < (Text.utf8 a.name).length := Nat.not_lt.2 fits
    simp only [writeAbility, Extended.writeAbility, if_neg short, if_pos fits, minus_of fits,
      writeModes_eq, writeFans_eq]
    rfl
  · simp only [writeAbility, Extended.writeAbility, if_pos (Nat.lt_of_not_le fits), if_neg fits]
    rfl

/-- **Payloads are written, or refused, without a breach.** -/
theorem writePayload_eq (payload : Payload) :
    writePayload payload = sure payload.encode := by
  cases payload with
  | zoneControl | zoneStatus | acControl | acStatus => exact writeEntries_eq _ _ _
  | acAbilityRequest | acErrorRequest | zoneNameRequest | versionRequest => rfl
  | acAbility units => exact bind_sure (mapM_sure fun a _ => writeAbility_eq a) fun _ _ => rfl
  | zoneNames entries => exact bind_sure (mapM_sure fun e _ => writeName_eq e) fun _ _ => rfl
  | acError | version => exact bind_sure (writeText_eq _ _) fun _ _ => rfl

end ClimateLink.Guarded
