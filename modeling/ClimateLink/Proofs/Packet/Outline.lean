import ClimateLink.Packet.Control
import ClimateLink.Packet.Extended
import ClimateLink.Proofs.Attempt

/-!
# Outlines of payloads

Between the bytes of a payload and what they say stands an outline: which slices are entries,
which bytes are records, and what is left over, before any number or text is read. A grammar says
which outline bytes have; `Outline.Means` says what an outline stands for.

**Records.** A record says its own length. `readNames_eq_ok_iff` and `readAbilities_eq_ok_iff`:
names and abilities are read if the bytes are records that follow one another, and then each record
gives one of them, in order.
-/

namespace ClimateLink

/-! ## Records -/

/-- A record: a number, and bytes that are counted in a byte on the wire. -/
structure Record where
  number : UInt8
  content : Bytes
  counted : content.length < 256

namespace Record

/-- The bytes of a record: its number, the count, and what is counted. -/
def bytes (r : Record) : Bytes := r.number :: UInt8.ofNat r.content.length :: r.content

/-- The bytes of records that follow one another. -/
def join (records : List Record) : Bytes := records.flatMap bytes

/-- The record that begins with the given number and count. -/
def ofCount (number n : UInt8) (rest : Bytes) : Record where
  number := number
  content := rest.take n.toNat
  counted := Nat.lt_of_le_of_lt (List.length_take_le _ _) n.toNat_lt

theorem toNat_count (r : Record) : (UInt8.ofNat r.content.length).toNat = r.content.length := by
  rw [UInt8.toNat_ofNat', Nat.mod_eq_of_lt r.counted]

theorem length_bytes (r : Record) : r.bytes.length = r.content.length + 2 := rfl

theorem join_cons (r : Record) (records : List Record) :
    join (r :: records) = r.bytes ++ join records := List.flatMap_cons

theorem bytes_ofCount {number n : UInt8} {rest : Bytes} (h : n.toNat ≤ rest.length) :
    (ofCount number n rest).bytes ++ rest.drop n.toNat = number :: n :: rest := by
  have size : (ofCount number n rest).content.length = n.toNat := List.length_take_of_le h
  rw [bytes, size, UInt8.ofNat_toNat]
  show number :: n :: (rest.take n.toNat ++ rest.drop n.toNat) = _
  rw [List.take_append_drop]

end Record

/-! ## What outlines stand for -/

/-- The parts of a payload as they stand on the wire. -/
inductive Outline where
  /-- Entries of fixed width. -/
  | entries (kind : Control.Kind) (slices : List Bytes)
  /-- Nothing but a number, or not even that. -/
  | request (kind : Extended.Kind) (number : Option UInt8)
  | records (kind : Extended.Kind) (records : List Record)

/-- The zone and its name in a record. -/
def Record.zoneName (r : Record) : ZoneName := ⟨r.number, Text.ofUtf8 r.content⟩

/-- The ability in a record, if the record is wide enough. -/
def Record.ability? (r : Record) : Option AcAbility := Extended.readAbility? r.number r.content

/-- What the parts of an outline stand for: one entry for each slice and one ability or name for
each record, in order. -/
inductive Outline.Means : Outline → Payload → Prop
  | zoneControl {slices : List Bytes} {zones : List ZoneControl}
    (read : slices.map Entry.read? = zones.map some) :
    Means (.entries .zoneControl slices) (.zoneControl zones)
  | zoneStatus {slices : List Bytes} {zones : List ZoneStatus}
    (read : slices.map Entry.read? = zones.map some) :
    Means (.entries .zoneStatus slices) (.zoneStatus zones)
  | acControl {slices : List Bytes} {units : List AcControl}
    (read : slices.map Entry.read? = units.map some) :
    Means (.entries .acControl slices) (.acControl units)
  | acStatus {slices : List Bytes} {units : List AcStatus}
    (read : slices.map Entry.read? = units.map some) :
    Means (.entries .acStatus slices) (.acStatus units)
  | abilityRequest (unit : Option UInt8) :
    Means (.request .acAbility unit) (.acAbilityRequest unit)
  | errorRequest (unit : UInt8) : Means (.request .acError (some unit)) (.acErrorRequest unit)
  | nameRequest (zone : Option UInt8) : Means (.request .zoneName zone) (.zoneNameRequest zone)
  | versionRequest : Means (.request .version none) .versionRequest
  | abilities {records : List Record} {units : List AcAbility}
    (read : records.map Record.ability? = units.map some) :
    Means (.records .acAbility records) (.acAbility units)
  | error (r : Record) : Means (.records .acError [r]) (.acError r.number (Text.ofUtf8 r.content))
  | names (records : List Record) :
    Means (.records .zoneName records) (.zoneNames (records.map Record.zoneName))
  | version (r : Record) :
    Means (.records .version [r]) (.version (r.number != 0) (Text.ofUtf8 r.content))

/-! ## Reading records -/

namespace Extended

theorem readText_eq (part : Part) (number n : UInt8) (rest : Bytes) :
    readText part (n :: rest) = if n.toNat ≤ rest.length then
        .ok (Text.ofUtf8 (Record.ofCount number n rest).content, rest.drop n.toNat)
      else .error (.truncated part) := rfl

theorem readNames_join (records : List Record) :
    readNames (Record.join records) = .ok (records.map Record.zoneName) := by
  induction records with
  | nil => rw [Record.join, List.flatMap_nil, readNames, List.map_nil]
  | cons r records ih =>
    have size := r.toNat_count
    rw [Record.join_cons, Record.bytes, List.cons_append, List.cons_append, readNames, size,
      if_pos (by simp), List.take_left, List.drop_left, ih]
    rfl

/-- **Names are read from records** that follow one another up to the end of the bytes. -/
theorem readNames_eq_ok_iff {bs : Bytes} {entries : List ZoneName} :
    readNames bs = .ok entries ↔
      ∃ records, bs = Record.join records ∧ entries = records.map Record.zoneName := by
  constructor
  · intro h
    induction bs using readNames.induct generalizing entries with
    | case1 =>
      rw [readNames] at h
      cases h
      exact ⟨[], rfl, rfl⟩
    | case2 =>
      rw [readNames] at h
      cases h
    | case3 zone n rest fits ih =>
      rw [readNames, if_pos fits] at h
      obtain ⟨later, hlater, rfl⟩ := map_eq_ok.1 h
      obtain ⟨records, joined, rfl⟩ := ih hlater
      refine ⟨.ofCount zone n rest :: records, ?_, rfl⟩
      rw [Record.join_cons, ← joined, Record.bytes_ofCount fits]
    | case4 zone n rest beyond =>
      rw [readNames, if_neg beyond] at h
      cases h
  · rintro ⟨records, rfl, rfl⟩
    exact readNames_join records

/-- The only fault of names is that they end too early. -/
theorem readNames_fault {bs : Bytes} {fault : Malformed} (h : readNames bs = .error fault) :
    fault = .truncated .zoneName := by
  induction bs using readNames.induct with
  | case1 =>
    rw [readNames] at h
    cases h
  | case2 =>
    rw [readNames] at h
    cases h
    rfl
  | case3 zone n rest fits ih =>
    rw [readNames, if_pos fits] at h
    exact ih (map_eq_error.1 h)
  | case4 zone n rest beyond =>
    rw [readNames, if_neg beyond] at h
    cases h
    rfl

theorem isSome_ability? (r : Record) : r.ability?.isSome ↔ 24 ≤ r.content.length := by
  have size : (r.content.drop nameSize).length = r.content.length - 16 := List.length_drop
  have behind : 24 ≤ r.content.length ↔ 8 ≤ (r.content.drop nameSize).length := by omega
  rw [behind, Record.ability?, readAbility?]
  rcases r.content.drop nameSize with _ | ⟨_, _ | ⟨_, _ | ⟨_, _ | ⟨_, _ | ⟨_, _ | ⟨_, _ | ⟨_, _ |
    ⟨_, _⟩⟩⟩⟩⟩⟩⟩⟩ <;> simp

theorem readAbilities_of_short {padding : Bytes} (short : padding.length ≤ 2) :
    readAbilities padding = .ok [] := by
  by_cases two : padding.length = 2
  · obtain ⟨unit, n, rfl⟩ := List.length_eq_two.1 two
    rw [readAbilities, if_pos rfl]
  · rw [readAbilities]
    rintro unit n rest rfl
    simp only [List.length_cons] at short two
    omega

theorem readAbilities_join (records : List Record) {units : List AcAbility} {padding : Bytes}
    (short : padding.length ≤ 2) (read : records.map Record.ability? = units.map some) :
    readAbilities (Record.join records ++ padding) = .ok units := by
  induction records generalizing units with
  | nil =>
    cases List.map_eq_nil_iff.1 read.symm
    exact readAbilities_of_short short
  | cons r records ih =>
    obtain ⟨unit, later, rfl, first, rest⟩ := List.map_eq_cons_iff.1 read.symm
    have wide : 24 ≤ r.content.length := (isSome_ability? r).1 (first ▸ rfl)
    -- The first two bytes could only be padding if nothing came behind them.
    have content : r.content ++ (Record.join records ++ padding) ≠ [] := by
      intro nothing
      rw [(List.append_eq_nil_iff.1 nothing).1] at wide
      cases wide
    have found : readAbility? r.number r.content = some unit := first.symm
    rw [Record.join_cons, Record.bytes, List.append_assoc, List.cons_append, List.cons_append,
      readAbilities, if_neg content, r.toNat_count, if_pos (by simp), List.take_left,
      List.drop_left]
    simp only [found, ih rest.symm]
    rfl

/-- **Abilities are read from records** that are wide enough and follow one another, with at most
two bytes behind them. -/
theorem readAbilities_eq_ok_iff {bs : Bytes} {units : List AcAbility} :
    readAbilities bs = .ok units ↔ ∃ records padding, bs = Record.join records ++ padding ∧
      padding.length ≤ 2 ∧ records.map Record.ability? = units.map some := by
  constructor
  · intro h
    -- The cases are those of the reader, which stops where two bytes or less are left.
    induction bs using readAbilities.induct generalizing units with
    | case1 unit n =>
      rw [readAbilities, if_pos rfl] at h
      cases h
      exact ⟨[], [unit, n], rfl, Nat.le_refl 2, rfl⟩
    | case2 unit n rest more fits ability found ih =>
      rw [readAbilities, if_neg more, if_pos fits] at h
      simp only [found] at h
      obtain ⟨later, hlater, rfl⟩ := map_eq_ok.1 h
      obtain ⟨records, padding, joined, short, read⟩ := ih hlater
      refine ⟨.ofCount unit n rest :: records, padding, ?_, short, ?_⟩
      · rw [Record.join_cons, List.append_assoc, ← joined, Record.bytes_ofCount fits]
      · rw [List.map_cons, List.map_cons, read]
        exact congrArg (· :: _) found
    | case3 unit n rest more fits narrow =>
      rw [readAbilities, if_neg more, if_pos fits] at h
      simp only [narrow] at h
      cases h
    | case4 unit n rest more beyond =>
      rw [readAbilities, if_neg more, if_neg beyond] at h
      cases h
    | case5 bs few =>
      have short : bs.length ≤ 2 := by
        match bs, few with
        | [], _ | [_], _ => simp
        | _ :: _ :: _, few => exact (few _ _ _ rfl).elim
      rw [readAbilities_of_short short] at h
      cases h
      exact ⟨[], bs, rfl, short, rfl⟩
  · rintro ⟨records, padding, rfl, short, read⟩
    exact readAbilities_join records short read

/-- The only fault of abilities is a record that is too narrow or ends too early. -/
theorem readAbilities_fault {bs : Bytes} {fault : Malformed}
    (h : readAbilities bs = .error fault) : fault = .truncated .abilityRecord := by
  induction bs using readAbilities.induct with
  | case1 unit n =>
    rw [readAbilities, if_pos rfl] at h
    cases h
  | case2 unit n rest more fits ability found ih =>
    rw [readAbilities, if_neg more, if_pos fits] at h
    simp only [found] at h
    exact ih (map_eq_error.1 h)
  | case3 unit n rest more fits narrow =>
    rw [readAbilities, if_neg more, if_pos fits] at h
    simp only [narrow] at h
    cases h
    rfl
  | case4 unit n rest more beyond =>
    rw [readAbilities, if_neg more, if_neg beyond] at h
    cases h
    rfl
  | case5 bs few =>
    rw [readAbilities] at h
    · cases h
    · exact few

end Extended

end ClimateLink
