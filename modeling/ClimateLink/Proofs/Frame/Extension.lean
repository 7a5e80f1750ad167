import ClimateLink.Proofs.Frame.Grammar

/-!
# Frames of newer consoles

Newer consoles send more than is known of: wider entries, longer records, bytes in front of the
entries and behind the records. Decoding passes all of that by.

**Agreement.** `Frame.Agree` says of the bytes of two frames that they have the same address,
number and mark, and the same *core*: the known bytes of each entry, wherever the heads place the
entries; the number and the known bytes of each record, wherever the counts place the records; or
everything up to the end of a text.

**Theorem (`decode_agree`).** Frames that decode and agree decode to the same packet.

**Proof.** What a frame means goes through its outline. Entries and abilities are read from their
known bytes (`Entry.Local`, `Record.ability?_known`), so that outlines that agree on these mean
the same (`Outline.Alike.means_unique`). That frames which agree have such outlines needs that
bytes are records in one way only (`Record.join_unique`).
-/

namespace ClimateLink

open Wire

/-! ## What is known of entries -/

/-- Entries of a kind are read from the bytes of their layout, whatever follows them. -/
def Entry.Local (α : Type) [Entry α] : Prop :=
  ∀ slice : Bytes, (Entry.read? (slice.take (Entry.width α)) : Option α) = Entry.read? slice

theorem ZoneControl.read?_local : Entry.Local ZoneControl := by
  intro slice
  rcases slice with _ | ⟨_, _ | ⟨_, _ | ⟨_, _ | ⟨_, _⟩⟩⟩⟩ <;> rfl

theorem ZoneStatus.read?_local : Entry.Local ZoneStatus := by
  intro slice
  rcases slice with _ | ⟨_, _ | ⟨_, _ | ⟨_, _ | ⟨_, _ | ⟨_, _ | ⟨_, _ | ⟨_, _ |
    ⟨_, _⟩⟩⟩⟩⟩⟩⟩⟩ <;> rfl

theorem AcControl.read?_local : Entry.Local AcControl := by
  intro slice
  rcases slice with _ | ⟨_, _ | ⟨_, _ | ⟨_, _ | ⟨_, _⟩⟩⟩⟩ <;> rfl

theorem AcStatus.read?_local : Entry.Local AcStatus := by
  intro slice
  rcases slice with _ | ⟨_, _ | ⟨_, _ | ⟨_, _ | ⟨_, _ | ⟨_, _ | ⟨_, _ | ⟨_, _ | ⟨_, _ | ⟨_, _ |
    ⟨_, _⟩⟩⟩⟩⟩⟩⟩⟩⟩⟩ <;> rfl

theorem Entry.Local.map_read? {α : Type} [Entry α] (known : Entry.Local α)
    {slices others : List Bytes}
    (agree : slices.map (List.take (Entry.width α)) = others.map (List.take (Entry.width α))) :
    slices.map (Entry.read? (α := α)) = others.map Entry.read? := by
  have through (parts : List Bytes) : parts.map (Entry.read? (α := α)) =
      (parts.map (List.take (Entry.width α))).map Entry.read? := by
    rw [List.map_map]
    exact List.map_congr_left fun part _ => (known part).symm
  rw [through slices, through others, agree]

/-! ## What is known of records -/

namespace Record

/-- The number of a record and the bytes that an ability takes from it. -/
def core (r : Record) : UInt8 × Bytes := (r.number, r.content.take 24)

theorem ability?_known (r : Record) : r.ability? = Extended.readAbility? r.core.1 r.core.2 := by
  have name : (r.content.take 24).take Extended.nameSize = r.content.take Extended.nameSize := by
    rw [List.take_take]
    rfl
  have rest : (r.content.take 24).drop Extended.nameSize =
      (r.content.drop Extended.nameSize).take 8 := by
    rw [List.drop_take]
    rfl
  rw [ability?, core, Extended.readAbility?, Extended.readAbility?, name, rest]
  rcases r.content.drop Extended.nameSize with _ | ⟨_, _ | ⟨_, _ | ⟨_, _ | ⟨_, _ | ⟨_, _ | ⟨_, _ |
    ⟨_, _ | ⟨_, _⟩⟩⟩⟩⟩⟩⟩⟩ <;> rfl

theorem map_ability? {records others : List Record}
    (agree : records.map core = others.map core) :
    records.map ability? = others.map ability? := by
  have through (rs : List Record) : rs.map ability? =
      (rs.map core).map fun known => Extended.readAbility? known.1 known.2 := by
    rw [List.map_map]
    exact List.map_congr_left fun r _ => r.ability?_known
  rw [through records, through others, agree]

theorem bytes_append_inj {r s : Record} {rest more : Bytes}
    (same : r.bytes ++ rest = s.bytes ++ more) : r = s ∧ rest = more := by
  simp only [bytes, List.cons_append, List.cons.injEq] at same
  obtain ⟨number, count, behind⟩ := same
  have size : r.content.length = s.content.length := by
    rw [← r.toNat_count, ← s.toNat_count, count]
  obtain ⟨content, rest⟩ := List.append_inj behind size
  refine ⟨?_, rest⟩
  cases r
  cases s
  cases number
  cases content
  rfl

/-- A record is longer than what may be left. -/
theorem join_cons_ne {r : Record} {records : List Record} {padding behind : Bytes}
    (wide : 24 ≤ r.content.length) (short : behind.length ≤ 2) :
    join (r :: records) ++ padding ≠ behind := by
  intro same
  have sizes := congrArg List.length same
  simp only [join_cons, List.length_append, length_bytes] at sizes
  omega

/-- **Bytes are records in one way only**, if records are wide and at most two bytes are left. -/
theorem join_unique {records others : List Record} {padding behind : Bytes}
    (wide : ∀ r ∈ records, 24 ≤ r.content.length) (short : padding.length ≤ 2)
    (wider : ∀ r ∈ others, 24 ≤ r.content.length) (shorter : behind.length ≤ 2)
    (same : join records ++ padding = join others ++ behind) : records = others := by
  induction records generalizing others with
  | nil =>
    cases others with
    | nil => rfl
    | cons s others =>
      exact absurd same.symm (join_cons_ne (wider s List.mem_cons_self) short)
  | cons r records ih =>
    cases others with
    | nil =>
      exact absurd same (join_cons_ne (wide r List.mem_cons_self) shorter)
    | cons s others =>
      rw [join_cons, join_cons, List.append_assoc, List.append_assoc] at same
      obtain ⟨rfl, rest⟩ := bytes_append_inj same
      rw [ih (fun t among => wide t (List.mem_cons_of_mem _ among))
        (fun t among => wider t (List.mem_cons_of_mem _ among)) rest]

end Record

/-! ## Outlines that mean the same -/

/-- Two outlines differ at most in bytes that nothing is read from. -/
inductive Outline.Alike : Outline → Outline → Prop
  | entries {kind : Control.Kind} {slices others : List Bytes}
    (agree : slices.map (List.take kind.width) = others.map (List.take kind.width)) :
    Alike (.entries kind slices) (.entries kind others)
  | abilities {records others : List Record}
    (agree : records.map Record.core = others.map Record.core) :
    Alike (.records .acAbility records) (.records .acAbility others)
  | error (r : Record) : Alike (.records .acError [r]) (.records .acError [r])
  | version (r : Record) : Alike (.records .version [r]) (.records .version [r])

theorem eq_of_map_some {α : Type} {parts others : List (Option α)} {as bs : List α}
    (read : parts = as.map some) (readToo : others = bs.map some) (agree : parts = others) :
    as = bs := by
  have same : as.map some = bs.map some := read.symm.trans (agree.trans readToo)
  exact (List.map_inj_right fun _ _ => Option.some.inj).1 same

/-- **Outlines that are alike mean the same payload.** -/
theorem Outline.Alike.means_unique {outline other : Outline} {payload second : Payload}
    (alike : outline.Alike other) (means : outline.Means payload) (too : other.Means second) :
    payload = second := by
  -- What is read from an entry or record is read from the bytes in which the outlines agree.
  cases alike with
  | entries agree =>
    cases means with
    | zoneControl read =>
      cases too with
      | zoneControl readToo =>
        rw [eq_of_map_some read readToo (ZoneControl.read?_local.map_read? agree)]
    | zoneStatus read =>
      cases too with
      | zoneStatus readToo =>
        rw [eq_of_map_some read readToo (ZoneStatus.read?_local.map_read? agree)]
    | acControl read =>
      cases too with
      | acControl readToo =>
        rw [eq_of_map_some read readToo (AcControl.read?_local.map_read? agree)]
    | acStatus read =>
      cases too with
      | acStatus readToo =>
        rw [eq_of_map_some read readToo (AcStatus.read?_local.map_read? agree)]
  | abilities agree =>
    cases means with
    | abilities read =>
      cases too with
      | abilities readToo => rw [eq_of_map_some read readToo (Record.map_ability? agree)]
  | error r =>
    cases means
    cases too
    rfl
  | version r =>
    cases means
    cases too
    rfl

/-! ## Agreement of payloads -/

namespace Control

theorem Kind.code_inj {kind other : Kind} (same : kind.code = other.code) : kind = other := by
  cases kind <;> cases other <;> first | rfl | cases same

/-- Two control payloads have the same sub-type and number of entries, and the same known bytes
in each entry. The normal sections and the widths of entries may differ, and with them the places
at which the entries stand. -/
structure Agree (data other : Bytes) : Prop where
  subType : (Head.of data).subType = (Head.of other).subType
  count : (Head.of data).count = (Head.of other).count
  entries : ∀ i < (Head.of data).count,
    (sliceAt data i).take (neededWidth (Head.of data).subType) =
      (sliceAt other i).take (neededWidth (Head.of data).subType)

theorem Agree.alike {data second : Bytes} {outline other : Outline} (agree : Agree data second)
    (outlined : Outlined data outline) (too : Outlined second other) : outline.Alike other := by
  cases outlined with
  | @entries kind known =>
    cases too with
    | @entries kind' knownToo =>
      obtain rfl : kind = kind' :=
        Kind.code_inj (known.trans (agree.subType.trans knownToo.symm))
      refine .entries ?_
      rw [← agree.count, List.map_map, List.map_map]
      refine List.map_congr_left fun i inside => ?_
      have known := agree.entries i (List.mem_range.1 inside)
      rwa [agree.subType, ← knownToo, ← Kind.width_eq] at known

end Control

namespace Extended

theorem Kind.code_inj {kind other : Kind} (same : kind.code = other.code) : kind = other := by
  cases kind <;> cases other <;> first | rfl | cases same

/-- The records of an ability payload: what is behind the sub-type, but for up to two bytes. -/
def AbilityRecords (data : Bytes) (records : List Record) : Prop :=
  wordAt data 0 = Kind.acAbility.code ∧ (∀ r ∈ records, 24 ≤ r.content.length) ∧
    ∃ padding, padding.length ≤ 2 ∧ data.drop 2 = Record.join records ++ padding

/-- The payload is of the given kind and has a number and a count behind its sub-type. -/
def Kind.Replies (kind : Kind) (data : Bytes) : Prop :=
  wordAt data 0 = kind.code ∧ 4 ≤ data.length

/-- Two extended payloads have abilities in as many records with the same numbers and the same
known bytes, or they are both replies with a text and the same up to the end of it. -/
inductive Agree (data other : Bytes) : Prop
  | abilities {records others : List Record} (present : records ≠ [])
    (held : AbilityRecords data records) (heldToo : AbilityRecords other others)
    (agree : records.map Record.core = others.map Record.core)
  | text {kind : Kind} (texts : kind = .acError ∨ kind = .version)
    (reply : kind.Replies data) (replyToo : kind.Replies other)
    (agree : data.take (4 + (data.getD 3 0).toNat) = other.take (4 + (data.getD 3 0).toNat))

theorem AbilityRecords.outline_eq {data : Bytes} {records : List Record} {outline : Outline}
    (held : AbilityRecords data records) (present : records ≠ [])
    (outlined : Outlined data outline) : outline = .records .acAbility records := by
  obtain ⟨subType, wide, padding, short, filled⟩ := held
  obtain ⟨kind, known, outlined⟩ := outlined
  obtain rfl : kind = .acAbility := Kind.code_inj (known.trans subType)
  cases outlined with
  | @request number _ requested =>
    -- one record is longer than a request
    have sizes := congrArg List.length (filled.symm.trans requested)
    obtain ⟨r, rest, rfl⟩ := List.exists_cons_of_ne_nil present
    have long := wide r List.mem_cons_self
    have small : number.toList.length ≤ 1 := by cases number <;> simp
    simp only [Record.join_cons, List.length_append, Record.length_bytes] at sizes
    omega
  | records holds filledToo =>
    obtain ⟨wider, shorter, -⟩ := holds
    rw [Record.join_unique wide short wider shorter (filled.symm.trans filledToo)]

/-- The outline of a reply with a text, which ends where the count says. -/
theorem Kind.Replies.exists_record {kind : Kind} {data : Bytes} {outline : Outline}
    (reply : kind.Replies data) (texts : kind = .acError ∨ kind = .version)
    (outlined : Extended.Outlined data outline) : ∃ r, outline = .records kind [r] ∧
      data.take (4 + (data.getD 3 0).toNat) = data.take 2 ++ r.bytes := by
  obtain ⟨subType, long⟩ := reply
  obtain ⟨found, known, outlined⟩ := outlined
  obtain rfl : found = kind := Kind.code_inj (known.trans subType)
  have behind : (data.drop headSize).length = data.length - 2 := List.length_drop
  -- A reply is longer than a request, so what was outlined is a record.
  cases outlined with
  | @request number _ requested =>
    have small : number.toList.length ≤ 1 := by cases number <;> simp
    rw [requested] at behind
    omega
  | @records records padding holds filled =>
    obtain ⟨r, rfl⟩ : ∃ r, records = [r] := by
      rcases texts with rfl | rfl <;> exact holds
    refine ⟨r, rfl, ?_⟩
    have whole : data.drop 2 = r.bytes ++ padding := by
      rw [show data.drop 2 = _ from filled, Record.join, List.flatMap_singleton]
    have count : data.getD 3 0 = UInt8.ofNat r.content.length := by
      have placed : (data.drop 2).getD 1 0 = data.getD 3 0 := by
        simp only [List.getD_eq_getElem?_getD, List.getElem?_drop]
      rw [← placed, whole]
      rfl
    have size : 4 + (data.getD 3 0).toNat = 2 + r.bytes.length := by
      rw [count, r.toNat_count, r.length_bytes]
      omega
    rw [size, List.take_add, whole, List.take_left]

theorem Agree.alike {data second : Bytes} {outline other : Outline} (agree : Agree data second)
    (outlined : Outlined data outline) (too : Outlined second other) : outline.Alike other := by
  cases agree with
  | abilities present held heldToo agree =>
    rename_i records others
    have presentToo : others ≠ [] := by
      rintro rfl
      exact present (List.map_eq_nil_iff.1 agree)
    rw [held.outline_eq present outlined, heldToo.outline_eq presentToo too]
    exact .abilities agree
  | text texts reply replyToo agree =>
    obtain ⟨r, rfl, front⟩ := reply.exists_record texts outlined
    obtain ⟨s, rfl, frontToo⟩ := replyToo.exists_record texts too
    -- The count comes before the text, and says how much of the bytes has to agree.
    have count : data.getD 3 0 = second.getD 3 0 := by
      have same := congrArg (fun bs : Bytes => bs.getD 3 0) agree
      simp only [List.getD_eq_getElem?_getD, List.getElem?_take] at same
      rwa [if_pos (by omega), if_pos (by omega)] at same
    rw [front, count, frontToo] at agree
    have heads : (data.take 2).length = (second.take 2).length := by
      rw [List.length_take_of_le (Nat.le_trans (by decide) reply.2),
        List.length_take_of_le (Nat.le_trans (by decide) replyToo.2)]
    obtain ⟨-, same⟩ := List.append_inj agree heads
    obtain ⟨rfl, -⟩ := Record.bytes_append_inj (congrArg (· ++ []) same)
    rcases texts with rfl | rfl
    · exact .error r
    · exact .version r

end Extended

/-! ## Agreement of frames -/

namespace Frame

/-- Two frames have the same address, number and mark, and payloads that agree. -/
structure Agree (frame other : Bytes) : Prop where
  address : wordAt frame 4 = wordAt other 4
  id : frame.getD 6 0 = other.getD 6 0
  mark : frame.getD 7 0 = other.getD 7 0
  payloads : frame.getD 7 0 = 0xC0 ∧ Control.Agree (payloadBytes frame) (payloadBytes other) ∨
    frame.getD 7 0 = 0x1F ∧ Extended.Agree (payloadBytes frame) (payloadBytes other)

theorem Agree.alike {frame second : Bytes} {outline other : Outline} (agree : Agree frame second)
    (outlined : Outlined frame outline) (too : Outlined second other) : outline.Alike other := by
  obtain ⟨family, known, outlined⟩ := outlined
  obtain ⟨found, knownToo, too⟩ := too
  obtain rfl : family = found := by
    have same := known.trans (agree.mark.trans knownToo.symm)
    cases family <;> cases found <;> first | rfl | cases same
  cases family with
  | control =>
    rcases agree.payloads with ⟨-, payloads⟩ | ⟨mark, -⟩
    · exact payloads.alike outlined too
    · cases known.trans mark
  | extended =>
    rcases agree.payloads with ⟨mark, -⟩ | ⟨-, payloads⟩
    · cases known.trans mark
    · exact payloads.alike outlined too

/-- **Decoding passes by what extends a frame.** Two frames that decode and agree decode to the
same packet, whatever their normal sections, the widths of their entries, the bytes beyond what is
known of entries and records, and the bytes behind the records, texts and payloads. -/
theorem decode_agree {frame other : Bytes} {packet second : Packet} (agree : Agree frame other)
    (received : decode frame = .ok packet) (too : decode other = .ok second) :
    packet = second := by
  obtain ⟨address, id, outline, outlined, means⟩ := (checks_decode frame).post_of_ok received
  obtain ⟨addressToo, idToo, _, outlinedToo, meansToo⟩ := (checks_decode other).post_of_ok too
  have payload := (agree.alike outlined outlinedToo).means_unique means meansToo
  rw [← agree.address, ← address] at addressToo
  rw [← agree.id, ← id] at idToo
  cases packet
  cases second
  cases addressToo
  cases idToo
  cases payload
  rfl

/-- A report of two units in entries of ten bytes. -/
def narrowReport : Bytes :=
  [0x55, 0x55, 0x55, 0xAA, 0xB0, 0x80, 0x07, 0xC0, 0x00, 0x1C, 0x23, 0x00, 0x00, 0x00, 0x00, 0x0A,
    0x00, 0x02, 0x10, 0x12, 0x78, 0xC0, 0x02, 0xDA, 0x00, 0x00, 0x80, 0x00, 0x01, 0x42, 0x64, 0xC0,
    0x02, 0xE4, 0x00, 0x00, 0x80, 0x00, 0xCC, 0xCC]

/-- The same report in entries of fourteen bytes, behind three bytes of a normal section. -/
def wideReport : Bytes :=
  [0x55, 0x55, 0x55, 0xAA, 0xB0, 0x80, 0x07, 0xC0, 0x00, 0x27, 0x23, 0x55, 0x00, 0x03, 0x00, 0x0E,
    0x00, 0x02, 0xAA, 0xBB, 0xCC, 0x10, 0x12, 0x78, 0xC0, 0x02, 0xDA, 0x00, 0x00, 0x80, 0x00, 0x01,
    0x02, 0x03, 0x04, 0x01, 0x42, 0x64, 0xC0, 0x02, 0xE4, 0x00, 0x00, 0x80, 0x00, 0x05, 0x06, 0x07,
    0x08]

/-- The two reports decode to the same packet. -/
theorem decode_agree_reports :
    ∃ packet, decode narrowReport = .ok packet ∧ decode wideReport = .ok packet := by
  have agree : Agree narrowReport wideReport := by
    refine ⟨by decide, by decide, by decide, .inl ⟨by decide, ⟨by decide, by decide, ?_⟩⟩⟩
    decide
  obtain ⟨packet, received⟩ : ∃ packet, decode narrowReport = .ok packet := ⟨_, rfl⟩
  obtain ⟨second, too⟩ : ∃ second, decode wideReport = .ok second := ⟨_, rfl⟩
  have same : packet = second := decode_agree agree received too
  exact ⟨packet, received, same ▸ too⟩

end Frame

end ClimateLink
