import ClimateLink.Proofs.Frame.RoundTrip
import ClimateLink.Proofs.Packet.Grammar
import ClimateLink.Proofs.Packet.Settled
import ClimateLink.Proofs.Text.Reading

/-!
# Payloads that were read

Which of the payloads that were read can be written again. `Outline.Unwritable` says it of the parts
that stand on the wire: a zone may be asked to open to more than all, and a text may have grown when
what is no text in it was replaced.

**Theorem (`Control.rewrites`, `Extended.rewrites`).** A payload is written, and is not too large
for a frame, exactly if nothing in its outline is unwritable, and its canonical form is the settled
one then.
-/

namespace ClimateLink

open Wire

/-! ## What cannot be written -/

/-- The bytes of a record that are read as a text. The name of an ability is what stands before the
first zero byte in the first sixteen. -/
def Record.text (kind : Extended.Kind) (r : Record) : Bytes :=
  if kind = .acAbility then (r.content.take 16).takeWhile (· != 0) else r.content

/-- The bytes of that text when it is written. -/
def Record.grown (kind : Extended.Kind) (r : Record) : Nat :=
  (Text.utf8 (Text.ofUtf8 (r.text kind))).length

/-- The most bytes that a text can have. -/
def Extended.Kind.room (kind : Extended.Kind) : Nat := if kind = .acAbility then 16 else 255

/-- The parts that are read but not written. -/
inductive Outline.Unwritable : Outline → Prop
  /-- A zone that is asked to open to more than all. -/
  | opening {slices : List Bytes} {slice : Bytes} {entry : ZoneControl} (among : slice ∈ slices)
    (read : Entry.read? slice = some entry) (change : entry.change = .openPercentage)
    (beyond : 100 < (slice.getD 2 0).toNat) : Unwritable (.entries .zoneControl slices)
  /-- A text that was none, and has grown too long. -/
  | text {kind : Extended.Kind} {records : List Record} {r : Record} (among : r ∈ records)
    (invalid : ¬Text.Valid (r.text kind)) (long : kind.room < r.grown kind) :
    Unwritable (.records kind records)
  /-- Names that have grown too large together, some of which were no texts. -/
  | names {records : List Record} {r : Record} (among : r ∈ records)
    (invalid : ¬Text.Valid (r.text .zoneName))
    (large : 65535 < 2 + (records.map fun r => 2 + r.grown .zoneName).sum) :
    Unwritable (.records .zoneName records)

/-! ## Writing again -/

/-- The payload has bytes, and not too many for a frame. -/
def Payload.Writable (payload : Payload) : Prop :=
  ∃ bytes, payload.encode = .ok bytes ∧ bytes.length ≤ Frame.maxPayload

/-- The payload is written unless its outline has something unwritable, and settles. -/
def Rewrites (outline : Outline) (payload : Payload) : Prop :=
  (payload.Writable ↔ ¬outline.Unwritable) ∧
    (¬outline.Unwritable → payload.canonical = payload.settled)

namespace Control

section Entries

variable {α : Type} [Entry α] {kind : Kind} {width : UInt16}

theorem exists_writeEntries {entries : List α} (count : entries.length ≤ 65535)
    (each : ∀ e ∈ entries, ∃ bytes, Entry.write e = .ok bytes) :
    ∃ bytes, writeEntries kind width entries = .ok bytes ∧
      bytes.length = 8 + Entry.width α * entries.length := by
  obtain ⟨parts, written⟩ := exists_mapM_ok_iff.2 each
  have all := mapM_eq_ok.1 written
  refine ⟨_, writeEntries_eq_ok_iff.2 ⟨count, parts, all, rfl⟩, ?_⟩
  rw [List.length_append, length_flatten (length_eq_width all), ← all.length_eq]
  rfl

theorem not_writeEntries {entries : List α} {e : α} (among : e ∈ entries)
    (refused : ∃ fault, Entry.write e = .error fault) :
    ¬∃ bytes, writeEntries kind width entries = .ok bytes := by
  rintro ⟨bytes, written⟩
  obtain ⟨-, parts, each, -⟩ := writeEntries_eq_ok_iff.1 written
  exact exists_error_iff.1 refused (exists_mapM_ok_iff.1 ⟨parts, mapM_eq_ok.2 each⟩ e among)

theorem exists_writeEntries_of_read {data : Bytes} (obeyed : Obeyed (rules data))
    (small : data.length ≤ 65535) (known : kind.code = (Head.of data).subType)
    (layout : kind.width = Entry.width α) {entries : List α}
    (read : ((List.range (Head.of data).count).map (sliceAt data)).map Entry.read? =
      entries.map some)
    (each : ∀ e ∈ entries, ∃ bytes, Entry.write e = .ok bytes) :
    ∃ bytes, writeEntries kind width entries = .ok bytes ∧ bytes.length ≤ Frame.maxPayload := by
  obtain ⟨long, obeyed⟩ := obeyed_cons.1 obeyed
  obtain ⟨-, obeyed⟩ := obeyed_cons.1 obeyed
  obtain ⟨filled, obeyed⟩ := obeyed_cons.1 obeyed
  obtain ⟨wide, -⟩ := obeyed_cons.1 obeyed
  simp only [← known, ← kind.width_eq, layout] at long filled wide
  have count : entries.length = (Head.of data).count := by
    have := congrArg List.length read
    simpa using this.symm
  have few : (Head.of data).count < 65536 := (wordAt data 6).toNat_lt
  obtain ⟨bytes, written, size⟩ := exists_writeEntries (by omega) each
  refine ⟨bytes, written, ?_⟩
  -- The entries are written at their own width, which is not more than the one that was declared.
  have inside : Entry.width α * (Head.of data).count ≤
      (Head.of data).width * (Head.of data).count := by
    rcases wide with none | wide
    · rw [none]
      exact Nat.le_refl _
    · exact Nat.mul_le_mul_right _ wide
  rw [size, count]
  show _ ≤ 65535
  omega

/-- If what is read from each slice is written and settles, entries are and do. -/
theorem each_of_read {canonical settled : α → α} {slices : List Bytes} {entries : List α}
    (read : slices.map Entry.read? = entries.map some)
    (one : ∀ {slice e}, slice ∈ slices → Entry.read? slice = some e →
      ∃ bytes, Entry.write e = .ok bytes ∧ canonical e = settled e) :
    (∀ e ∈ entries, ∃ bytes, Entry.write e = .ok bytes) ∧
      entries.map canonical = entries.map settled := by
  have found (e : α) (among : e ∈ entries) :
      ∃ bytes, Entry.write e = .ok bytes ∧ canonical e = settled e := by
    obtain ⟨slice, inside, found⟩ := exists_of_map_eq read among
    exact one inside found
  constructor
  · intro e among
    obtain ⟨bytes, written, -⟩ := found e among
    exact ⟨bytes, written⟩
  · refine List.map_congr_left fun e among => ?_
    obtain ⟨-, -, same⟩ := found e among
    exact same

end Entries

/-- **Control payloads are written again**, unless a zone is asked to open to more than all. -/
theorem rewrites {data : Bytes} {outline : Outline} {payload : Payload}
    (obeyed : Obeyed (rules data)) (small : data.length ≤ 65535)
    (outlined : Outlined data outline) (means : outline.Means payload) :
    Rewrites outline payload := by
  obtain ⟨known⟩ := outlined
  cases means with
  | @zoneControl _ zones read =>
    have fine (open_ok : ¬(Outline.entries .zoneControl _).Unwritable) :=
      each_of_read read fun among found => ZoneControl.exists_write found fun change =>
        Nat.not_lt.1 fun beyond => open_ok (.opening among found change beyond)
    refine ⟨⟨?_, fun open_ok => ?_⟩, fun open_ok => ?_⟩
    · rintro ⟨bytes, written, -⟩ (@⟨_, slice, entry, among, found, change, beyond⟩)
      have listed : entry ∈ zones := by
        obtain ⟨zone, listed, same⟩ := List.mem_map.1 (read ▸ List.mem_map_of_mem among)
        rw [found] at same
        exact Option.some.inj same ▸ listed
      exact not_writeEntries listed (ZoneControl.exists_write_error found change beyond)
        ⟨bytes, written⟩
    · exact exists_writeEntries_of_read obeyed small known rfl read (fine open_ok).1
    · exact congrArg Payload.zoneControl ((fine open_ok).2.trans (List.map_id _))
  | zoneStatus read =>
    obtain ⟨each, same⟩ := each_of_read read fun _ found => ZoneStatus.exists_write found
    refine ⟨iff_of_true ?_ nofun, fun _ => ?_⟩
    · exact exists_writeEntries_of_read obeyed small known rfl read each
    · exact congrArg Payload.zoneStatus (same.trans (List.map_id _))
  | acControl read =>
    obtain ⟨each, same⟩ := each_of_read read fun _ found => AcControl.exists_write found
    refine ⟨iff_of_true ?_ nofun, fun _ => ?_⟩
    · exact exists_writeEntries_of_read obeyed small known rfl read each
    · exact congrArg Payload.acControl same
  | acStatus read =>
    obtain ⟨each, same⟩ := each_of_read read fun _ found => AcStatus.exists_write found
    refine ⟨iff_of_true ?_ nofun, fun _ => ?_⟩
    · exact exists_writeEntries_of_read obeyed small known rfl read each
    · exact congrArg Payload.acStatus (same.trans (List.map_id _))

end Control

namespace Extended

/-! ### Texts -/

/-- A text that has not been replaced has room where it was. -/
theorem grown_eq_of_valid {kind : Kind} {r : Record} (valid : Text.Valid (r.text kind)) :
    r.grown kind = (r.text kind).length := by
  rw [Record.grown, Text.utf8_ofUtf8 valid]

theorem length_text_le (kind : Kind) (r : Record) : (r.text kind).length ≤ kind.room := by
  by_cases named : kind = .acAbility
  · rw [Record.text, if_pos named, Kind.room, if_pos named]
    exact (List.takeWhile_prefix _).length_le.trans (List.length_take_le 16 _)
  · rw [Record.text, if_neg named, Kind.room, if_neg named]
    exact Nat.le_of_lt_succ r.counted

/-- Where nothing is unwritable, every text has room. -/
theorem grown_le {kind : Kind} {records : List Record}
    (writable : ¬(Outline.records kind records).Unwritable) :
    ∀ r ∈ records, r.grown kind ≤ kind.room := by
  intro r among
  by_cases valid : Text.Valid (r.text kind)
  · rw [grown_eq_of_valid valid]
    exact length_text_le kind r
  · exact Nat.not_lt.1 fun long => writable (.text among valid long)

theorem writeText_eq_ok_iff {field : Field} {s : String} {bytes : Bytes} :
    writeText field s = .ok bytes ↔ (Text.utf8 s).length ≤ 255 ∧
      UInt8.ofNat (Text.utf8 s).length :: Text.utf8 s = bytes := by
  by_cases fits : (Text.utf8 s).length ≤ 255
  · simp [writeText, fits]
  · simp [writeText, fits]

/-- A payload that is one text behind a few bytes is written if the text has room. -/
theorem writable_of_text (payload : Payload) (front : Bytes) {field : Field} {text : String}
    (encode : payload.encode = do
      let bytes ← writeText field text
      return front ++ bytes)
    (short : front.length ≤ 3) : payload.Writable ↔ (Text.utf8 text).length ≤ 255 := by
  rw [Payload.Writable, encode]
  constructor
  · rintro ⟨bytes, written, -⟩
    obtain ⟨_, wrote, -⟩ := bind_eq_ok.1 written
    exact (writeText_eq_ok_iff.1 wrote).1
  · intro fits
    refine ⟨_, bind_eq_ok.2 ⟨_, writeText_eq_ok_iff.2 ⟨fits, rfl⟩, rfl⟩, ?_⟩
    rw [List.length_append, List.length_cons]
    show _ ≤ 65535
    omega

theorem writable_single_iff {kind : Kind} (single : kind = .acError ∨ kind = .version)
    {r : Record} {payload : Payload} (decides : payload.Writable ↔ r.grown kind ≤ 255) :
    payload.Writable ↔ ¬(Outline.records kind [r]).Unwritable := by
  have room : kind.room = 255 := by
    rcases single with rfl | rfl <;> rfl
  rw [decides]
  constructor
  · intro fits unwritable
    cases unwritable with
    | text among _ long =>
      rw [List.mem_singleton.1 among, room] at long
      omega
    | names => rcases single with same | same <;> cases same
  · intro writable
    exact room ▸ grown_le writable r (List.mem_singleton.2 rfl)

/-! ### Abilities -/

/-- The name of an ability is the text of its record, and has no zero character. -/
theorem of_ability? {r : Record} {a : AcAbility} (read : r.ability? = some a) :
    a.name = Text.ofUtf8 (r.text .acAbility) ∧ a.canonical = a := by
  have name : a.name = Text.ofUtf8 (r.text .acAbility) := by
    rw [Record.ability?, readAbility?] at read
    split at read
    · cases read
      rfl
    · cases read
  refine ⟨name, ?_⟩
  have nonzero : ∀ b ∈ r.text .acAbility, b ≠ 0 := by
    intro b among
    have kept : (b != 0) = true := List.mem_takeWhile_imp (p := (· != 0)) among
    exact bne_iff_ne.1 kept
  rw [AcAbility.canonical_eq_self_iff, name]
  exact fun among => Text.ne_zero_of_mem_ofUtf8 nonzero _ among rfl

theorem exists_writeAbility_iff {a : AcAbility} :
    (∃ bytes, writeAbility a = .ok bytes) ↔ (Text.utf8 a.name).length ≤ 16 := by
  by_cases fits : (Text.utf8 a.name).length ≤ nameSize
  · simp only [writeAbility, if_pos fits]
    exact iff_of_true ⟨_, rfl⟩ fits
  · simp only [writeAbility, if_neg fits]
    refine iff_of_false ?_ fits
    rintro ⟨bytes, h⟩
    cases h

theorem length_flatten_writeAbility {units : List AcAbility} {parts : List Bytes}
    (h : List.Forall₂ (fun a bytes => writeAbility a = .ok bytes) units parts) :
    parts.flatten.length = 26 * units.length := by
  rw [h.length_eq]
  refine Control.length_flatten fun p among => ?_
  induction h with
  | nil => cases among
  | cons wrote _ ih =>
    rcases List.mem_cons.1 among with rfl | among
    · obtain ⟨record, rfl, size, -⟩ := writeAbility_eq_ok wrote
      rw [List.length_cons, List.length_cons, size]
    · exact ih among

/-- Records that are wide enough for abilities take at least 26 bytes each. -/
theorem le_length_join {records : List Record} (wide : ∀ r ∈ records, 24 ≤ r.content.length) :
    26 * records.length ≤ (Record.join records).length := by
  induction records with
  | nil => exact Nat.zero_le _
  | cons r records ih =>
    obtain ⟨first, later⟩ := List.forall_mem_cons.1 wide
    have := ih later
    rw [Record.join_cons, List.length_append, Record.length_bytes, List.length_cons]
    omega

theorem rewrites_abilities {records : List Record} {units : List AcAbility}
    (read : records.map Record.ability? = units.map some)
    (wide : ∀ r ∈ records, 24 ≤ r.content.length)
    (small : 2 + (Record.join records).length ≤ 65535) :
    Rewrites (.records .acAbility records) (.acAbility units) := by
  have name (a : AcAbility) (among : a ∈ units) : ∃ r ∈ records,
      (Text.utf8 a.name).length = r.grown .acAbility ∧ a.canonical = a := by
    obtain ⟨r, inside, found⟩ := exists_of_map_eq read among
    obtain ⟨name, same⟩ := of_ability? found
    exact ⟨r, inside, by rw [name, Record.grown], same⟩
  refine ⟨⟨?_, fun writable => ?_⟩, fun _ => ?_⟩
  · rintro ⟨bytes, written, -⟩ unwritable
    cases unwritable with
    | @text _ _ r among _ long =>
      obtain ⟨parts, each, -⟩ := bind_eq_ok.1 written
      obtain ⟨a, listed, found⟩ := List.mem_map.1 (read ▸ List.mem_map_of_mem among)
      have fits := exists_writeAbility_iff.1 (exists_mapM_ok_iff.1 ⟨parts, each⟩ a listed)
      rw [(of_ability? found.symm).1] at fits
      exact absurd fits (Nat.not_le.2 long)
  · have each : ∀ a ∈ units, ∃ bytes, writeAbility a = .ok bytes := by
      intro a among
      obtain ⟨r, inside, size, -⟩ := name a among
      exact exists_writeAbility_iff.2 (size ▸ grown_le writable r inside)
    obtain ⟨parts, written⟩ := exists_mapM_ok_iff.2 each
    have count : units.length = records.length := by
      have := congrArg List.length read
      simpa using this.symm
    have size := length_flatten_writeAbility (mapM_eq_ok.1 written)
    -- Records have been as wide as they are written again, so the bytes do not become more.
    have room := le_length_join wide
    refine ⟨_, bind_eq_ok.2 ⟨parts, written, rfl⟩, ?_⟩
    rw [List.length_append, size, count]
    show 2 + _ ≤ 65535
    omega
  · have same : units.map AcAbility.canonical = units := by
      refine (List.map_congr_left fun a among => ?_).trans (List.map_id units)
      obtain ⟨-, -, -, same⟩ := name a among
      exact same
    cases units with
    | nil => rfl
    | cons a units => exact congrArg Payload.acAbility same

/-! ### Names of zones -/

theorem length_join (records : List Record) :
    (Record.join records).length = (records.map fun r => 2 + r.content.length).sum := by
  rw [Record.join, List.length_flatMap]
  simp only [Record.length_bytes, Nat.add_comm 2]

theorem writeName_eq_ok_iff {r : Record} {bytes : Bytes} :
    writeName r.zoneName = .ok bytes ↔ r.grown .zoneName ≤ 255 ∧
      r.number :: UInt8.ofNat (r.grown .zoneName) :: Text.utf8 (Text.ofUtf8 r.content) = bytes := by
  rw [writeName, map_eq_ok]
  constructor
  · rintro ⟨text, wrote, rfl⟩
    obtain ⟨fits, rfl⟩ := writeText_eq_ok_iff.1 wrote
    exact ⟨fits, rfl⟩
  · rintro ⟨fits, rfl⟩
    exact ⟨_, writeText_eq_ok_iff.2 ⟨fits, rfl⟩, rfl⟩

/-- Names that are written take the room to which they have grown. -/
theorem length_flatten_writeName {records : List Record} {parts : List Bytes}
    (h : List.Forall₂ (fun r bytes => writeName r.zoneName = .ok bytes) records parts) :
    parts.flatten.length = (records.map fun r => 2 + r.grown .zoneName).sum := by
  induction h with
  | nil => rfl
  | cons wrote _ ih =>
    obtain ⟨-, rfl⟩ := writeName_eq_ok_iff.1 wrote
    rw [List.flatten_cons, List.length_append, ih, List.map_cons, List.sum_cons]
    show _ + 1 + 1 + _ = _
    rw [Nat.add_comm 2]
    rfl

theorem writable_names_iff (records : List Record) :
    (Payload.zoneNames (records.map Record.zoneName)).Writable ↔
      (∀ r ∈ records, r.grown .zoneName ≤ 255) ∧
        2 + (records.map fun r => 2 + r.grown .zoneName).sum ≤ 65535 := by
  constructor
  · rintro ⟨bytes, written, small⟩
    obtain ⟨parts, each, rest⟩ := bind_eq_ok.1 written
    cases rest
    have all := List.forall₂_map_left_iff.1 (mapM_eq_ok.1 each)
    rw [List.length_append, length_flatten_writeName all] at small
    refine ⟨fun r among => ?_, small⟩
    obtain ⟨bytes, wrote⟩ :=
      exists_mapM_ok_iff.1 ⟨parts, each⟩ r.zoneName (List.mem_map_of_mem among)
    exact (writeName_eq_ok_iff.1 wrote).1
  · rintro ⟨fits, small⟩
    obtain ⟨parts, each⟩ := exists_mapM_ok_iff.2 (List.forall_mem_map.2 fun r among =>
      ⟨_, writeName_eq_ok_iff.2 ⟨fits r among, rfl⟩⟩)
    have all := List.forall₂_map_left_iff.1 (mapM_eq_ok.1 each)
    refine ⟨_, bind_eq_ok.2 ⟨parts, each, rfl⟩, ?_⟩
    rw [List.length_append, length_flatten_writeName all]
    exact small

theorem rewrites_names {records : List Record} (some_record : records ≠ [])
    (small : 2 + (Record.join records).length ≤ 65535) :
    Rewrites (.records .zoneName records) (.zoneNames (records.map Record.zoneName)) := by
  refine ⟨⟨?_, fun writable => ?_⟩, fun _ => ?_⟩
  · intro writable unwritable
    obtain ⟨fits, total⟩ := (writable_names_iff records).1 writable
    cases unwritable with
    | text among _ long => exact absurd (fits _ among) (Nat.not_le.2 long)
    | names _ _ large => exact absurd total (Nat.not_le.2 large)
  · refine (writable_names_iff records).2 ⟨grown_le writable, ?_⟩
    -- Valid texts do not grow; where one is not valid, the outline says if the sum is too large.
    by_cases valid : ∀ r ∈ records, Text.Valid (r.text .zoneName)
    · have same : (records.map fun r => 2 + r.grown .zoneName) =
          records.map fun r => 2 + r.content.length :=
        List.map_congr_left fun r among => congrArg (2 + ·) (grown_eq_of_valid (valid r among))
      rwa [same, ← length_join]
    · push Not at valid
      obtain ⟨r, among, invalid⟩ := valid
      exact Nat.not_lt.1 fun large => writable (.names among invalid large)
  · cases records with
    | nil => exact absurd rfl some_record
    | cons r records => rfl

/-! ### All kinds -/

theorem rewrites_request {kind : Kind} {number : Option UInt8} {payload : Payload}
    (means : (Outline.request kind number).Means payload) :
    Rewrites (.request kind number) payload := by
  refine ⟨iff_of_true ?_ nofun, fun _ => ?_⟩
  · cases means with
    | abilityRequest | nameRequest =>
      refine ⟨_, rfl, ?_⟩
      cases number <;> exact Nat.le_of_ble_eq_true rfl
    | errorRequest | versionRequest => exact ⟨_, rfl, Nat.le_of_ble_eq_true rfl⟩
  · cases means <;> rfl

/-- **Extended payloads are written again**, unless texts have grown too long. -/
theorem rewrites {data : Bytes} {outline : Outline} {payload : Payload}
    (small : data.length ≤ 65535) (outlined : Outlined data outline)
    (means : outline.Means payload) (long : 2 ≤ data.length) :
    Rewrites outline payload := by
  obtain ⟨kind, known, outlined⟩ := outlined
  cases outlined with
  | request => exact rewrites_request means
  | @records records padding holds filled =>
    have room : 2 + (Record.join records).length ≤ 65535 := by
      have size := congrArg List.length filled
      rw [List.length_drop, List.length_append, show headSize = 2 from rfl] at size
      omega
    cases means with
    | abilities read => exact rewrites_abilities read holds.1 room
    | names => exact rewrites_names holds.1 room
    | error r =>
      have decides := writable_of_text (.acError r.number (Text.ofUtf8 r.content))
        (wordBytes Kind.acError.code ++ [r.number]) rfl (Nat.le_refl 3)
      exact ⟨writable_single_iff (.inl rfl) decides, fun _ => rfl⟩
    | version r =>
      have decides := writable_of_text (.version (r.number != 0) (Text.ofUtf8 r.content))
        (wordBytes Kind.version.code ++ [UInt8.ofNat (r.number != 0).toNat]) rfl (Nat.le_refl 3)
      exact ⟨writable_single_iff (.inr rfl) decides, fun _ => rfl⟩

end Extended

end ClimateLink
