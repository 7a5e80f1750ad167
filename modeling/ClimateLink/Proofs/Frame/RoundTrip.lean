import ClimateLink.Frame.Coding
import ClimateLink.Proofs.Packet.Canonical

/-!
# Decoding undoes encoding

**Theorem (`decode_eq_canonical`).** A packet that has a frame is read back from it in canonical
form, with its address and its id.

The proof goes from the inside out: lists of entries and records (by induction), payloads of the
two families, frames.
-/

namespace ClimateLink

open Wire

/-! ## Control payloads -/

namespace Control

theorem length_flatten {width : Nat} {parts : List Bytes} (h : ∀ p ∈ parts, p.length = width) :
    parts.flatten.length = width * parts.length := by
  induction parts with
  | nil => rfl
  | cons p parts ih =>
    rw [List.flatten_cons, List.length_append, h p (List.mem_cons_self ..),
      ih fun q hq => h q (List.mem_cons_of_mem _ hq), List.length_cons, Nat.mul_succ, Nat.add_comm]

theorem slices_flatten {width : Nat} {parts : List Bytes} (h : ∀ p ∈ parts, p.length = width) :
    slices width parts.length parts.flatten = parts := by
  induction parts with
  | nil => rfl
  | cons p parts ih =>
    have hp : p.length = width := h p (List.mem_cons_self ..)
    rw [List.flatten_cons, List.length_cons, slices, List.take_left' hp, List.drop_left' hp,
      ih fun q hq => h q (List.mem_cons_of_mem _ hq)]

theorem Head.read_write (kind : Kind) (width count : UInt16) (body : Bytes) :
    Head.read (Head.write kind width count ++ body) =
      .ok (⟨kind.code, 0, width.toNat, count.toNat⟩, body) := by
  have hzero : (word 0 0).toNat = 0 := rfl
  simp [Head.read, Head.write, wordBytes, hzero]

section Entries

variable {α : Type} [Entry α]

theorem length_eq_width {entries : List α} {parts : List Bytes}
    (h : List.Forall₂ (fun a bytes => Entry.write a = .ok bytes) entries parts) :
    ∀ p ∈ parts, p.length = Entry.width α := by
  induction h with
  | nil => exact fun _ hp => absurd hp List.not_mem_nil
  | cons ha _ ih =>
    intro p hp
    rcases List.mem_cons.1 hp with rfl | hp
    · exact Entry.length_write ha
    · exact ih p hp

theorem filterMap_read? {canonical : α → α}
    (hread : ∀ {a : α} {bytes : Bytes}, Entry.write a = .ok bytes →
      Entry.read? bytes = some (canonical a))
    {entries : List α} {parts : List Bytes}
    (h : List.Forall₂ (fun a bytes => Entry.write a = .ok bytes) entries parts) :
    parts.filterMap (Entry.read? (α := α)) = entries.map canonical := by
  induction h with
  | nil => rfl
  | cons ha _ ih => rw [List.filterMap_cons, hread ha, List.map_cons, ih]

theorem writeEntries_eq_ok_iff {kind : Kind} {width : UInt16} {entries : List α} {bytes : Bytes} :
    writeEntries kind width entries = .ok bytes ↔ entries.length ≤ 65535 ∧
      ∃ parts, List.Forall₂ (fun a part => Entry.write a = .ok part) entries parts ∧
        Head.write kind width (UInt16.ofNat entries.length) ++ parts.flatten = bytes := by
  by_cases many : 65535 < entries.length
  · rw [writeEntries, if_pos many]
    refine iff_of_false (fun h => ?_) fun few => absurd few.1 (Nat.not_le.2 many)
    cases h
  · rw [writeEntries, if_neg many]
    constructor
    · intro h
      obtain ⟨parts, written, rest⟩ := bind_eq_ok.1 h
      cases rest
      exact ⟨Nat.le_of_not_lt many, parts, mapM_eq_ok.1 written, rfl⟩
    · rintro ⟨-, parts, written, rfl⟩
      exact bind_eq_ok.2 ⟨parts, mapM_eq_ok.2 written, rfl⟩

/-- A control payload that is written is read with the kind and the canonical entries that it was
written from. The declared width matters only if there are entries. -/
theorem read_writeEntries {canonical : α → α}
    (hread : ∀ {a : α} {bytes : Bytes}, Entry.write a = .ok bytes →
      Entry.read? bytes = some (canonical a))
    {kind : Kind} (hkind : kind.width = Entry.width α) {width : UInt16} {entries : List α}
    (hwidth : entries ≠ [] → width.toNat = Entry.width α) {bytes : Bytes}
    (h : writeEntries kind width entries = .ok bytes) :
    ∃ head body, read bytes = .ok (readKind head body kind) ∧
      readEntries α head body = entries.map canonical := by
  obtain ⟨few, parts, hwrite, rfl⟩ := writeEntries_eq_ok_iff.1 h
  have hlength := length_eq_width hwrite
  have hcount : (UInt16.ofNat entries.length).toNat = parts.length := by
    rw [UInt16.toNat_ofNat', Nat.mod_eq_of_lt (by omega), hwrite.length_eq]
  -- Without entries a report declares no width, and none is needed.
  have hwide : parts ≠ [] → width.toNat = Entry.width α := fun hp =>
    hwidth fun he => hp (List.forall₂_nil_left_iff.1 (he ▸ hwrite))
  have hbody : ∀ p ∈ parts, p.length = width.toNat := fun p hp => by
    rw [hlength p hp, hwide (List.ne_nil_of_mem hp)]
  refine ⟨⟨kind.code, 0, width.toNat, parts.length⟩, parts.flatten, ?_, ?_⟩
  · have hnarrow : ¬(0 < parts.length ∧ width.toNat < kind.width) := by
      rintro ⟨hpos, hlt⟩
      rw [hwide (List.ne_nil_of_length_pos hpos), hkind] at hlt
      exact Nat.lt_irrefl _ hlt
    rw [read, Head.read_write, hcount]
    simp only [bind, Except.bind, Kind.ofCode?_code]
    rw [if_neg (by rw [length_flatten hbody]; simp), if_neg hnarrow]
  · rw [readEntries, List.drop_zero, slices_flatten hbody, filterMap_read? hread hwrite]

end Entries

theorem toNat_reportWidth {α : Type} [Entry α] {entries : List α} (h : Entry.width α < 65536) :
    entries ≠ [] → (reportWidth entries).toNat = Entry.width α := by
  intro hne
  rw [reportWidth, if_neg (by simpa using hne), UInt16.toNat_ofNat', Nat.mod_eq_of_lt h]

end Control

/-! ## Extended payloads -/

namespace Extended

theorem readNames_cons (zone : UInt8) (bytes : Bytes) :
    readNames (zone :: bytes) =
      (readText .zoneName bytes >>= fun r => (⟨zone, r.1⟩ :: ·) <$> readNames r.2) := by
  cases bytes with
  | nil => rw [readNames]; rfl
  | cons n rest =>
    by_cases fits : n.toNat ≤ rest.length
    · rw [readNames, readText, if_pos fits, if_pos fits]
      rfl
    · rw [readNames, readText, if_neg fits, if_neg fits]
      rfl

theorem exists_cons_of_writeText {field : Field} {text : String} {bytes : Bytes}
    (h : writeText field text = .ok bytes) : ∃ n rest, bytes = n :: rest := by
  by_cases fits : (Text.utf8 text).length ≤ 255
  · simp only [writeText, if_pos fits] at h
    cases h
    exact ⟨_, _, rfl⟩
  · simp only [writeText, if_neg fits] at h
    cases h

theorem readNames_writeName {entries : List ZoneName} {parts : List Bytes}
    (h : List.Forall₂ (fun entry bytes => writeName entry = .ok bytes) entries parts) :
    readNames parts.flatten = .ok entries := by
  induction h with
  | nil => rw [List.flatten_nil, readNames]
  | @cons entry bytes entries parts hentry _ ih =>
    obtain ⟨text, htext, rfl⟩ := map_eq_ok.1 hentry
    rw [List.flatten_cons, List.cons_append, readNames_cons,
      readText_writeText htext .zoneName parts.flatten]
    show (_ <$> readNames parts.flatten) = _
    rw [ih]
    rfl

theorem ne_zero_of_mem_utf8EncodeChar {c : Char} (hc : c ≠ '\x00') {b : UInt8}
    (hb : b ∈ String.utf8EncodeChar c) : b ≠ 0 := by
  have hv : c.val.toNat ≠ 0 := fun h => hc (Char.ext (UInt32.toNat_inj.1 h))
  have toNat (n : Nat) (h : n < 256) (hn : n ≠ 0) : UInt8.ofNat n ≠ 0 := by
    intro hz
    have := congrArg UInt8.toNat hz
    rw [UInt8.toNat_ofNat', Nat.mod_eq_of_lt h] at this
    exact hn this
  -- One byte is the number itself; the bytes of longer forms have their first bit set.
  unfold String.utf8EncodeChar at hb
  generalize c.val.toNat = v at *
  simp only at hb
  split at hb
  · rw [List.mem_singleton.1 hb]
    exact toNat v (by omega) hv
  split at hb
  · simp only [List.mem_cons, List.not_mem_nil, or_false] at hb
    rcases hb with rfl | rfl <;> exact toNat _ (by omega) (by omega)
  split at hb
  · simp only [List.mem_cons, List.not_mem_nil, or_false] at hb
    rcases hb with rfl | rfl | rfl <;> exact toNat _ (by omega) (by omega)
  · simp only [List.mem_cons, List.not_mem_nil, or_false] at hb
    rcases hb with rfl | rfl | rfl | rfl <;> exact toNat _ (by omega) (by omega)

theorem takeWhile_utf8 (name : String) (zeros : Nat) :
    (Text.utf8 name ++ List.replicate zeros 0).takeWhile (· != 0) =
      Text.utf8 (String.ofList (name.toList.takeWhile (· ≠ '\x00'))) := by
  simp only [Text.utf8, String.toList_ofList]
  induction name.toList with
  | nil => cases zeros <;> rfl
  | cons c cs ih =>
    by_cases hc : c = '\x00'
    · subst hc
      rfl
    · have hne : ∀ b ∈ String.utf8EncodeChar c, (b != 0) = true := fun b hb =>
        bne_iff_ne.2 (ne_zero_of_mem_utf8EncodeChar hc hb)
      rw [List.flatMap_cons, List.append_assoc, List.takeWhile_append_of_pos hne, ih,
        List.takeWhile_cons_of_pos (by simpa using hc), List.flatMap_cons]

theorem readModes_writeModes (m : ModeSupport) : readModes (writeModes m) = m := by
  rcases m with ⟨cool, fan, dry, heat, auto⟩
  simp only [readModes, ModeSupport.mk.injEq]
  refine ⟨?_, ?_, ?_, ?_, ?_⟩
  · exact flag_pack [(3, 0)] cool [(1, _), (1, _), (1, _), (1, _)] rfl
  · exact flag_pack [(3, 0), (1, _)] fan [(1, _), (1, _), (1, _)] rfl
  · exact flag_pack [(3, 0), (1, _), (1, _)] dry [(1, _), (1, _)] rfl
  · exact flag_pack [(3, 0), (1, _), (1, _), (1, _)] heat [(1, _)] rfl
  · exact flag_pack [(3, 0), (1, _), (1, _), (1, _), (1, _)] auto [] rfl

theorem readFans_writeFans (f : FanSupport) : readFans (writeFans f) = f := by
  rcases f with ⟨intelligentAuto, turbo, powerful, high, medium, low, quiet, auto⟩
  simp only [readFans, FanSupport.mk.injEq]
  refine ⟨?_, ?_, ?_, ?_, ?_, ?_, ?_, ?_⟩
  · exact flag_pack [] intelligentAuto
      [(1, _), (1, _), (1, _), (1, _), (1, _), (1, _), (1, _)] rfl
  · exact flag_pack [(1, _)] turbo [(1, _), (1, _), (1, _), (1, _), (1, _), (1, _)] rfl
  · exact flag_pack [(1, _), (1, _)] powerful [(1, _), (1, _), (1, _), (1, _), (1, _)] rfl
  · exact flag_pack [(1, _), (1, _), (1, _)] high [(1, _), (1, _), (1, _), (1, _)] rfl
  · exact flag_pack [(1, _), (1, _), (1, _), (1, _)] medium [(1, _), (1, _), (1, _)] rfl
  · exact flag_pack [(1, _), (1, _), (1, _), (1, _), (1, _)] low [(1, _), (1, _)] rfl
  · exact flag_pack [(1, _), (1, _), (1, _), (1, _), (1, _), (1, _)] quiet [(1, _)] rfl
  · exact flag_pack [(1, _), (1, _), (1, _), (1, _), (1, _), (1, _), (1, _)] auto [] rfl

/-- An ability that is written is a record of 24 bytes behind its unit and that number, and the
record reads back in canonical form. -/
theorem writeAbility_eq_ok {a : AcAbility} {bytes : Bytes} (h : writeAbility a = .ok bytes) :
    ∃ record : Bytes, bytes = a.unit :: 24 :: record ∧ record.length = 24 ∧
      readAbility? a.unit record = some a.canonical := by
  by_cases fits : (Text.utf8 a.name).length ≤ nameSize
  · simp only [writeAbility, if_pos fits] at h
    cases h
    have hname : (Text.utf8 a.name ++
        List.replicate (nameSize - (Text.utf8 a.name).length) 0).length = nameSize := by
      rw [List.length_append, List.length_replicate]
      omega
    refine ⟨Text.utf8 a.name ++ List.replicate (nameSize - (Text.utf8 a.name).length) 0 ++
      [a.startZone, a.zoneCount, writeModes a.modes, writeFans a.fans, a.minCool, a.maxCool,
        a.minHeat, a.maxHeat], ?_, ?_, ?_⟩
    · simp [abilitySize, nameSize]
    · rw [List.length_append, hname]
      rfl
    · rw [readAbility?, List.take_left' hname, List.drop_left' hname, takeWhile_utf8]
      simp only [Text.ofUtf8_utf8, readModes_writeModes, readFans_writeFans, AcAbility.canonical]
  · simp only [writeAbility, if_neg fits] at h
    cases h

theorem readAbilities_writeAbility {units : List AcAbility} {parts : List Bytes}
    (h : List.Forall₂ (fun unit bytes => writeAbility unit = .ok bytes) units parts) :
    readAbilities parts.flatten = .ok (units.map AcAbility.canonical) := by
  induction h with
  | nil =>
    rw [List.flatten_nil, readAbilities]
    · rfl
    · intro _ _ _ h
      cases h
  | @cons unit bytes units parts hunit _ ih =>
    obtain ⟨record, rfl, hlength, hrecord⟩ := writeAbility_eq_ok hunit
    have hsize : (24 : UInt8).toNat = record.length := hlength.symm
    have hne : record ++ parts.flatten ≠ [] := by
      intro hnil
      rw [(List.append_eq_nil_iff.1 hnil).1] at hlength
      cases hlength
    rw [List.flatten_cons, List.cons_append, List.cons_append, readAbilities, if_neg hne,
      if_pos (by rw [hsize, List.length_append]; omega), hsize, List.take_left, List.drop_left]
    simp only [hrecord, ih]
    rfl

end Extended

/-! ## Payloads -/

/-- **A payload that is written reads back** in canonical form. -/
theorem Payload.decode_of_encode {payload : Payload} {bytes : Bytes}
    (h : payload.encode = .ok bytes) :
    Payload.decode payload.family bytes = .ok payload.canonical := by
  cases payload with
  | zoneControl zones =>
    obtain ⟨head, body, hread, hentries⟩ :=
      Control.read_writeEntries ZoneControl.read?_write rfl (fun _ => rfl) h
    rw [show Payload.decode _ bytes = Control.read bytes from rfl, hread, Control.readKind,
      hentries]
    rfl
  | zoneStatus zones =>
    obtain ⟨head, body, hread, hentries⟩ :=
      Control.read_writeEntries ZoneStatus.read?_write rfl (Control.toNat_reportWidth (by decide)) h
    rw [show Payload.decode _ bytes = Control.read bytes from rfl, hread, Control.readKind,
      hentries]
    rfl
  | acControl units =>
    obtain ⟨head, body, hread, hentries⟩ :=
      Control.read_writeEntries AcControl.read?_write rfl (fun _ => rfl) h
    rw [show Payload.decode _ bytes = Control.read bytes from rfl, hread, Control.readKind,
      hentries]
    rfl
  | acStatus units =>
    obtain ⟨head, body, hread, hentries⟩ :=
      Control.read_writeEntries AcStatus.read?_write rfl (Control.toNat_reportWidth (by decide)) h
    rw [show Payload.decode _ bytes = Control.read bytes from rfl, hread, Control.readKind,
      hentries]
    rfl
  | acAbilityRequest unit =>
    cases h
    cases unit <;> rfl
  | acAbility units =>
    obtain ⟨parts, hparts, h⟩ := bind_eq_ok.1 h
    cases h
    have hwrite := mapM_eq_ok.1 hparts
    cases hwrite with
    | nil => rfl
    | cons hunit hunits =>
      have habilities := Extended.readAbilities_writeAbility (.cons hunit hunits)
      obtain ⟨record, rfl, -, -⟩ := Extended.writeAbility_eq_ok hunit
      exact map_eq_ok.2 ⟨_, habilities, rfl⟩
  | acErrorRequest unit =>
    cases h
    rfl
  | acError unit text =>
    obtain ⟨bytes, hbytes, h⟩ := bind_eq_ok.1 h
    cases h
    have htext := Extended.readText_writeText hbytes .errorText []
    rw [List.append_nil] at htext
    obtain ⟨n, rest, rfl⟩ := Extended.exists_cons_of_writeText hbytes
    exact map_eq_ok.2 ⟨_, htext, rfl⟩
  | zoneNameRequest zone =>
    cases h
    cases zone <;> rfl
  | zoneNames entries =>
    obtain ⟨parts, hparts, h⟩ := bind_eq_ok.1 h
    cases h
    have hwrite := mapM_eq_ok.1 hparts
    cases hwrite with
    | nil => rfl
    | cons hentry hentries =>
      have hnames := Extended.readNames_writeName (.cons hentry hentries)
      obtain ⟨text, htext, rfl⟩ := map_eq_ok.1 hentry
      obtain ⟨n, rest, rfl⟩ := Extended.exists_cons_of_writeText htext
      exact map_eq_ok.2 ⟨_, hnames, rfl⟩
  | versionRequest =>
    cases h
    rfl
  | version hasUpdate text =>
    obtain ⟨bytes, hbytes, h⟩ := bind_eq_ok.1 h
    cases h
    have htext := Extended.readText_writeText hbytes .versionText []
    rw [List.append_nil] at htext
    refine map_eq_ok.2 ⟨_, htext, ?_⟩
    cases hasUpdate <;> rfl

/-! ## Frames -/

namespace Frame

/-- **A packet that has a frame is read back from it** in canonical form, with its address and
its id. -/
theorem decode_eq_canonical {packet : Packet} {frame : Bytes} (h : encode packet = .ok frame) :
    decode frame = .ok ⟨packet.address, packet.id, packet.payload.canonical⟩ := by
  obtain ⟨payload, hpayload, h⟩ := bind_eq_ok.1 h
  by_cases large : maxPayload < payload.length
  · rw [if_pos large] at h
    cases h
  rw [if_neg large] at h
  cases h
  have hlength : (UInt16.ofNat payload.length).toNat = payload.length := by
    unfold maxPayload at large
    rw [UInt16.toNat_ofNat', Nat.mod_eq_of_lt (by omega)]
  rw [decode, assemble, List.append_assoc, Header.decode_encode]
  simp only [bind, Except.bind, List.drop_left' (Header.length_encode _), hlength,
    Family.ofCode?_code]
  rw [if_neg (by simp), List.take_left, Payload.decode_of_encode hpayload]
  rfl

set_option maxRecDepth 8000 in
/-- A zone report whose numbers are all rounded, and whose setpoint is lost: it takes the byte that
stands for none. -/
theorem decode_eq_canonical_zoneStatus :
    encode ⟨0xB080, 7, .zoneStatus [⟨.turbo, 63, .temperature, 0.356, some 35.46, true, some 24.26,
        false, true⟩]⟩ =
      .ok [0x55, 0x55, 0x55, 0xAA, 0xB0, 0x80, 0x07, 0xC0, 0x00, 0x10, 0x21, 0x00, 0x00, 0x00,
        0x00, 0x08, 0x00, 0x01, 0xFF, 0xA4, 0xFF, 0x80, 0x02, 0xE7, 0x01, 0x00, 0x67, 0x0B] ∧
    decode [0x55, 0x55, 0x55, 0xAA, 0xB0, 0x80, 0x07, 0xC0, 0x00, 0x10, 0x21, 0x00, 0x00, 0x00,
        0x00, 0x08, 0x00, 0x01, 0xFF, 0xA4, 0xFF, 0x80, 0x02, 0xE7, 0x01, 0x00, 0x67, 0x0B] =
      .ok ⟨0xB080, 7, .zoneStatus [⟨.turbo, 63, .temperature, 0.36, none, true, some 24.3, false,
        true⟩]⟩ := by
  have h : encode ⟨0xB080, 7, .zoneStatus [⟨.turbo, 63, .temperature, 0.356, some 35.46, true,
        some 24.26, false, true⟩]⟩ =
      .ok [0x55, 0x55, 0x55, 0xAA, 0xB0, 0x80, 0x07, 0xC0, 0x00, 0x10, 0x21, 0x00, 0x00, 0x00,
        0x00, 0x08, 0x00, 0x01, 0xFF, 0xA4, 0xFF, 0x80, 0x02, 0xE7, 0x01, 0x00, 0x67, 0x0B] := by
    rfl
  exact ⟨h, decode_eq_canonical h⟩

end Frame

end ClimateLink
