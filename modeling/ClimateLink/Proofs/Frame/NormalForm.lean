import ClimateLink.Proofs.Frame.Reencoding

/-!
# Frames are a normal form

A packet loses things when it is encoded and decoded, and the loss does not show on the wire: what
is left of a packet is encoded as the very frame that it was decoded from. A name with a zero
character is the exception, because the bytes behind that character are written and not read.

**Theorem (`encode_decode_encode`).** Decoding what was encoded and encoding it again gives the same
frame, unless an ability has a name with a zero character. A packet that was decoded itself has
none.

The proof goes from the inside out, as decoding what was encoded does: numbers, entries, lists of
entries, payloads (`Payload.encode_canonical`), frames.
-/

namespace ClimateLink

open Wire

/-! ## Numbers -/

namespace Scale

variable {field : Field} {x : Float}

theorem percentageRaw_reread {limit : Nat} {raw : UInt8}
    (written : percentageRaw field limit x = .ok raw) :
    percentageRaw field limit (reread (percentageRaw field limit) percentage x) = .ok raw := by
  rw [reread_of_ok written]
  exact percentageRaw_percentage field (toNat_percentageRaw_le written)

theorem setpointRaw_reread {raw : UInt8} (written : setpointRaw field x = .ok raw) :
    setpointRaw field (reread (setpointRaw field) setpoint x) = .ok raw := by
  rw [reread_of_ok written]
  exact setpointRaw_setpoint field raw

theorem readingRaw_reread {reading : Option Float} {raw : UInt16}
    (written : readingRaw field reading = .ok raw) :
    readingRaw field (reading.map (reread (temperatureRaw field) temperature)) = .ok raw := by
  cases reading with
  | none => exact written
  | some x =>
    have written : temperatureRaw field x = .ok raw := written
    rw [Option.map_some, reread_of_ok written]
    exact temperatureRaw_temperature field (temperatureRaw_le written)

end Scale

/-- The value of a zone request is written as the byte that what is left of it is written as. -/
theorem ZoneControl.writeValue_canonicalValue {change : ZoneChange} {value : Option Float}
    {raw : UInt8} (written : writeValue change value = .ok raw) :
    writeValue change (value.map (canonicalValue change)) = .ok raw := by
  rw [← readValue_writeValue written]
  refine writeValue_readValue fun opening => ?_
  rw [opening] at written
  cases value with
  | none => cases written
  | some x => exact Scale.toNat_percentageRaw_le (x := x) written

/-- The setpoint of a request to an air conditioner is written as the byte that what is left of it
is written as: one that is not used is not looked at. -/
theorem AcControl.writeSetpoint_canonical {entry : AcControl} {raw : UInt8}
    (written : writeSetpoint entry.setpointRequest entry.setpoint = .ok raw) :
    writeSetpoint entry.setpointRequest entry.canonical.setpoint = .ok raw := by
  cases request : entry.setpointRequest with
  | keep | invalidate =>
    rw [request] at written
    exact written
  | change =>
    rw [canonical, if_pos request]
    rw [request] at written
    cases degrees : entry.setpoint with
    | none =>
      rw [degrees] at written
      cases written
    | some x =>
      rw [degrees] at written
      exact Scale.setpointRaw_reread written

/-! ## Entries -/

theorem ZoneControl.write_canonical {entry : ZoneControl} {bytes : Bytes}
    (h : Entry.write entry = .ok bytes) : Entry.write entry.canonical = .ok bytes := by
  obtain ⟨value, hvalue, rest⟩ := bind_eq_ok.1 h
  exact bind_eq_ok.2 ⟨value, writeValue_canonicalValue hvalue, rest⟩

theorem ZoneStatus.write_canonical {entry : ZoneStatus} {bytes : Bytes}
    (h : Entry.write entry = .ok bytes) : Entry.write entry.canonical = .ok bytes := by
  obtain ⟨opening, hopening, h⟩ := bind_eq_ok.1 h
  obtain ⟨setpoint, hsetpoint, h⟩ := bind_eq_ok.1 h
  obtain ⟨temperature, htemperature, rest⟩ := bind_eq_ok.1 h
  have left : writeSetpoint (entry.setpoint.bind canonicalSetpoint) = .ok setpoint := by
    rw [← canonicalSetpoint_of_writeSetpoint hsetpoint]
    exact writeSetpoint_ite setpoint
  exact bind_eq_ok.2 ⟨opening, Scale.percentageRaw_reread hopening, bind_eq_ok.2
    ⟨setpoint, left, bind_eq_ok.2 ⟨temperature, Scale.readingRaw_reread htemperature, rest⟩⟩⟩

theorem AcControl.write_canonical {entry : AcControl} {bytes : Bytes}
    (h : Entry.write entry = .ok bytes) : Entry.write entry.canonical = .ok bytes := by
  obtain ⟨setpoint, hsetpoint, rest⟩ := bind_eq_ok.1 h
  exact bind_eq_ok.2 ⟨setpoint, writeSetpoint_canonical hsetpoint, rest⟩

theorem AcStatus.write_canonical {entry : AcStatus} {bytes : Bytes}
    (h : Entry.write entry = .ok bytes) : Entry.write entry.canonical = .ok bytes := by
  obtain ⟨setpoint, hsetpoint, h⟩ := bind_eq_ok.1 h
  obtain ⟨temperature, htemperature, rest⟩ := bind_eq_ok.1 h
  exact bind_eq_ok.2 ⟨setpoint, Scale.setpointRaw_reread hsetpoint, bind_eq_ok.2
    ⟨temperature, Scale.readingRaw_reread htemperature, rest⟩⟩

namespace Control

variable {α : Type} [Entry α]

theorem writeEntries_map {canonical : α → α}
    (each : ∀ {a : α} {bytes : Bytes}, Entry.write a = .ok bytes →
      Entry.write (canonical a) = .ok bytes)
    {kind : Kind} {width : UInt16} {entries : List α} {bytes : Bytes}
    (h : writeEntries kind width entries = .ok bytes) :
    writeEntries kind width (entries.map canonical) = .ok bytes := by
  obtain ⟨few, parts, written, same⟩ := writeEntries_eq_ok_iff.1 h
  rw [writeEntries_eq_ok_iff, List.length_map]
  refine ⟨few, parts, ?_, same⟩
  rw [List.forall₂_map_left_iff]
  exact written.imp fun _ _ => each

theorem reportWidth_map (canonical : α → α) (entries : List α) :
    reportWidth (entries.map canonical) = reportWidth entries := by
  rw [reportWidth, List.isEmpty_map]
  rfl

end Control

/-! ## Payloads -/

/-- The names of the abilities, if the payload has any, are without zero characters. -/
def Payload.Plain (payload : Payload) : Prop :=
  ∀ units, payload = .acAbility units → ∀ unit ∈ units, '\x00' ∉ unit.name.toList

theorem Payload.family_canonical (payload : Payload) :
    payload.canonical.family = payload.family := by
  cases payload with
  | acAbility units => cases units <;> rfl
  | zoneNames entries => cases entries <;> rfl
  | _ => rfl

/-- **What is left of a payload is written as the same bytes.** -/
theorem Payload.encode_canonical {payload : Payload} {bytes : Bytes} (plain : payload.Plain)
    (h : payload.encode = .ok bytes) : payload.canonical.encode = .ok bytes := by
  cases payload with
  | zoneControl zones => exact Control.writeEntries_map ZoneControl.write_canonical h
  | acControl units => exact Control.writeEntries_map AcControl.write_canonical h
  | zoneStatus zones =>
    rw [canonical, encode, Control.reportWidth_map]
    exact Control.writeEntries_map ZoneStatus.write_canonical h
  | acStatus units =>
    rw [canonical, encode, Control.reportWidth_map]
    exact Control.writeEntries_map AcStatus.write_canonical h
  | acAbility units =>
    -- Without abilities, what is left is a request, which has the bytes of none of them.
    cases units with
    | nil => exact h
    | cons first others =>
      have same : (first :: others).map AcAbility.canonical = first :: others :=
        (List.map_congr_left fun unit among =>
          AcAbility.canonical_eq_self_iff.2 (plain _ rfl unit among)).trans (List.map_id _)
      show encode (.acAbility ((first :: others).map AcAbility.canonical)) = _
      rw [same]
      exact h
  | zoneNames entries => cases entries <;> exact h
  | acAbilityRequest | acErrorRequest | acError | zoneNameRequest | versionRequest | version =>
    exact h

/-! ## Payloads that were read -/

theorem Outline.Means.plain {outline : Outline} {payload : Payload}
    (means : outline.Means payload) : payload.Plain := by
  rintro units rfl unit among
  cases means with
  | abilities read =>
    obtain ⟨record, -, found⟩ := exists_of_map_eq read among
    exact AcAbility.canonical_eq_self_iff.1 (Extended.of_ability? found).2

/-! ## Frames -/

namespace Frame

/-- A packet that was decoded has no zero character in the name of an ability. -/
theorem plain_of_decode {bytes : Bytes} {packet : Packet} (received : decode bytes = .ok packet) :
    packet.payload.Plain := by
  obtain ⟨-, -, outline, -, means⟩ := (checks_decode bytes).post_of_ok received
  exact means.plain

/-- **What is encoded is a normal form.** It decodes, and what it decodes to is encoded as the same
bytes: if the names of abilities are without zero characters, and so whenever the packet that was
encoded had been decoded from any bytes at all. -/
theorem encode_decode_encode {packet : Packet} {frame : Bytes} (encoded : encode packet = .ok frame)
    (plain : packet.payload.Plain ∨ ∃ bytes, decode bytes = .ok packet) :
    ∃ received, decode frame = .ok received ∧ encode received = .ok frame := by
  have plain : packet.payload.Plain := by
    rcases plain with plain | ⟨bytes, received⟩
    · exact plain
    · exact plain_of_decode received
  obtain ⟨payload, written, small, rfl⟩ := exists_of_encode encoded
  have again : encode ⟨packet.address, packet.id, packet.payload.canonical⟩ = _ :=
    encode_eq (Payload.encode_canonical plain written) small
  rw [Payload.family_canonical] at again
  exact ⟨_, decode_assemble _ _ small (Payload.decode_of_encode written), again⟩

/-- A zone report that loses digits and its setpoint when it is encoded. What is left of it has the
same frame. -/
theorem encode_decode_encode_zoneStatus :
    encode ⟨0xB080, 7, .zoneStatus [⟨.off, 2, .percentage, 0.356, some 35.46, true, some 24.26,
        true, false⟩]⟩ =
      .ok [0x55, 0x55, 0x55, 0xAA, 0xB0, 0x80, 0x07, 0xC0, 0x00, 0x10, 0x21, 0x00, 0x00, 0x00,
        0x00, 0x08, 0x00, 0x01, 0x02, 0x24, 0xFF, 0x80, 0x02, 0xE7, 0x02, 0x00, 0x82, 0x44] ∧
    encode ⟨0xB080, 7, .zoneStatus [⟨.off, 2, .percentage, 0.36, none, true, some 24.3, true,
        false⟩]⟩ =
      .ok [0x55, 0x55, 0x55, 0xAA, 0xB0, 0x80, 0x07, 0xC0, 0x00, 0x10, 0x21, 0x00, 0x00, 0x00,
        0x00, 0x08, 0x00, 0x01, 0x02, 0x24, 0xFF, 0x80, 0x02, 0xE7, 0x02, 0x00, 0x82, 0x44] := by
  have encoded : encode ⟨0xB080, 7, .zoneStatus [⟨.off, 2, .percentage, 0.356, some 35.46, true,
        some 24.26, true, false⟩]⟩ =
      .ok [0x55, 0x55, 0x55, 0xAA, 0xB0, 0x80, 0x07, 0xC0, 0x00, 0x10, 0x21, 0x00, 0x00, 0x00,
        0x00, 0x08, 0x00, 0x01, 0x02, 0x24, 0xFF, 0x80, 0x02, 0xE7, 0x02, 0x00, 0x82, 0x44] := by
    decide +kernel
  obtain ⟨received, decoded, again⟩ := encode_decode_encode encoded (.inl nofun)
  have left : decode [0x55, 0x55, 0x55, 0xAA, 0xB0, 0x80, 0x07, 0xC0, 0x00, 0x10, 0x21, 0x00, 0x00,
        0x00, 0x00, 0x08, 0x00, 0x01, 0x02, 0x24, 0xFF, 0x80, 0x02, 0xE7, 0x02, 0x00, 0x82, 0x44] =
      .ok ⟨0xB080, 7, .zoneStatus [⟨.off, 2, .percentage, 0.36, none, true, some 24.3, true,
        false⟩]⟩ := by
    decide +kernel
  rw [Except.ok.inj (decoded.symm.trans left)] at again
  exact ⟨encoded, again⟩

end Frame

end ClimateLink
