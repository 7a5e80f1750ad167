import ClimateLink.Proofs.Frame.Reencoding

/-!
# Requests and replies

Most extended messages share a sub-type with the request for them, and only the length of what
follows tells the two apart. An empty status list is a request on purpose. Lists of abilities and
of names have no such second meaning, and still an empty one leaves nothing behind the sub-type:
its frame is that of the request.

**Theorem (`kind_received_iff`).** A packet that is encoded is received as the same kind of message,
request or not, unless it is a reply without abilities or without names. Such a reply is received as
the request for all of them. A request is always received as a request.
-/

namespace ClimateLink

namespace Payload

/-- Two payloads are of the same variant, and neither or both of them ask for something. -/
def SameKind (a b : Payload) : Prop := a.ctorIdx = b.ctorIdx ∧ a.isRequest = b.isRequest

/-- The request that has the bytes of a reply without records. -/
def mistaken? : Payload → Option Payload
  | .acAbility [] => some (.acAbilityRequest none)
  | .zoneNames [] => some (.zoneNameRequest none)
  | _ => none

variable {payload request : Payload}

theorem sameKind_canonical (h : payload.mistaken? = none) : payload.canonical.SameKind payload := by
  cases payload with
  | zoneStatus zones => exact ⟨rfl, List.isEmpty_map⟩
  | acStatus units => exact ⟨rfl, List.isEmpty_map⟩
  | acAbility units =>
    cases units with
    | nil => cases h
    | cons unit units => exact ⟨rfl, rfl⟩
  | zoneNames entries =>
    cases entries with
    | nil => cases h
    | cons entry entries => exact ⟨rfl, rfl⟩
  | zoneControl | acControl | acAbilityRequest | acErrorRequest | acError | zoneNameRequest
  | versionRequest | version => exact ⟨rfl, rfl⟩

/-- A payload that is mistaken for a request is a reply. It has the bytes of the request, and the
request is what is left of it. -/
theorem of_mistaken (h : payload.mistaken? = some request) :
    payload.canonical = request ∧ payload.encode = request.encode ∧
      payload.family = request.family ∧ payload.isRequest = false ∧ request.isRequest = true := by
  cases payload with
  | acAbility units =>
    cases units with
    | nil => cases h; exact ⟨rfl, rfl, rfl, rfl, rfl⟩
    | cons => cases h
  | zoneNames entries =>
    cases entries with
    | nil => cases h; exact ⟨rfl, rfl, rfl, rfl, rfl⟩
    | cons => cases h
  | zoneControl | zoneStatus | acControl | acStatus | acAbilityRequest | acErrorRequest | acError
  | zoneNameRequest | versionRequest | version => cases h

/-- What is left of a payload is of its kind exactly if it is not mistaken for a request. -/
theorem sameKind_canonical_iff :
    payload.canonical.SameKind payload ↔ payload.mistaken? = none := by
  refine ⟨fun same => ?_, sameKind_canonical⟩
  cases found : payload.mistaken? with
  | none => rfl
  | some request =>
    obtain ⟨left, -, -, reply, asks⟩ := of_mistaken found
    have unlike : payload.canonical.isRequest = payload.isRequest := same.2
    rw [left, reply, asks] at unlike
    cases unlike

theorem isRequest_canonical (asks : payload.isRequest = true) :
    payload.canonical.isRequest = true := by
  cases found : payload.mistaken? with
  | none => rw [(sameKind_canonical found).2, asks]
  | some request =>
    obtain ⟨left, -, -, -, asked⟩ := of_mistaken found
    rw [left, asked]

end Payload

namespace Frame

/-- **A packet is received as the kind of message that it is**, unless it is a reply without
abilities or without names. The frame of such a reply is that of the request for all of them, and
that is what is received. Nothing that is sent as a request is received as anything else. -/
theorem kind_received_iff {packet : Packet} {frame : Bytes} (encoded : encode packet = .ok frame) :
    ∃ received, decode frame = .ok received ∧
      (received.payload.SameKind packet.payload ↔ packet.payload.mistaken? = none) ∧
      (∀ request, packet.payload.mistaken? = some request →
        encode ⟨packet.address, packet.id, request⟩ = .ok frame ∧ received.payload = request ∧
          packet.payload.isRequest = false ∧ request.isRequest = true) ∧
      (packet.payload.isRequest = true → received.payload.isRequest = true) := by
  obtain ⟨bytes, written, small, rfl⟩ := exists_of_encode encoded
  have decoded := decode_assemble packet.address packet.id small (Payload.decode_of_encode written)
  refine ⟨_, decoded, Payload.sameKind_canonical_iff, fun request found => ?_,
    Payload.isRequest_canonical⟩
  obtain ⟨left, same, family, reply, asks⟩ := Payload.of_mistaken found
  rw [same] at written
  have asked : encode ⟨packet.address, packet.id, request⟩ = _ := encode_eq written small
  rw [← family] at asked
  exact ⟨asked, left, reply, asks⟩

/-- The shortest reply about errors, a text without characters: its length, which is zero, is all
that tells it from the request. -/
theorem kind_received_noError :
    encode ⟨0xB090, 1, .acError 3 ""⟩ =
      .ok [0x55, 0x55, 0x55, 0xAA, 0xB0, 0x90, 0x01, 0x1F, 0x00, 0x04, 0xFF, 0x10, 0x03, 0x00,
        0xFA, 0x34] ∧
    ∃ received, decode [0x55, 0x55, 0x55, 0xAA, 0xB0, 0x90, 0x01, 0x1F, 0x00, 0x04, 0xFF, 0x10,
        0x03, 0x00, 0xFA, 0x34] = .ok received ∧
      received.payload.SameKind (.acError 3 "") := by
  have encoded : encode ⟨0xB090, 1, .acError 3 ""⟩ =
      .ok [0x55, 0x55, 0x55, 0xAA, 0xB0, 0x90, 0x01, 0x1F, 0x00, 0x04, 0xFF, 0x10, 0x03, 0x00,
        0xFA, 0x34] := by
    decide +kernel
  obtain ⟨received, decoded, kind, -⟩ := kind_received_iff encoded
  exact ⟨encoded, received, decoded, kind.2 rfl⟩

/-- Replies without abilities and without names, which are received as requests. -/
theorem kind_received_noRecords :
    encode ⟨0xB090, 1, .acAbility []⟩ =
      .ok [0x55, 0x55, 0x55, 0xAA, 0xB0, 0x90, 0x01, 0x1F, 0x00, 0x02, 0xFF, 0x11, 0x59, 0x6F] ∧
    decode [0x55, 0x55, 0x55, 0xAA, 0xB0, 0x90, 0x01, 0x1F, 0x00, 0x02, 0xFF, 0x11, 0x59, 0x6F] =
      .ok ⟨0xB090, 1, .acAbilityRequest none⟩ ∧
    encode ⟨0xB090, 1, .zoneNames []⟩ =
      .ok [0x55, 0x55, 0x55, 0xAA, 0xB0, 0x90, 0x01, 0x1F, 0x00, 0x02, 0xFF, 0x13, 0x98, 0xEE] ∧
    decode [0x55, 0x55, 0x55, 0xAA, 0xB0, 0x90, 0x01, 0x1F, 0x00, 0x02, 0xFF, 0x13, 0x98, 0xEE] =
      .ok ⟨0xB090, 1, .zoneNameRequest none⟩ := by
  decide +kernel

end Frame

end ClimateLink
