import ClimateLink.Proofs.Frame.Complete
import ClimateLink.Proofs.Packet.Demands

/-!
# Packets that have a frame

The rules that a packet has to obey to be encoded, from the number of its entries over the fields
of one entry after the other to the size of its payload, in the order in which they are checked.

**Theorem (`encode_demands`).** For every packet:

- it is encoded exactly if it obeys all rules;
- otherwise the fault is that of the first rule it breaks;
- the frame has twelve bytes more than the payload, whose size is known from the packet and stands
  at the offset of the length;
- what is said of sizes comes to how many entries fit.
-/

namespace ClimateLink

open Wire

/-- A number of entries or bytes has to fit a word. -/
def wordDemand (n : Nat) : Rule Unencodable := ⟨n ≤ 65535, .payloadTooLarge n⟩

namespace Payload

/-- The bytes of a payload, as far as it can be written. -/
def size : Payload → Nat
  | .zoneControl zones => 8 + 4 * zones.length
  | .zoneStatus zones => 8 + 8 * zones.length
  | .acControl units => 8 + 4 * units.length
  | .acStatus units => 8 + 10 * units.length
  | .acAbilityRequest unit => 2 + unit.toList.length
  | .acAbility units => 2 + 26 * units.length
  | .acErrorRequest _ => 3
  | .acError _ text => 4 + (Text.utf8 text).length
  | .zoneNameRequest zone => 2 + zone.toList.length
  | .zoneNames entries => 2 + (entries.map fun entry => 2 + (Text.utf8 entry.name).length).sum
  | .versionRequest => 2
  | .version _ text => 4 + (Text.utf8 text).length

/-- The rules of a payload: lists of entries are counted before any entry is looked at. -/
def demands : Payload → List (Rule Unencodable)
  | .zoneControl zones => wordDemand zones.length :: zones.flatMap ZoneControl.demands
  | .zoneStatus zones => wordDemand zones.length :: zones.flatMap ZoneStatus.demands
  | .acControl units => wordDemand units.length :: units.flatMap AcControl.demands
  | .acStatus units => wordDemand units.length :: units.flatMap AcStatus.demands
  | .acAbility units => units.flatMap fun unit => [textDemand .acName 16 unit.name]
  | .acError _ text => [textDemand .acErrorText 255 text]
  | .zoneNames entries => entries.flatMap fun entry => [textDemand .zoneName 255 entry.name]
  | .version _ text => [textDemand .versionText 255 text]
  | .acAbilityRequest _ | .acErrorRequest _ | .zoneNameRequest _ | .versionRequest => []

end Payload

/-- The rules of a packet: those of its payload, and its size at last. -/
def Packet.demands (packet : Packet) : List (Rule Unencodable) :=
  packet.payload.demands ++ [wordDemand packet.payload.size]

/-! ## Lists -/

theorem length_flatten_eq {α : Type} {size : α → Nat} {as : List α} {parts : List Bytes}
    (h : List.Forall₂ (fun a part => part.length = size a) as parts) :
    parts.flatten.length = (as.map size).sum := by
  induction h with
  | nil => rfl
  | cons first _ ih =>
    rw [List.flatten_cons, List.length_append, first, ih, List.map_cons, List.sum_cons]

theorem sum_map_const {α : Type} (width : Nat) (as : List α) :
    (as.map fun _ => width).sum = width * as.length := by
  rw [List.map_const', List.sum_replicate, smul_eq_mul, Nat.mul_comm]

theorem Control.checks_writeEntries {α : Type} [Entry α] {demands : α → List (Rule Unencodable)}
    (each : ∀ a, Checks (Entry.write a) (demands a) fun _ => True) (kind : Kind) (width : UInt16)
    (entries : List α) :
    Checks (writeEntries kind width entries)
      (wordDemand entries.length :: entries.flatMap demands) fun bytes =>
        bytes.length = 8 + Entry.width α * entries.length := by
  refine .rule (fun many => ?_) fun few => ?_
  · rw [writeEntries, if_pos (Nat.lt_of_not_le many)]
    rfl
  · rw [writeEntries, if_neg (Nat.not_lt.2 few)]
    refine (Checks.mapM (fun a => (each a).known fun _ => Entry.length_write) entries).map
      fun parts lengths => ?_
    rw [List.length_append, length_flatten_eq lengths,
      sum_map_const]
    rfl

/-! ## Payloads -/

/-- **A payload is written** if it obeys its rules, and has the size that is known from it then. -/
theorem Payload.checks_encode (payload : Payload) :
    Checks payload.encode payload.demands fun bytes => bytes.length = payload.size := by
  cases payload with
  | zoneControl zones => exact Control.checks_writeEntries ZoneControl.checks_write ..
  | zoneStatus zones => exact Control.checks_writeEntries ZoneStatus.checks_write ..
  | acControl units => exact Control.checks_writeEntries AcControl.checks_write ..
  | acStatus units => exact Control.checks_writeEntries AcStatus.checks_write ..
  | acAbility units =>
    refine (Checks.mapM Extended.checks_writeAbility units).map fun parts lengths => ?_
    rw [List.length_append, length_wordBytes, length_flatten_eq lengths,
      sum_map_const, size]
  | zoneNames entries =>
    refine (Checks.mapM Extended.checks_writeName entries).map fun parts lengths => ?_
    rw [List.length_append, length_wordBytes, length_flatten_eq lengths, size]
  | acError unit text =>
    refine (Extended.checks_writeText .acErrorText text).map fun bytes length => ?_
    rw [List.length_append, length, size, ← Nat.add_assoc]
    rfl
  | version hasUpdate text =>
    refine (Extended.checks_writeText .versionText text).map fun bytes length => ?_
    rw [List.length_append, length, size, ← Nat.add_assoc]
    rfl
  | acAbilityRequest unit | zoneNameRequest zone => exact .done (List.length_append ..)
  | acErrorRequest unit | versionRequest => exact .done rfl

namespace Frame

/-! ## Frames -/

theorem checks_encode (packet : Packet) : Checks (encode packet) packet.demands fun frame =>
    frame.length = 12 + packet.payload.size ∧ (wordAt frame 8).toNat = packet.payload.size := by
  refine packet.payload.checks_encode.bind fun bytes length => ?_
  rw [← length]
  refine .rule (fun broken => ?_) fun holds => ?_
  · have large : maxPayload < bytes.length := Nat.lt_of_not_le broken
    rw [if_pos large]
    rfl
  · have small : bytes.length ≤ maxPayload := holds
    rw [if_neg (Nat.not_lt.2 small)]
    have declared : (UInt16.ofNat bytes.length).toNat = bytes.length :=
      UInt16.toNat_ofNat_of_lt' (Nat.lt_succ_of_le small)
    refine .done ⟨?_, ?_⟩
    · rw [size_assemble declared, declared_assemble, declared]
    · rw [declared_assemble, declared]

/-- **What is encoded, and what is wrong with the rest.** A packet is encoded exactly if it obeys
the rules, and the fault is that of the first rule it breaks otherwise. The size of its frame is
known from the packet, and the header declares what of that is payload. So there is room for a
known number of entries of each kind. -/
theorem encode_demands (packet : Packet) :
    ((∃ frame, encode packet = .ok frame) ↔ Obeyed packet.demands) ∧
    (∀ fault, encode packet = .error fault ↔ FirstBroken packet.demands fault) ∧
    (∀ frame, encode packet = .ok frame →
      frame.length = 12 + packet.payload.size ∧
        (wordAt frame 8).toNat = packet.payload.size) ∧
    (∀ zones, packet.payload = .zoneControl zones →
      (packet.payload.size ≤ 65535 ↔ zones.length ≤ 16381)) ∧
    (∀ zones, packet.payload = .zoneStatus zones →
      (packet.payload.size ≤ 65535 ↔ zones.length ≤ 8190)) ∧
    (∀ units, packet.payload = .acControl units →
      (packet.payload.size ≤ 65535 ↔ units.length ≤ 16381)) ∧
    (∀ units, packet.payload = .acStatus units →
      (packet.payload.size ≤ 65535 ↔ units.length ≤ 6552)) ∧
    (∀ units, packet.payload = .acAbility units →
      (packet.payload.size ≤ 65535 ↔ units.length ≤ 2520)) := by
  have checks := checks_encode packet
  refine ⟨checks.ok_iff, checks.error_iff, fun _ => checks.post_of_ok, ?_, ?_, ?_, ?_, ?_⟩
  -- Each bound is the largest number whose size is still a word.
  all_goals
    intro entries held
    rw [held, Payload.size]
    omega

end Frame

end ClimateLink
