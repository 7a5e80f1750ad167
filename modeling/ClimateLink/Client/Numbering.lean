import ClimateLink.Packet.Basic

/-!
# Numbering of requests

A client gives each packet that it builds the next id. Ids start at one and go round after 255.

- `next_stampAll`: after any `k` packets the next id is `k` further on, whatever they hold.
-/

namespace ClimateLink

/-- The id that the next packet gets. -/
structure Numbering where
  next : UInt8
  deriving DecidableEq, Repr

namespace Numbering

/-- The id of the first packet. -/
def firstId : UInt8 := 1

/-- The numbering of a new client. -/
def start : Numbering := ⟨firstId⟩

/-- The packet of a payload, addressed by its family, and the numbering after it. -/
def stamp (numbering : Numbering) (payload : Payload) : Packet × Numbering :=
  (⟨Address.ofFamily payload.family, numbering.next, payload⟩, ⟨numbering.next + 1⟩)

/-- The packets of several payloads, one after another. -/
def stampAll (numbering : Numbering) : List Payload → List Packet × Numbering
  | [] => ([], numbering)
  | payload :: payloads =>
    let (packet, next) := numbering.stamp payload
    let (packets, last) := next.stampAll payloads
    (packet :: packets, last)

theorem next_stampAll (numbering : Numbering) (payloads : List Payload) :
    (numbering.stampAll payloads).2.next = numbering.next + UInt8.ofNat payloads.length := by
  induction payloads generalizing numbering with
  | nil => simp [stampAll]
  | cons payload payloads ih =>
    simp only [stampAll, ih, stamp, List.length_cons, UInt8.ofNat_add]
    ac_rfl

end Numbering

/-! ## Requests without content -/

namespace Payload

/-- Asks for the status of every zone. -/
def zoneStatusRequest : Payload := .zoneStatus []

/-- Asks for the status of every air conditioner. -/
def acStatusRequest : Payload := .acStatus []

end Payload

end ClimateLink
