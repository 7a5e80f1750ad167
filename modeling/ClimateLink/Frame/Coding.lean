import ClimateLink.Frame.Checksum
import ClimateLink.Frame.Header
import ClimateLink.Packet.Control
import ClimateLink.Packet.Extended

/-!
# Frames of packets

`encode` makes the frame of a packet, or names the first field that does not fit; `decode` makes
a packet of a frame, or names the first thing that is wrong with it. Decoding looks at neither
the checksum nor anything else behind the payload; `verify` checks the checksum.
-/

namespace ClimateLink

open Wire

/-! ## Payloads -/

/-- The payload of a family that the bytes hold. -/
def Payload.decode : Family → Bytes → Except Malformed Payload
  | .control => Control.read
  | .extended => Extended.read

/-- The bytes of a payload. -/
def Payload.encode : Payload → Except Unencodable Bytes
  | .zoneControl zones => Control.writeEntries .zoneControl 4 zones
  | .zoneStatus zones => Control.writeEntries .zoneStatus (Control.reportWidth zones) zones
  | .acControl units => Control.writeEntries .acControl 4 units
  | .acStatus units => Control.writeEntries .acStatus (Control.reportWidth units) units
  | .acAbilityRequest unit => .ok (wordBytes Extended.Kind.acAbility.code ++ unit.toList)
  | .acAbility units => do
    let records ← units.mapM Extended.writeAbility
    return wordBytes Extended.Kind.acAbility.code ++ records.flatten
  | .acErrorRequest unit => .ok (wordBytes Extended.Kind.acError.code ++ [unit])
  | .acError unit text => do
    let text ← Extended.writeText .acErrorText text
    return wordBytes Extended.Kind.acError.code ++ [unit] ++ text
  | .zoneNameRequest zone => .ok (wordBytes Extended.Kind.zoneName.code ++ zone.toList)
  | .zoneNames entries => do
    let records ← entries.mapM Extended.writeName
    return wordBytes Extended.Kind.zoneName.code ++ records.flatten
  | .versionRequest => .ok (wordBytes Extended.Kind.version.code)
  | .version hasUpdate text => do
    let text ← Extended.writeText .versionText text
    return wordBytes Extended.Kind.version.code ++ [UInt8.ofNat hasUpdate.toNat] ++ text

namespace Frame

/-! ## Frames -/

/-- The frame with the given header and payload. -/
def assemble (header : Header) (payload : Bytes) : Bytes :=
  let body := header.encode ++ payload
  body ++ wordBytes (checksum (body.drop magic.length))

/-- The frame of a packet. -/
def encode (packet : Packet) : Except Unencodable Bytes := do
  let payload ← packet.payload.encode
  if maxPayload < payload.length then throw (.payloadTooLarge payload.length)
  return assemble
    ⟨packet.address, packet.id, packet.payload.family.code, UInt16.ofNat payload.length⟩ payload

/-- The packet of a frame. -/
def decode (frame : Bytes) : Except Malformed Packet := do
  let header ← Header.decode frame
  let rest := frame.drop headerSize
  let length := header.length.toNat
  if rest.length < length then throw (.lengthMismatch length rest.length)
  match Family.ofCode? header.family with
  | none => throw (.unknownMessageType header.family)
  | some family =>
    let payload ← Payload.decode family (rest.take length)
    return ⟨header.address, header.id, payload⟩

/-- Checks that the last two bytes of a frame are the checksum of what they have to cover. -/
def verify (frame : Bytes) : Except Malformed Unit :=
  let size := frame.length - checksumSize
  let expected := checksum ((frame.take size).drop magic.length)
  match frame.drop size with
  | [high, low] =>
    if word high low = expected then .ok () else .error (.checksum expected (word high low))
  | _ => .error (.tooShort frame.length)

end Frame

end ClimateLink
