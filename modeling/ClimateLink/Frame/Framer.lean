import ClimateLink.Frame.Coding

/-!
# Framing

A framer takes a stream of bytes in pieces and gives back the packets in it. It looks for the
magic, waits until the frame that follows is complete, and keeps it if its checksum is right and
it decodes. Otherwise only its first byte is known to be wrong: the framer counts a dropped frame,
passes over that byte and looks for the magic again. So it finds its way back after noise, false
magics and lengths that are wrong.

**The state.** `buffer` is what has arrived and may still be part of a frame. `awaited` is the
header of the frame at its front, once the smallest frame would be there. `dropped` counts the
frames dropped so far.
-/

namespace ClimateLink

open ClimateLink.Frame

/-- A framer: the bytes that it holds, the header of the frame that it waits for, and the number
of frames that it dropped. -/
structure Framer where
  buffer : Bytes
  awaited : Option Header
  dropped : Nat
  deriving DecidableEq, Repr

namespace Framer

/-- A framer that has seen nothing. -/
def empty : Framer := ⟨[], none, 0⟩

/-! ## Looking for frames -/

/-- Drops bytes until the magic, or what can still become the magic, is in front. -/
def seek : Bytes → Bytes
  | [] => []
  | b :: rest =>
    if magic.isPrefixOf (b :: rest) || (b :: rest).isPrefixOf magic then b :: rest else seek rest

theorem length_seek_le (bs : Bytes) : (seek bs).length ≤ bs.length := by
  induction bs with
  | nil => simp [seek]
  | cons b rest ih =>
    unfold seek
    split
    · exact Nat.le_refl _
    · exact Nat.le_succ_of_le ih

/-- The header at the front, once the smallest frame would be there. -/
def header? (bs : Bytes) : Option Header :=
  if bs.length < minSize then none else (Header.decode bs).toOption

/-- The packet of a complete frame whose checksum is right. -/
def accept (frame : Bytes) : Except Malformed Packet := do
  verify frame
  decode frame

/-- What is left of the buffer when the framer looks at it: all of it behind a header that is
known, else what `seek` leaves. -/
def front (awaited : Option Header) (buffer : Bytes) : Bytes :=
  if awaited.isSome then buffer else seek buffer

theorem length_front_le (awaited : Option Header) (buffer : Bytes) :
    (front awaited buffer).length ≤ buffer.length := by
  unfold front
  split
  · exact Nat.le_refl _
  · exact length_seek_le buffer

/-- Takes the frames that are complete out of `buffer`. -/
def drain (buffer : Bytes) (awaited : Option Header) (dropped : Nat) : List Packet × Framer :=
  let rest := front awaited buffer
  match awaited.or (header? rest) with
  | none => ([], ⟨rest, none, dropped⟩)
  | some header =>
    if header.frameSize ≤ rest.length then
      match accept (rest.take header.frameSize) with
      | .ok packet =>
        let (packets, framer) := drain (rest.drop header.frameSize) none dropped
        (packet :: packets, framer)
      | .error _ => drain (rest.drop 1) none (dropped + 1)
    else ([], ⟨rest, some header, dropped⟩)
termination_by buffer.length
decreasing_by
  all_goals
    have := length_front_le awaited buffer
    have := header.minSize_le_frameSize
    simp only [rest, minSize, headerSize, checksumSize, List.length_drop] at *
    omega

/-! ## Feeding the framer -/

/-- Takes more of the stream: the packets that are complete with it, and the framer after it. -/
def push (framer : Framer) (bytes : Bytes) : List Packet × Framer :=
  drain (framer.buffer ++ bytes) framer.awaited framer.dropped

/-- Takes the stream in several pieces. -/
def pushAll (framer : Framer) : List Bytes → List Packet × Framer
  | [] => ([], framer)
  | piece :: pieces =>
    let (first, next) := framer.push piece
    let (more, last) := next.pushAll pieces
    (first ++ more, last)

/-- Forgets what has arrived. The number of dropped frames stays. -/
def clear (framer : Framer) : Framer := ⟨[], none, framer.dropped⟩

end Framer

end ClimateLink
