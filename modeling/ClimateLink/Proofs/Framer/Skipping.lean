import ClimateLink.Proofs.Framer.Transmission

/-!
# Frames that nobody can decode

A console may send frames of families or kinds that are not known here. Nothing is wrong with such a
frame but that it does not decode. The framer drops it like any other candidate that is not sound:
it passes over the first byte, and goes over the rest again.

**Theorem (`pushAll_skipping`).** Let a stream be intact frames, one after another, and let no frame
that does not decode hold the magic behind its front. Then every frame is dealt with as soon as its
last byte is there: its packet is given if it decodes, and it is counted as dropped if not. In the
end nothing is kept, unless the last frame does not decode and ends like the magic begins.

**Theorem (`skipped_iff`).** That is what it takes: with the magic behind its front, a frame that
does not decode is not done with after one dropped frame. `pushAll_carrier` is one out of whose
payload a packet is taken.

**The proof.** What the framer goes over again of one frame is noise in front of the next
(`scan_of_intact`), so that the frames are dealt with one by one.
-/

namespace ClimateLink.Framer

open ClimateLink.Frame

/-! ## Frames and what is left of them -/

/-- The packet of a frame, if it decodes. -/
def packet? (frame : Bytes) : Option Packet := (decode frame).toOption

/-- What the framer goes over again after a frame. -/
def left (frame : Bytes) : Bytes := if (packet? frame).isSome then [] else frame.drop 1

/-- The frames that have arrived with the first `n` bytes. -/
def arrived : (n : Nat) → List Bytes → List Bytes
  | _, [] => []
  | n, frame :: frames =>
    if frame.length ≤ n then frame :: arrived (n - frame.length) frames else []

/-- What the framer still goes over behind some frames, if it was to go over `lead` before them. -/
def residue (lead : Bytes) : List Bytes → Bytes
  | [] => lead
  | frame :: frames => residue (left frame) frames

theorem packet?_eq_some_iff {frame : Bytes} {packet : Packet} :
    packet? frame = some packet ↔ decode frame = .ok packet := by
  rw [packet?]
  cases decode frame with
  | ok found =>
    show some found = some packet ↔ Except.ok found = Except.ok packet
    rw [Option.some.injEq, Except.ok.injEq]
  | error fault => exact iff_of_false nofun nofun

theorem left_of_none {frame : Bytes} (fails : packet? frame = none) :
    left frame = frame.drop 1 := by
  rw [left, fails]
  rfl

/-- What is left of a frame ends like the magic begins if the frame does not decode and does. -/
theorem getLast?_left {frame : Bytes} (intact : Intact frame) :
    (left frame).getLast? ≠ some 0x55 ↔ (packet? frame = none → frame.getLast? ≠ some 0x55) := by
  have long := intact.size
  cases found : packet? frame with
  | none =>
    rw [left_of_none found, List.getLast?_drop, if_neg (by omega)]
    exact ⟨fun ends _ => ends, fun ends => ends rfl⟩
  | some packet =>
    rw [left, found]
    exact iff_of_true nofun nofun

theorem arrived_length_flatten (frames : List Bytes) :
    arrived frames.flatten.length frames = frames := by
  induction frames with
  | nil => rfl
  | cons frame frames ih =>
    rw [List.flatten_cons, List.length_append, arrived, if_pos (Nat.le_add_right _ _),
      Nat.add_sub_cancel_left, ih]

theorem residue_eq (lead : Bytes) (frames : List Bytes) :
    residue lead frames = (frames.getLast?.map left).getD lead := by
  induction frames generalizing lead with
  | nil => rfl
  | cons frame frames ih =>
    rw [residue, ih]
    cases frames with
    | nil => rfl
    | cons next frames =>
      rw [List.getLast?_cons_cons,
        List.getLast?_eq_getLast_of_ne_nil (List.cons_ne_nil next frames)]
      rfl

/-! ## One frame -/

variable {lead : Bytes} {frames : List Bytes}

/-- An intact frame that does not decode is refused, behind noise as well, and the scan goes on
behind its first byte. -/
theorem scan_of_lead_refused {s frame rest : Bytes} {i : Nat} (quiet : ¬magic <:+: lead)
    (intact : Intact frame) (fails : packet? frame = none)
    (here : s.drop i = lead ++ (frame ++ rest)) :
    scan s i = ⟨(scan s (i + lead.length + 1)).packets, (scan s (i + lead.length + 1)).dropped + 1,
      (scan s (i + lead.length + 1)).rest⟩ := by
  have refused : ∀ packet, ¬Complete frame packet := by
    intro packet complete
    rw [packet?_eq_some_iff.2 complete.decoded] at fails
    cases fails
  obtain ⟨reached, next⟩ := scan_of_lead_frame quiet intact.opens here
  rw [reached, scan_of_refused intact.opens intact.size refused next]

/-- **An intact frame behind noise** is given or dropped, and the scan goes on with what is left
of it. -/
theorem scan_of_intact {frame : Bytes} (quiet : ¬magic <:+: lead) (intact : Intact frame)
    (rest : Bytes) :
    scan (lead ++ (frame ++ rest)) 0 =
      ⟨(packet? frame).toList ++ (scan (left frame ++ rest) 0).packets,
        (scan (left frame ++ rest) 0).dropped + (if (packet? frame).isNone then 1 else 0),
        (scan (left frame ++ rest) 0).rest⟩ := by
  have front : (lead ++ (frame ++ rest)).drop (0 + lead.length) = frame ++ rest := by
    rw [Nat.zero_add, List.drop_left]
  cases found : packet? frame with
  | some packet =>
    have complete := intact.complete (packet?_eq_some_iff.1 found)
    have next : scan (lead ++ (frame ++ rest)) (0 + lead.length + frame.length) =
        scan (left frame ++ rest) 0 := by
      refine scan_congr ?_
      rw [← List.drop_drop, front, left, found, List.drop_left]
      rfl
    rw [scan_of_lead_complete quiet complete rfl, next]
    rfl
  | none =>
    have long := intact.size
    have next : scan (lead ++ (frame ++ rest)) (0 + lead.length + 1) =
        scan (left frame ++ rest) 0 := by
      refine scan_congr ?_
      rw [← List.drop_drop, front, left_of_none found, List.drop_zero,
        List.drop_append_of_le_length (by omega)]
    rw [scan_of_lead_refused quiet intact found rfl, next]
    rfl

/-! ## All frames -/

/-- The magic is in nothing that the framer goes over again. -/
def Apart (frames : List Bytes) : Prop := ∀ frame ∈ frames, ¬magic <:+: left frame

theorem apart_of_undecodable
    (apart : ∀ frame ∈ frames, packet? frame = none → ¬magic <:+: frame.drop 1) : Apart frames := by
  intro frame among
  cases found : packet? frame with
  | none => exact left_of_none found ▸ apart frame among found
  | some packet =>
    have nothing : left frame = [] := by
      rw [left, found]
      rfl
    rw [nothing]
    decide

/-- **A scan of the beginning of a stream** has dealt with the frames that are all there. -/
theorem scan_of_frames {x : Bytes} (intact : ∀ frame ∈ frames, Intact frame)
    (quiet : ¬magic <:+: lead) (apart : Apart frames) (begins : x <+: lead ++ frames.flatten) :
    (scan x 0).packets = (arrived (x.length - lead.length) frames).filterMap packet? ∧
      (scan x 0).dropped =
        (arrived (x.length - lead.length) frames).countP fun frame => (packet? frame).isNone := by
  -- The lead is general: in the induction it is what is left of a refused frame.
  induction frames generalizing lead x with
  | nil =>
    rw [List.flatten_nil, List.append_nil] at begins
    obtain ⟨packets, dropped, -⟩ := scan_of_noise (fun here => quiet (here.trans begins.isInfix)) 0
    exact ⟨packets, dropped⟩
  | cons frame frames ih =>
    obtain ⟨first, later⟩ := List.forall_mem_cons.1 intact
    obtain ⟨calm, others⟩ := List.forall_mem_cons.1 apart
    rw [List.flatten_cons] at begins
    by_cases cut : x.length < lead.length + frame.length
    · have none_there : arrived (x.length - lead.length) (frame :: frames) = [] := by
        have large := first.size
        rw [arrived, if_neg (by omega)]
      obtain ⟨packets, dropped⟩ := scan_of_lead_cut (s := x) (i := 0) quiet first.opens first.size
        begins cut
      rw [none_there]
      exact ⟨packets, dropped⟩
    · -- The frame is there, and what is left of it is the lead of the others.
      obtain ⟨y, rfl, behind⟩ := exists_of_begins begins (Nat.le_of_not_lt cut)
      have there : arrived ((lead ++ (frame ++ y)).length - lead.length) (frame :: frames) =
          frame :: arrived ((left frame ++ y).length - (left frame).length) frames := by
        rw [List.length_append, Nat.add_sub_cancel_left, List.length_append, arrived,
          if_pos (Nat.le_add_right _ _), Nat.add_sub_cancel_left, List.length_append,
          Nat.add_sub_cancel_left]
      obtain ⟨packets, dropped⟩ :=
        ih later calm others ((List.prefix_append_right_inj (left frame)).2 behind)
      rw [there, scan_of_intact quiet first, packets, dropped, List.countP_cons]
      refine ⟨?_, rfl⟩
      cases found : packet? frame with
      | none => rw [List.filterMap_cons_none found]; rfl
      | some packet => rw [List.filterMap_cons_some found]; rfl

theorem rest_of_frames (intact : ∀ frame ∈ frames, Intact frame) (quiet : ¬magic <:+: lead)
    (apart : Apart frames) :
    (scan (lead ++ frames.flatten) 0).rest = (scan (residue lead frames) 0).rest := by
  induction frames generalizing lead with
  | nil => rw [List.flatten_nil, List.append_nil, residue]
  | cons frame frames ih =>
    obtain ⟨first, later⟩ := List.forall_mem_cons.1 intact
    obtain ⟨calm, others⟩ := List.forall_mem_cons.1 apart
    rw [List.flatten_cons, scan_of_intact quiet first, residue]
    exact ih later calm others

/-- **Frames that do not decode are skipped whole**, however the stream is cut, if none of them
holds the magic behind its front. After each push, the frames that are all there have been given or
dropped, and all of the payload of a dropped frame with it. In the end at most three bytes are kept,
and only of a last frame that does not decode and ends like the magic begins. -/
theorem pushAll_skipping {pieces : List Bytes} (intact : ∀ frame ∈ frames, Intact frame)
    (apart : ∀ frame ∈ frames, packet? frame = none → ¬magic <:+: frame.drop 1)
    (cut : pieces.flatten = frames.flatten) :
    (∀ before after, pieces = before ++ after →
      (empty.pushAll before).1 = (arrived before.flatten.length frames).filterMap packet? ∧
      (empty.pushAll before).2.dropped =
        (arrived before.flatten.length frames).countP fun frame => (packet? frame).isNone) ∧
    (empty.pushAll pieces).1 = frames.filterMap packet? ∧
    (empty.pushAll pieces).2.dropped = frames.countP (fun frame => (packet? frame).isNone) ∧
    (empty.pushAll pieces).2.buffer.length ≤ 3 ∧
    ((empty.pushAll pieces).2.buffer = [] ↔ ∀ last, frames.getLast? = some last →
      packet? last = none → last.getLast? ≠ some 0x55) := by
  have apart := apart_of_undecodable apart
  have quiet : ¬magic <:+: [] := by decide
  have begun {before after : List Bytes} (parts : pieces = before ++ after) :
      (empty.pushAll before).1 = (arrived before.flatten.length frames).filterMap packet? ∧
      (empty.pushAll before).2.dropped =
        (arrived before.flatten.length frames).countP fun frame => (packet? frame).isNone := by
    have begins : before.flatten <+: [] ++ frames.flatten :=
      ⟨after.flatten, by rw [← List.flatten_append, ← parts, cut, List.nil_append]⟩
    obtain ⟨packets, dropped⟩ := scan_of_frames intact quiet apart begins
    rw [pushAll_empty, push_empty, Scan.framer, packets, dropped]
    exact ⟨rfl, Nat.zero_add _⟩
  have kept : (empty.pushAll pieces).2.buffer = (scan (residue [] frames) 0).rest := by
    rw [pushAll_empty, push_empty, cut, ← rest_of_frames intact quiet apart]
    rfl
  -- What the last frame leaves is noise; its last byte decides if any of it is kept.
  have calm : ¬magic <:+: residue [] frames := by
    rw [residue_eq]
    cases ending : frames.getLast? with
    | none => exact quiet
    | some last => exact apart last (List.mem_of_getLast? ending)
  have all := begun (List.append_nil pieces).symm
  rw [cut, arrived_length_flatten] at all
  refine ⟨fun before after parts => begun parts, all.1, all.2, ?_, ?_⟩
  · rw [kept]
    exact (scan_of_noise calm 0).2.2
  · rw [kept, rest_of_noise_eq_nil_iff calm, List.drop_zero, residue_eq]
    cases ending : frames.getLast? with
    | none =>
      refine iff_of_true (Option.some_ne_none _).symm fun last missing => ?_
      cases missing
    | some last =>
      have only := getLast?_left (intact last (List.mem_of_getLast? ending))
      constructor
      · intro ends other same
        cases Option.some.inj same
        exact only.1 ends
      · intro ends
        exact only.2 (ends last rfl)

/-- A frame of an unknown family, which ends like the magic begins. -/
def unknownFrame : Bytes :=
  [0x55, 0x55, 0x55, 0xAA, 0xB0, 0x80, 0x98, 0x0E, 0x00, 0x00, 0x56, 0x55]

/-- The frame that asks for the console's version. -/
def requestFrame : Bytes :=
  [0x55, 0x55, 0x55, 0xAA, 0x90, 0xB0, 0x01, 0x1F, 0x00, 0x02, 0xFF, 0x30, 0x9B, 0x8C]

theorem intact_unknownFrame : Intact unknownFrame :=
  ⟨⟨0xB080, 0x98, 0x0E, 0⟩, [], rfl, by decide +kernel⟩

theorem intact_requestFrame : Intact requestFrame :=
  ⟨⟨0x90B0, 0x01, 0x1F, 2⟩, [0xFF, 0x30], rfl, by decide +kernel⟩

/-- A request between two frames of an unknown family. The stream is cut in the request, and the
last byte of the first frame could begin the magic together with it. -/
theorem pushAll_skipping_unknown :
    (∀ frame ∈ [unknownFrame, requestFrame, unknownFrame], Intact frame) ∧
    (∀ frame ∈ [unknownFrame, requestFrame, unknownFrame], packet? frame = none →
      ¬magic <:+: frame.drop 1) ∧
    ((empty.pushAll [unknownFrame ++ requestFrame.take 9]).1 = [] ∧
      (empty.pushAll [unknownFrame ++ requestFrame.take 9]).2.dropped = 1) ∧
    ((empty.pushAll [unknownFrame ++ requestFrame.take 9, requestFrame.drop 9, unknownFrame]).1 =
        [⟨0x90B0, 1, .versionRequest⟩] ∧
      (empty.pushAll [unknownFrame ++ requestFrame.take 9, requestFrame.drop 9,
        unknownFrame]).2.dropped = 2) := by
  have intact : ∀ frame ∈ [unknownFrame, requestFrame, unknownFrame], Intact frame := by
    simp only [List.forall_mem_cons]
    exact ⟨intact_unknownFrame, intact_requestFrame, intact_unknownFrame, nofun⟩
  have apart : ∀ frame ∈ [unknownFrame, requestFrame, unknownFrame], packet? frame = none →
      ¬magic <:+: frame.drop 1 := by
    decide +kernel
  have cut : [unknownFrame ++ requestFrame.take 9, requestFrame.drop 9, unknownFrame].flatten =
      [unknownFrame, requestFrame, unknownFrame].flatten := by
    rfl
  obtain ⟨pushes, packets, dropped, -⟩ := pushAll_skipping intact apart cut
  exact ⟨intact, apart, pushes [_] [_, _] rfl, packets, dropped⟩

/-! ## Frames that hold the magic -/

/-- **A frame that does not decode is skipped whole** exactly if it does not hold the magic behind
its front. -/
theorem skipped_iff {frame : Bytes} (intact : Intact frame) (fails : packet? frame = none) :
    ((empty.push frame).1 = [] ∧ (empty.push frame).2.dropped = 1 ∧
      (empty.push frame).2.buffer.length ≤ 3) ↔ ¬magic <:+: frame.drop 1 := by
  have once : scan ([] ++ (frame ++ [])) 0 = _ := scan_of_intact (by decide) intact []
  rw [List.nil_append, List.append_nil, List.append_nil, fails, left_of_none fails] at once
  rw [push_empty, once, ← scan_noise_iff, Scan.framer]
  generalize scan (frame.drop 1) 0 = later
  show later.packets = [] ∧ 0 + (later.dropped + 1) = 1 ∧ later.rest.length ≤ 3 ↔ _
  rw [Nat.zero_add, Nat.add_eq_right]

/-- A frame of an unknown family that carries a request. -/
def carrierFrame : Bytes :=
  [0x55, 0x55, 0x55, 0xAA, 0xB0, 0x80, 0x02, 0x0E, 0x00, 0x0E] ++ requestFrame ++ [0xDF, 0x55]

/-- The request is taken out of the payload of a frame whose checksum is right. Something is kept of
that frame, and of one that carries nothing. -/
theorem pushAll_carrier :
    Intact carrierFrame ∧ decode carrierFrame = .error (.unknownMessageType 0x0E) ∧
    empty.pushAll [carrierFrame] = ([⟨0x90B0, 1, .versionRequest⟩], ⟨[0x55], none, 1⟩) ∧
    Intact unknownFrame ∧ decode unknownFrame = .error (.unknownMessageType 0x0E) ∧
    empty.pushAll [unknownFrame] = ([], ⟨[0x55], none, 1⟩) := by
  have intact : Intact carrierFrame :=
    ⟨⟨0xB080, 0x02, 0x0E, 14⟩, requestFrame, rfl, by decide +kernel⟩
  refine ⟨intact, rfl, ?_, intact_unknownFrame, rfl, ?_⟩
  · decide +kernel
  · decide +kernel

end ClimateLink.Framer
