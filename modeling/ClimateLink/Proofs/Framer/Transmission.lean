import ClimateLink.Proofs.Framer.Passage

/-!
# Frames among noise

What comes over a line is frames, one after another, with noise in front of the first and behind
each of them. As long as the magic is not in any of the noise, the framer is not misled by it.

**Theorem (`pushAll_transmission`).** Let every frame be the encoding of a packet. Each push then
gives the packets of those frames whose last byte comes with it, in order: none early, late, twice
or never. Nothing is dropped, and in the end no more than three bytes of noise are kept.

**The proof.** Noise together with the frame behind it does not hold the magic before the frame:
no end of the magic is a beginning of it. So from the end of one frame the scan comes to the next
one, and it stops there as long as that is cut off. What a push gives is the difference between
what two beginnings of the stream give.
-/

namespace ClimateLink.Framer

open ClimateLink.Frame Wire

/-! ## The stream -/

/-- A packet, the frame that it is sent in, and the noise that follows. -/
structure Leg where
  packet : Packet
  frame : Bytes
  noise : Bytes
  deriving DecidableEq

/-- Some noise and then legs, as they come over the line. -/
def stream (lead : Bytes) : List Leg → Bytes
  | [] => lead
  | leg :: legs => lead ++ (leg.frame ++ stream leg.noise legs)

/-- The frames of a stream that begins at an offset, each with the offset behind its last byte. -/
def arrivals (start : Nat) (lead : Bytes) : List Leg → List (Nat × Bytes)
  | [] => []
  | leg :: legs =>
    (start + lead.length + leg.frame.length, leg.frame) ::
      arrivals (start + lead.length + leg.frame.length) leg.noise legs

/-- The noise at the end of a stream. -/
def tail (lead : Bytes) : List Leg → Bytes
  | [] => lead
  | leg :: legs => tail leg.noise legs

/-- The magic is in none of the noise of a stream. -/
def Quiet (lead : Bytes) (legs : List Leg) : Prop :=
  ¬magic <:+: lead ∧ ∀ leg ∈ legs, ¬magic <:+: leg.noise

/-- Every frame of a stream is the encoding of its packet. -/
def Encoded (legs : List Leg) : Prop := ∀ leg ∈ legs, encode leg.packet = .ok leg.frame

theorem Quiet.of_cons {lead : Bytes} {leg : Leg} {legs : List Leg}
    (quiet : Quiet lead (leg :: legs)) : Quiet leg.noise legs :=
  ⟨quiet.2 leg List.mem_cons_self, fun other later => quiet.2 other (List.mem_cons_of_mem _ later)⟩

theorem Encoded.of_cons {leg : Leg} {legs : List Leg} (encoded : Encoded (leg :: legs)) :
    Encoded legs := fun other later => encoded other (List.mem_cons_of_mem _ later)

theorem le_of_mem_arrivals {start : Nat} {lead : Bytes} {legs : List Leg} {a : Nat × Bytes}
    (mem : a ∈ arrivals start lead legs) : start + lead.length ≤ a.1 := by
  induction legs generalizing start lead with
  | nil => cases mem
  | cons leg legs ih =>
    rcases List.mem_cons.1 mem with rfl | later
    · exact Nat.le_add_right _ _
    · exact Nat.le_trans (by omega) (ih later)

theorem filter_arrivals_split {m n : Nat} (le : m ≤ n) (start : Nat) (lead : Bytes)
    (legs : List Leg) :
    (arrivals start lead legs).filter (·.1 ≤ n) =
      (arrivals start lead legs).filter (·.1 ≤ m) ++
        (arrivals start lead legs).filter fun a => m < a.1 ∧ a.1 ≤ n := by
  induction legs generalizing start lead with
  | nil => rfl
  | cons leg legs ih =>
    obtain ⟨fst, first⟩ : ∃ fst, fst = start + lead.length + leg.frame.length := ⟨_, rfl⟩
    rw [arrivals, ← first]
    by_cases early : fst ≤ m
    · have soon : fst ≤ n := Nat.le_trans early le
      have not_late : ¬(m < fst ∧ fst ≤ n) := by omega
      simp only [List.filter_cons, decide_eq_true_eq, if_pos early, if_pos soon, if_neg not_late,
        ih, List.cons_append]
    · have none_early : (arrivals fst leg.noise legs).filter (·.1 ≤ m) = [] := by
        refine List.filter_eq_nil_iff.2 fun a mem => ?_
        have := le_of_mem_arrivals mem
        simp only [decide_eq_true_eq]
        omega
      have late : (m < fst ∧ fst ≤ n) ↔ fst ≤ n := by omega
      simp only [List.filter_cons, decide_eq_true_eq, if_neg early, late, ih, none_early,
        List.nil_append]

/-! ## Noise in front of a frame -/

theorem drop_magic_prefix : ∀ k < 4, magic.drop k <+: magic → k = 0 := by decide

/-- **No magic begins in noise**, nor at its end together with the frame behind it. -/
theorem not_magic_of_noise {noise frame : Bytes} (quiet : ¬magic <:+: noise)
    (opens : magic <+: frame) {k : Nat} (inside : k < noise.length) :
    ¬magic <+: (noise ++ frame).drop k := by
  intro here
  rw [List.drop_append_of_le_length (Nat.le_of_lt inside)] at here
  by_cases all : 4 ≤ (noise.drop k).length
  · have within : magic <+: noise.drop k :=
      List.prefix_of_prefix_length_le here (List.prefix_append _ _) all
    exact quiet (infix_iff_exists_drop.2 ⟨k, within⟩)
  · -- The end of the noise is the front of the magic, and the frame begins with what is left of it.
    have front : noise.drop k <+: magic :=
      List.prefix_of_prefix_length_le (List.prefix_append _ _) here
        (Nat.le_of_lt (Nat.lt_of_not_le all))
    obtain ⟨behind, whole⟩ := front
    have left : behind <+: frame := by
      rw [← whole] at here
      exact (List.prefix_append_right_inj _).1 here
    have ending : magic.drop (noise.drop k).length = behind := by rw [← whole, List.drop_left]
    have again : magic.drop (noise.drop k).length <+: magic := by
      rw [ending]
      refine List.prefix_of_prefix_length_le left opens ?_
      rw [← whole, List.length_append]
      exact Nat.le_add_left _ _
    have nothing := drop_magic_prefix _ (Nat.lt_of_not_le all) again
    rw [List.length_drop] at nothing
    omega

theorem exists_of_begins {x lead frame behind : Bytes} (begins : x <+: lead ++ (frame ++ behind))
    (long : lead.length + frame.length ≤ x.length) :
    ∃ rest, x = lead ++ (frame ++ rest) ∧ rest <+: behind := by
  have whole : lead ++ frame <+: x := by
    refine List.prefix_of_prefix_length_le ?_ begins ?_
    · rw [← List.append_assoc]
      exact List.prefix_append _ _
    · rwa [List.length_append]
  obtain ⟨rest, rfl⟩ := whole
  rw [List.append_assoc] at begins ⊢
  exact ⟨rest, rfl, (List.prefix_append_right_inj _).1 ((List.prefix_append_right_inj _).1 begins)⟩

variable {s lead : Bytes} {i : Nat}

/-- The scan comes to a frame behind noise, once four bytes of the frame are there. -/
theorem scan_of_lead {frame rest : Bytes} (quiet : ¬magic <:+: lead) (opens : magic <+: frame)
    (begins : s.drop i <+: lead ++ (frame ++ rest)) (room : lead.length + 4 ≤ (s.drop i).length) :
    scan s i = scan s (i + lead.length) := by
  rw [List.length_drop] at room
  refine scan_skip (by omega) (Nat.le_add_right _ _) fun k after before here => ?_
  obtain ⟨n, rfl⟩ := Nat.exists_eq_add_of_le after
  rw [← List.drop_drop] at here
  have inside : n < lead.length := by omega
  exact not_magic_of_noise quiet (opens.trans (List.prefix_append _ rest)) inside
    (here.trans (begins.drop n))

theorem scan_of_lead_frame {frame rest : Bytes} (quiet : ¬magic <:+: lead) (opens : magic <+: frame)
    (here : s.drop i = lead ++ (frame ++ rest)) :
    scan s i = scan s (i + lead.length) ∧ s.drop (i + lead.length) = frame ++ rest := by
  have large : 4 ≤ frame.length := opens.length_le
  have room : lead.length + 4 ≤ (s.drop i).length := by
    rw [here, List.length_append, List.length_append]
    omega
  have begins : s.drop i <+: lead ++ (frame ++ rest) := by rw [here]
  refine ⟨scan_of_lead quiet opens begins room, ?_⟩
  rw [← List.drop_drop, here, List.drop_left]

theorem scan_of_lead_complete {frame rest : Bytes} {packet : Packet} (quiet : ¬magic <:+: lead)
    (complete : Complete frame packet) (here : s.drop i = lead ++ (frame ++ rest)) :
    scan s i = ⟨packet :: (scan s (i + lead.length + frame.length)).packets,
      (scan s (i + lead.length + frame.length)).dropped,
      (scan s (i + lead.length + frame.length)).rest⟩ := by
  obtain ⟨reached, next⟩ := scan_of_lead_frame quiet complete.opens here
  rw [reached, scan_of_complete complete next]

theorem scan_of_lead_cut {frame rest : Bytes} (quiet : ¬magic <:+: lead) (opens : magic <+: frame)
    (long : frame.length = 12 + (wordAt frame 8).toNat)
    (begins : s.drop i <+: lead ++ (frame ++ rest))
    (cut : (s.drop i).length < lead.length + frame.length) :
    (scan s i).packets = [] ∧ (scan s i).dropped = 0 := by
  by_cases room : lead.length + 4 ≤ (s.drop i).length
  · -- The scan stops at the frame, since that is not all there.
    obtain ⟨behind, whole⟩ : s.drop (i + lead.length) <+: frame ++ rest := by
      have next := begins.drop lead.length
      rwa [List.drop_drop, List.drop_left] at next
    have length : (s.drop (i + lead.length)).length = (s.drop i).length - lead.length := by
      rw [← List.drop_drop, List.length_drop]
    have found : magic <+: s.drop (i + lead.length) :=
      List.prefix_of_prefix_length_le (opens.trans (List.prefix_append _ rest))
        ⟨behind, whole⟩ (by rw [length]; exact Nat.le_sub_of_add_le' room)
    have short : (s.drop (i + lead.length)).length < size s (i + lead.length) := by
      by_cases header : (s.drop (i + lead.length)).length < 12
      · exact Nat.lt_of_lt_of_le header (Nat.le_add_right _ _)
      · have inside : 8 + 1 < (s.drop (i + lead.length)).length := by omega
        have within : 8 + 1 < frame.length := by omega
        have declared := wordAt_append_left inside behind
        rw [whole, wordAt_append_left within, wordAt_drop] at declared
        rw [size, ← declared, ← long]
        omega
    rw [scan_of_lead quiet opens begins room, scan_of_short found short]
    exact ⟨rfl, rfl⟩
  · -- There is not enough of the frame for its magic.
    have none : ¬magic <:+: s.drop i := by
      intro here
      obtain ⟨k, found⟩ := infix_iff_exists_drop.1 here
      have long := found.length_le
      rw [show magic.length = 4 from rfl, List.length_drop] at long
      exact not_magic_of_noise quiet (opens.trans (List.prefix_append _ rest))
        (by omega) (found.trans (begins.drop k))
    have same : scan s i = scan (s.drop i) 0 := scan_congr rfl
    obtain ⟨packets, dropped, -⟩ := scan_of_noise none 0
    rw [same]
    exact ⟨packets, dropped⟩

/-! ## The whole stream -/

/-- **A scan of the beginning of a stream** gives what the frames in it decode to, and drops
nothing. -/
theorem scan_of_stream {legs : List Leg} (encoded : Encoded legs) (quiet : Quiet lead legs)
    (begins : s.drop i <+: stream lead legs) :
    (scan s i).packets.map Except.ok =
        ((arrivals i lead legs).filter (·.1 ≤ s.length)).map (fun a => decode a.2) ∧
      (scan s i).dropped = 0 := by
  induction legs generalizing i lead with
  | nil =>
    have none : ¬magic <:+: s.drop i := fun here => quiet.1 (here.trans begins.isInfix)
    have same : scan s i = scan (s.drop i) 0 := scan_congr rfl
    obtain ⟨packets, dropped, -⟩ := scan_of_noise none 0
    rw [same, packets, dropped]
    exact ⟨rfl, rfl⟩
  | cons leg legs ih =>
    obtain ⟨packet, complete⟩ := exists_complete_of_encode (encoded leg List.mem_cons_self)
    by_cases cut : (s.drop i).length < lead.length + leg.frame.length
    · obtain ⟨packets, dropped⟩ := scan_of_lead_cut quiet.1 complete.opens complete.size begins cut
      have nothing : (arrivals i lead (leg :: legs)).filter (·.1 ≤ s.length) = [] := by
        refine List.filter_eq_nil_iff.2 fun a mem => ?_
        rw [List.length_drop] at cut
        rcases List.mem_cons.1 mem with rfl | later
        · simp only [decide_eq_true_eq]
          omega
        · have := le_of_mem_arrivals later
          simp only [decide_eq_true_eq]
          omega
      rw [packets, dropped, nothing]
      exact ⟨rfl, rfl⟩
    · -- The frame is there, and the scan is where it was, a leg further.
      obtain ⟨rest, here, next⟩ := exists_of_begins begins (Nat.le_of_not_lt cut)
      have next : s.drop (i + lead.length + leg.frame.length) <+: stream leg.noise legs := by
        rwa [← List.drop_drop, ← List.drop_drop, here, List.drop_left, List.drop_left]
      obtain ⟨packets, dropped⟩ := ih encoded.of_cons quiet.of_cons next
      have arrived : i + lead.length + leg.frame.length ≤ s.length := by
        have long := congrArg List.length here
        have large := complete.twelve_le_length
        simp only [List.length_drop, List.length_append] at long
        omega
      rw [scan_of_lead_complete quiet.1 complete here, arrivals, List.filter_cons,
        if_pos (decide_eq_true arrived), List.map_cons, List.map_cons, packets, dropped,
        complete.decoded]
      exact ⟨rfl, rfl⟩

theorem rest_of_stream {legs : List Leg} (encoded : Encoded legs) (quiet : Quiet lead legs)
    (whole : s.drop i = stream lead legs) :
    (scan s i).rest = (scan (tail lead legs) 0).rest := by
  induction legs generalizing i lead with
  | nil => rw [scan_congr (t := lead) (j := 0) whole, tail]
  | cons leg legs ih =>
    obtain ⟨packet, complete⟩ := exists_complete_of_encode (encoded leg List.mem_cons_self)
    have next : s.drop (i + lead.length + leg.frame.length) = stream leg.noise legs := by
      rw [← List.drop_drop, ← List.drop_drop, whole, stream, List.drop_left, List.drop_left]
    rw [scan_of_lead_complete quiet.1 complete whole]
    exact ih encoded.of_cons quiet.of_cons next

theorem not_magic_tail {legs : List Leg} (quiet : Quiet lead legs) :
    ¬magic <:+: tail lead legs := by
  induction legs generalizing lead with
  | nil => exact quiet.1
  | cons leg legs ih => exact ih quiet.of_cons

/-- **Frames pass the framer promptly and completely**, whatever noise is between them and however
the stream is cut. -/
theorem pushAll_transmission {legs : List Leg} {pieces : List Bytes} (encoded : Encoded legs)
    (quiet : Quiet lead legs) (cut : pieces.flatten = stream lead legs) :
    (∀ before piece after, pieces = before ++ piece :: after →
      ((empty.pushAll before).2.push piece).1.map Except.ok =
          ((arrivals 0 lead legs).filter fun a =>
            before.flatten.length < a.1 ∧ a.1 ≤ (before.flatten ++ piece).length).map
              (fun a => decode a.2) ∧
        ((empty.pushAll before).2.push piece).2.dropped = 0) ∧
    (empty.pushAll pieces).2.dropped = 0 ∧ (empty.pushAll pieces).2.buffer.length ≤ 3 ∧
    (tail lead legs = [] → (empty.pushAll pieces).2.buffer = []) := by
  have begun {x : Bytes} (begins : x <+: stream lead legs) :
      (empty.push x).1.map Except.ok =
          ((arrivals 0 lead legs).filter (·.1 ≤ x.length)).map (fun a => decode a.2) ∧
        (empty.push x).2.dropped = 0 := by
    obtain ⟨packets, dropped⟩ := scan_of_stream (i := 0) encoded quiet begins
    rw [push_empty, Scan.framer, dropped]
    exact ⟨packets, rfl⟩
  have kept : (empty.pushAll pieces).2.buffer = (scan (tail lead legs) 0).rest := by
    rw [pushAll_empty, push_empty, cut]
    exact rest_of_stream encoded quiet rfl
  refine ⟨fun before piece after parts => ?_, ?_, ?_, fun none => ?_⟩
  · have whole : before.flatten ++ piece <+: stream lead legs :=
      ⟨after.flatten, by rw [← cut, parts, List.flatten_append, List.flatten_cons,
        List.append_assoc]⟩
    obtain ⟨first, -⟩ := begun ((List.prefix_append _ _).trans whole)
    obtain ⟨both, dropped⟩ := begun whole
    have longer : before.flatten.length ≤ (before.flatten ++ piece).length := by
      rw [List.length_append]
      exact Nat.le_add_right _ _
    -- The push gives what both give together less what was given in front.
    rw [push_append] at both dropped
    rw [pushAll_empty]
    refine ⟨?_, dropped⟩
    rw [List.map_append, first, filter_arrivals_split longer, List.map_append] at both
    exact List.append_cancel_left both
  · rw [pushAll_empty, cut]
    exact (begun (List.prefix_refl _)).2
  · rw [kept]
    exact (scan_of_noise (not_magic_tail quiet) 0).2.2
  · rw [kept, none, scan_of_part (i := 0) List.nil_prefix (List.cons_ne_nil _ _).symm]
    rfl

/-- A question for the version and the answer, with the front of the magic behind the question and
in the answer. -/
def chatter : List Leg :=
  [⟨⟨0x90B0, 1, .versionRequest⟩,
      [0x55, 0x55, 0x55, 0xAA, 0x90, 0xB0, 0x01, 0x1F, 0x00, 0x02, 0xFF, 0x30, 0x9B, 0x8C],
      [0x55, 0x55, 0x55]⟩,
    ⟨⟨0xB090, 1, .version false "UUU"⟩,
      [0x55, 0x55, 0x55, 0xAA, 0xB0, 0x90, 0x01, 0x1F, 0x00, 0x07, 0xFF, 0x30, 0x00, 0x03, 0x55,
        0x55, 0x55, 0x20, 0xEF],
      [0x55]⟩]

/-- The first piece ends just before the end of the question, the second one with the answer. -/
theorem pushAll_transmission_chatter :
    Encoded chatter ∧ Quiet [0x55] chatter ∧
    ((empty.pushAll [(stream [0x55] chatter).take 14]).2.push
        (((stream [0x55] chatter).drop 14).take 23)).1.map Except.ok =
      chatter.map (fun leg => decode leg.frame) ∧
    (empty.pushAll [(stream [0x55] chatter).take 14, ((stream [0x55] chatter).drop 14).take 23,
      [0x55]]).2.buffer.length ≤ 3 := by
  have encoded : Encoded chatter := by
    intro leg mem
    rcases List.mem_pair.1 mem with rfl | rfl <;> decide +kernel
  have quiet : Quiet [0x55] chatter := ⟨by decide, by decide⟩
  have cut : [(stream [0x55] chatter).take 14, ((stream [0x55] chatter).drop 14).take 23,
      [0x55]].flatten = stream [0x55] chatter := by rfl
  obtain ⟨pushes, -, kept, -⟩ := pushAll_transmission encoded quiet cut
  exact ⟨encoded, quiet, (pushes [_] _ [_] rfl).1, kept⟩

end ClimateLink.Framer
