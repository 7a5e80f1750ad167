import ClimateLink.Proofs.Frame.Offsets
import ClimateLink.Proofs.Framer.Drain

/-!
# One pass over a string

A framer keeps a buffer, a header and a count between its looks. What it makes of a whole string
can be said without any of them, by a scan that goes over the string once and knows nothing but
the offset at which it is.

**The scan.** Where the rest of the string may still become the magic, the scan stops and keeps
it. Where the magic is not, it goes on by one byte. Where it is, the next twelve bytes and the
payload that they declare are a candidate: if they are not all there the scan stops and keeps
them; if the candidate is sound its packet is given and the scan goes on behind it; and if not, a
frame is dropped and the scan goes on by one byte.

**Theorem (`push_eq_scan`).** A new framer that takes a string gives the packets of the scan, and
has its rest, the header in front of that, and its count of dropped frames.
-/

namespace ClimateLink.Framer

open ClimateLink.Frame Wire

/-! ## The scan -/

/-- What a scan makes of a string: the packets in it, the number of frames that are dropped, and
the bytes that it keeps. -/
structure Scan where
  packets : List Packet
  dropped : Nat
  rest : Bytes
  deriving DecidableEq

/-- The packet of a candidate with a payload of the given size, if the candidate is sound: its
trailer is the checksum of what lies between the magic and the trailer, and it decodes. -/
def sound? (candidate : Bytes) (payload : Nat) : Option Packet :=
  if wordAt candidate (10 + payload) = checksum ((candidate.take (10 + payload)).drop 4) then
    (decode candidate).toOption
  else none

theorem lt_length_of_drop {s : Bytes} {i : Nat}
    (h : ¬(s.drop i <+: magic ∧ s.drop i ≠ magic)) : i < s.length := by
  by_contra past
  rw [List.drop_eq_nil_of_le (Nat.le_of_not_lt past)] at h
  exact h ⟨List.nil_prefix, (List.cons_ne_nil _ _).symm⟩

/-- The scan of a string from an offset on. -/
def scan (s : Bytes) (i : Nat) : Scan :=
  let rest := s.drop i
  let payload := (wordAt s (i + 8)).toNat
  if rest <+: magic ∧ rest ≠ magic then ⟨[], 0, rest⟩
  else if ¬magic <+: rest then scan s (i + 1)
  else if rest.length < 12 ∨ rest.length < 12 + payload then ⟨[], 0, rest⟩
  else match sound? (rest.take (12 + payload)) payload with
    | some packet =>
      let next := scan s (i + 12 + payload)
      ⟨packet :: next.packets, next.dropped, next.rest⟩
    | none =>
      let next := scan s (i + 1)
      ⟨next.packets, next.dropped + 1, next.rest⟩
termination_by s.length - i
decreasing_by
  all_goals
    have : i < s.length := lt_length_of_drop (by assumption)
    omega

/-! ## A look is a step of the scan -/

theorem sound?_eq_some_iff {candidate : Bytes} {payload : Nat} {packet : Packet}
    (h : candidate.length = 12 + payload) :
    sound? candidate payload = some packet ↔ accept candidate = .ok packet := by
  have size : candidate.length = 10 + payload + checksumSize := by
    rw [h, checksumSize]
    omega
  rw [accept, bind_eq_ok, sound?]
  constructor
  · intro sound
    obtain ⟨trailer, decoded⟩ := Option.ite_none_right_eq_some.1 sound
    refine ⟨(), (verify_eq_ok_iff size).2 trailer, ?_⟩
    cases result : decode candidate with
    | ok found => rw [result] at decoded; cases decoded; rfl
    | error fault => rw [result] at decoded; cases decoded
  · rintro ⟨⟨⟩, trailer, decoded⟩
    have covered := (verify_eq_ok_iff size).1 trailer
    rw [decoded]
    exact if_pos covered

theorem header?_of_magic {bs : Bytes} (found : magic <+: bs) :
    header? bs = if bs.length < 12 then none else some (Header.of bs) := by
  by_cases short : bs.length < 12
  · rw [if_pos short]
    exact if_pos short
  · have header : 10 ≤ bs.length := by omega
    rw [if_neg short, header?_eq_some_iff, Header.decode_eq_ok_iff]
    exact ⟨Nat.le_of_not_lt short, header, found, rfl⟩

/-- A look at bytes that open with the magic passes over none of them, and finds the header in
front once the smallest frame is there. -/
theorem look_of_magic {bs : Bytes} (found : magic <+: bs) :
    front none bs = bs ∧ none.or (header? (front none bs)) =
      if bs.length < 12 then none else some (Header.of bs) := by
  have kept : front none bs = bs := seek_of_atMagic (.inl found)
  rw [kept, Option.none_or, header?_of_magic found]
  exact ⟨rfl, rfl⟩

theorem frameSize_of_drop (s : Bytes) (i : Nat) :
    (Header.of (s.drop i)).frameSize = 12 + (wordAt s (i + 8)).toNat := by
  have declared : (Header.of (s.drop i)).length = wordAt s (i + 8) := wordAt_drop s i 8
  rw [Header.frameSize, declared, show minSize = 12 from rfl]

/-- A look at a candidate that is all there finds its header, and accepts it if it is sound. -/
theorem look_of_candidate {s : Bytes} {i : Nat} (found : magic <+: s.drop i)
    (large : ¬((s.drop i).length < 12 ∨ (s.drop i).length < 12 + (wordAt s (i + 8)).toNat)) :
    none.or (header? (front none (s.drop i))) = some (Header.of (s.drop i)) ∧
      (Header.of (s.drop i)).frameSize ≤ (front none (s.drop i)).length ∧
      ∀ packet, accept ((front none (s.drop i)).take (Header.of (s.drop i)).frameSize) =
          .ok packet ↔
        sound? ((s.drop i).take (12 + (wordAt s (i + 8)).toNat)) (wordAt s (i + 8)).toNat =
          some packet := by
  obtain ⟨roomy, complete⟩ := not_or.1 large
  obtain ⟨kept, looked⟩ := look_of_magic found
  rw [if_neg roomy] at looked
  rw [looked, kept, frameSize_of_drop]
  refine ⟨rfl, Nat.le_of_not_lt complete, fun packet => (sound?_eq_some_iff ?_).symm⟩
  rw [List.length_take, Nat.min_eq_left (Nat.le_of_not_lt complete)]

/-- The framer that a scan leaves, if some frames had been dropped before. -/
def Scan.framer (before : Nat) (scanned : Scan) : Framer :=
  ⟨scanned.rest, header? scanned.rest, before + scanned.dropped⟩

/-- **Draining is scanning**: what is done with the bytes from an offset on depends on nothing
but them. -/
theorem drain_drop_eq_scan (s : Bytes) (i dropped : Nat) :
    drain (s.drop i) none dropped = ((scan s i).packets, (scan s i).framer dropped) := by
  induction i using scan.induct s generalizing dropped with
  | case1 i rest stop =>
    -- What can still become the magic is shorter than a frame.
    have scanned : scan s i = ⟨[], 0, rest⟩ := by
      rw [scan]
      exact if_pos stop
    have kept : front none rest = rest := seek_of_atMagic (.inr stop.1)
    have nothing : header? rest = none := if_pos (Nat.lt_of_le_of_lt stop.1.length_le (by decide))
    have looked : none.or (header? (front none rest)) = none := by
      rw [kept, nothing, Option.none_or]
    rw [scanned, Scan.framer, nothing, drain_of_none looked, kept, Nat.add_zero]
  | case2 i rest stop away ih =>
    -- The framer looks where the scan looks next.
    have scanned : scan s i = scan s (i + 1) := by
      rw [scan]
      exact (if_neg stop).trans (if_pos away)
    have passed : ¬AtMagic rest := by
      rintro (found | part)
      · exact away found
      · exact stop ⟨part, fun same => away (same ▸ List.prefix_refl _)⟩
    have inside : i < s.length := lt_length_of_drop stop
    have next : front none rest = front none (s.drop (i + 1)) := by
      show seek rest = seek (s.drop (i + 1))
      have cons : rest = s[i] :: s.drop (i + 1) := List.drop_eq_getElem_cons inside
      rw [cons] at passed ⊢
      rw [seek_cons, if_neg passed]
    rw [scanned, ← ih]
    exact drain_congr next (by rw [next])
  | case3 i rest payload stop here short =>
    have scanned : scan s i = ⟨[], 0, rest⟩ := by
      rw [scan]
      exact ((if_neg stop).trans (if_neg here)).trans (if_pos short)
    have found : magic <+: rest := Classical.not_not.1 here
    obtain ⟨kept, looked⟩ := look_of_magic found
    rw [scanned, Scan.framer, header?_of_magic found, Nat.add_zero]
    by_cases tiny : rest.length < 12
    · rw [if_pos tiny] at looked ⊢
      rw [drain_of_none looked, kept]
    · rw [if_neg tiny] at looked ⊢
      have incomplete : (front none rest).length < (Header.of rest).frameSize := by
        rw [kept, frameSize_of_drop]
        exact short.resolve_left tiny
      rw [drain_of_lt looked incomplete, kept]
  | case4 i rest payload stop here large packet sound ih =>
    have scanned : scan s i = ⟨packet :: (scan s (i + 12 + payload)).packets,
        (scan s (i + 12 + payload)).dropped, (scan s (i + 12 + payload)).rest⟩ := by
      rw [scan]
      refine ((if_neg stop).trans (if_neg here)).trans ((if_neg large).trans ?_)
      simp only [rest, payload] at sound
      rw [sound]
    have found : magic <+: rest := Classical.not_not.1 here
    obtain ⟨looked, within, accepted⟩ := look_of_candidate found large
    rw [scanned, drain_of_ok looked within ((accepted packet).2 sound), (look_of_magic found).1,
      frameSize_of_drop, List.drop_drop, ← Nat.add_assoc, ih]
    rfl
  | case5 i rest payload stop here large unsound ih =>
    have scanned : scan s i = ⟨(scan s (i + 1)).packets, (scan s (i + 1)).dropped + 1,
        (scan s (i + 1)).rest⟩ := by
      rw [scan]
      refine ((if_neg stop).trans (if_neg here)).trans ((if_neg large).trans ?_)
      simp only [rest, payload] at unsound
      rw [unsound]
    have found : magic <+: rest := Classical.not_not.1 here
    obtain ⟨looked, within, accepted⟩ := look_of_candidate found large
    obtain ⟨reason, refused⟩ : ∃ reason,
        accept ((front none rest).take (Header.of rest).frameSize) = .error reason := by
      cases result : accept ((front none rest).take (Header.of rest).frameSize) with
      | error reason => exact ⟨reason, rfl⟩
      | ok packet =>
        have sound := (accepted packet).1 result
        rw [unsound] at sound
        cases sound
    rw [scanned, drain_of_error looked within refused, (look_of_magic found).1, List.drop_drop, ih,
      Scan.framer, Scan.framer, Nat.add_assoc, Nat.add_comm 1]

/-- **A framer is a scan**: a new framer that takes a string gives the packets of the scan from the
front of the string, and is left with its rest, the header in front of that, and its count of
dropped frames. -/
theorem push_eq_scan (s : Bytes) :
    empty.push s =
      ((scan s 0).packets, ⟨(scan s 0).rest, header? (scan s 0).rest, (scan s 0).dropped⟩) := by
  have scanned := drain_drop_eq_scan s 0 0
  rw [List.drop_zero, Scan.framer, Nat.zero_add] at scanned
  exact scanned

end ClimateLink.Framer
