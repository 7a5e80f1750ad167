import ClimateLink.Proofs.Frame.Complete
import ClimateLink.Proofs.Framer.Cuts
import ClimateLink.Proofs.Framer.Scan

/-!
# How a scan gets on

What a scan does at one offset, one equation for each case, and from that what it makes of a
stretch of a string.

- `scan_congr`: only the bytes from the offset on count.
- `scan_of_complete`: a complete frame is given, and the scan goes on behind it.
- `scan_of_unsound`, `scan_of_refused`: any other candidate costs one byte.
- `scan_skip`: a stretch in which no magic begins is passed over.
- `scan_of_noise`: without the magic nothing is given, and three bytes are kept at most.
- `scan_noise_iff`: with the magic there is something given, dropped or waited for.
-/

namespace ClimateLink.Framer

open ClimateLink.Frame Wire

variable {s : Bytes} {i : Nat}

theorem push_empty (s : Bytes) : empty.push s = ((scan s 0).packets, (scan s 0).framer 0) := by
  rw [← drain_drop_eq_scan, List.drop_zero]
  rfl

theorem pushAll_empty (pieces : List Bytes) : empty.pushAll pieces = empty.push pieces.flatten :=
  pushAll_eq_push_flatten pieces (push_nil_after [])

/-! ## One offset -/

/-- What a scan makes of a string from an offset on depends on nothing in front of it. -/
theorem scan_congr {t : Bytes} {j : Nat} (same : s.drop i = t.drop j) : scan s i = scan t j := by
  have drained : ((scan s i).packets, (scan s i).framer 0) =
      ((scan t j).packets, (scan t j).framer 0) := by
    rw [← drain_drop_eq_scan, ← drain_drop_eq_scan, same]
  obtain ⟨packets, framer⟩ := Prod.mk.inj drained
  have rest : (scan s i).rest = (scan t j).rest := congrArg Framer.buffer framer
  have dropped : 0 + (scan s i).dropped = 0 + (scan t j).dropped := congrArg Framer.dropped framer
  rw [Nat.zero_add, Nat.zero_add] at dropped
  cases first : scan s i
  cases second : scan t j
  simp_all

theorem scan_of_part (part : s.drop i <+: magic) (more : s.drop i ≠ magic) :
    scan s i = ⟨[], 0, s.drop i⟩ := by
  rw [scan]
  exact if_pos ⟨part, more⟩

theorem scan_of_away (away : ¬magic <+: s.drop i) (large : ¬s.drop i <+: magic) :
    scan s i = scan s (i + 1) := by
  rw [scan]
  exact (if_neg fun stop => large stop.1).trans (if_pos away)

theorem not_part_of_magic (here : magic <+: s.drop i) :
    ¬(s.drop i <+: magic ∧ s.drop i ≠ magic) := by
  rintro ⟨part, more⟩
  exact more (part.eq_of_length_le here.length_le)

/-- The size of the candidate at an offset, as its header declares it. -/
def size (s : Bytes) (i : Nat) : Nat := 12 + (wordAt s (i + 8)).toNat

/-- The candidate at an offset, as far as it is there. -/
def candidate (s : Bytes) (i : Nat) : Bytes := (s.drop i).take (size s i)

theorem scan_of_short (here : magic <+: s.drop i) (short : (s.drop i).length < size s i) :
    scan s i = ⟨[], 0, s.drop i⟩ := by
  rw [scan]
  refine (if_neg (not_part_of_magic here)).trans ((if_neg (not_not_intro here)).trans ?_)
  exact if_pos (.inr short)

/-- The magic begins here, and the candidate is all there: what the scan does depends on whether
it is sound. -/
theorem scan_of_candidate (here : magic <+: s.drop i) (all : size s i ≤ (s.drop i).length) :
    scan s i = match sound? (candidate s i) (wordAt s (i + 8)).toNat with
      | some packet =>
        let next := scan s (i + size s i)
        ⟨packet :: next.packets, next.dropped, next.rest⟩
      | none =>
        let next := scan s (i + 1)
        ⟨next.packets, next.dropped + 1, next.rest⟩ := by
  have large : ¬((s.drop i).length < 12 ∨
      (s.drop i).length < 12 + (wordAt s (i + 8)).toNat) := by
    unfold size at all
    omega
  rw [scan, size, ← Nat.add_assoc]
  exact (if_neg (not_part_of_magic here)).trans ((if_neg (not_not_intro here)).trans (if_neg large))

/-! ## Candidates -/

theorem candidate_declared (here : magic <+: s.drop i) (all : size s i ≤ (s.drop i).length) :
    magic <+: candidate s i ∧ wordAt (candidate s i) 8 = wordAt s (i + 8) ∧
      (candidate s i).length = size s i := by
  have length : (candidate s i).length = size s i := by
    rw [candidate, List.length_take, Nat.min_eq_left all]
  have large : 12 ≤ size s i := Nat.le_add_right _ _
  refine ⟨List.prefix_take_iff.2 ⟨here, Nat.le_trans (by decide) large⟩, ?_, length⟩
  have inside : 8 + 1 < (candidate s i).length := by omega
  have whole := wordAt_append_left inside ((s.drop i).drop (size s i))
  rw [candidate, List.take_append_drop, wordAt_drop] at whole
  exact whole.symm

theorem sound?_candidate (here : magic <+: s.drop i) (all : size s i ≤ (s.drop i).length)
    {packet : Packet} : sound? (candidate s i) (wordAt s (i + 8)).toNat = some packet ↔
      Complete (candidate s i) packet := by
  obtain ⟨opens, declared, length⟩ := candidate_declared here all
  have last : 10 + (wordAt s (i + 8)).toNat = (candidate s i).length - 2 := by
    rw [length, size]
    omega
  rw [sound?, last]
  constructor
  · intro sound
    obtain ⟨trailer, decoded⟩ := Option.ite_none_right_eq_some.1 sound
    refine ⟨opens, by rw [declared, length, size], trailer, ?_⟩
    cases result : decode (candidate s i) with
    | ok found => rw [result] at decoded; cases decoded; rfl
    | error fault => rw [result] at decoded; cases decoded
  · intro complete
    rw [if_pos complete.trailer, complete.decoded]
    rfl

/-- Where the string goes on with a frame that is as long as it declares, this is the candidate, and
it is all there. -/
theorem candidate_of_frame {frame rest : Bytes} (opens : magic <+: frame)
    (long : frame.length = 12 + (wordAt frame 8).toNat) (here : s.drop i = frame ++ rest) :
    magic <+: s.drop i ∧ size s i ≤ (s.drop i).length ∧ size s i = frame.length ∧
      candidate s i = frame := by
  have declared : wordAt s (i + 8) = wordAt frame 8 := by
    rw [← wordAt_drop, here]
    exact wordAt_append_left (by omega) rest
  have length : size s i = frame.length := by rw [size, declared, long]
  refine ⟨?_, ?_, length, ?_⟩
  · rw [here]
    exact opens.trans (List.prefix_append _ _)
  · rw [here, List.length_append, length]
    exact Nat.le_add_right _ _
  · rw [candidate, length, here, List.take_left]

/-- **A complete frame is given**, and the scan goes on behind it. -/
theorem scan_of_complete {frame rest : Bytes} {packet : Packet} (complete : Complete frame packet)
    (here : s.drop i = frame ++ rest) :
    scan s i = ⟨packet :: (scan s (i + frame.length)).packets,
      (scan s (i + frame.length)).dropped, (scan s (i + frame.length)).rest⟩ := by
  obtain ⟨opens, all, length, same⟩ := candidate_of_frame complete.opens complete.size here
  have sound : sound? (candidate s i) (wordAt s (i + 8)).toNat = some packet :=
    (sound?_candidate opens all).2 (by rwa [same])
  rw [scan_of_candidate opens all, sound, length]

/-- **Any other candidate costs one byte.** -/
theorem scan_of_unsound (here : magic <+: s.drop i) (all : size s i ≤ (s.drop i).length)
    (unsound : ∀ packet, ¬Complete (candidate s i) packet) :
    scan s i = ⟨(scan s (i + 1)).packets, (scan s (i + 1)).dropped + 1, (scan s (i + 1)).rest⟩ := by
  have refused : sound? (candidate s i) (wordAt s (i + 8)).toNat = none :=
    Option.eq_none_iff_forall_ne_some.2 fun packet sound =>
      unsound packet ((sound?_candidate here all).1 sound)
  rw [scan_of_candidate here all, refused]

theorem scan_of_refused {frame rest : Bytes} (opens : magic <+: frame)
    (long : frame.length = 12 + (wordAt frame 8).toNat)
    (refused : ∀ packet, ¬Complete frame packet) (here : s.drop i = frame ++ rest) :
    scan s i = ⟨(scan s (i + 1)).packets, (scan s (i + 1)).dropped + 1, (scan s (i + 1)).rest⟩ := by
  obtain ⟨begins, all, -, same⟩ := candidate_of_frame opens long here
  exact scan_of_unsound begins all (by rwa [same])

/-! ## Stretches without the magic -/

theorem infix_iff_exists_drop {part bs : Bytes} : part <:+: bs ↔ ∃ i, part <+: bs.drop i := by
  rw [List.infix_iff_prefix_suffix]
  constructor
  · rintro ⟨rest, front, behind⟩
    exact ⟨bs.length - rest.length, List.suffix_iff_eq_drop.1 behind ▸ front⟩
  · rintro ⟨i, front⟩
    exact ⟨bs.drop i, front, List.drop_suffix i bs⟩

/-- **A stretch in which no magic begins is passed over**, if four bytes at least are behind it. -/
theorem scan_skip {m : Nat} (room : m + 4 ≤ s.length) (le : i ≤ m)
    (quiet : ∀ k, i ≤ k → k < m → ¬magic <+: s.drop k) : scan s i = scan s m := by
  obtain ⟨n, rfl⟩ := Nat.exists_eq_add_of_le le
  induction n generalizing i with
  | zero => rfl
  | succ n ih =>
    have large : ¬s.drop i <+: magic := by
      intro part
      have := part.length_le
      rw [List.length_drop, show magic.length = 4 from rfl] at this
      omega
    rw [scan_of_away (quiet i (Nat.le_refl i) (by omega)) large, Nat.add_comm n, ← Nat.add_assoc]
    refine ih (by omega) (Nat.le_add_right _ _) fun k after before => ?_
    exact quiet k (by omega) (by omega)

/-- **Without the magic nothing is given**, and three bytes are kept at most. -/
theorem scan_of_noise (quiet : ¬magic <:+: s) (i : Nat) :
    (scan s i).packets = [] ∧ (scan s i).dropped = 0 ∧ (scan s i).rest.length ≤ 3 := by
  induction i using scan.induct s with
  | case1 i rest stop =>
    rw [scan_of_part stop.1 stop.2]
    refine ⟨rfl, rfl, Nat.le_of_lt_succ (Nat.lt_of_le_of_ne stop.1.length_le fun same => ?_)⟩
    exact stop.2 (stop.1.eq_of_length same)
  | case2 i rest stop away ih =>
    rw [scan_of_away away fun part => stop ⟨part, fun same => away (same ▸ List.prefix_refl _)⟩]
    exact ih
  | case3 i rest payload stop here | case4 i rest payload stop here
  | case5 i rest payload stop here =>
    exact absurd (infix_iff_exists_drop.2 ⟨i, Classical.not_not.1 here⟩) quiet

theorem rest_of_noise_eq_nil_iff (quiet : ¬magic <:+: s) (i : Nat) :
    (scan s i).rest = [] ↔ (s.drop i).getLast? ≠ some 0x55 := by
  induction i using scan.induct s with
  | case1 i rest stop =>
    have ends : ∀ n < 4, magic.take n = [] ↔ (magic.take n).getLast? ≠ some 0x55 := by decide
    have short : rest.length < 4 :=
      Nat.lt_of_le_of_ne stop.1.length_le fun same => stop.2 (stop.1.eq_of_length same)
    have front : rest = magic.take rest.length := List.prefix_iff_eq_take.1 stop.1
    rw [scan_of_part stop.1 stop.2]
    show rest = [] ↔ rest.getLast? ≠ some 0x55
    rw [front]
    exact ends _ short
  | case2 i rest stop away ih =>
    have large : ¬rest <+: magic :=
      fun part => stop ⟨part, fun same => away (same ▸ List.prefix_refl _)⟩
    have inside : i < s.length := lt_length_of_drop stop
    have cons : rest = s[i] :: s.drop (i + 1) := List.drop_eq_getElem_cons inside
    rw [scan_of_away away large, ih]
    show _ ↔ rest.getLast? ≠ some 0x55
    rw [cons] at large ⊢
    cases behind : s.drop (i + 1) with
    | nil =>
      -- A last byte that could begin the magic would have been kept.
      rw [behind] at large
      refine iff_of_true (Option.some_ne_none _).symm fun same => large ?_
      have same : s[i] = 0x55 := Option.some.inj same
      rw [same]
      decide
    | cons b more => rw [List.getLast?_cons_cons]
  | case3 i rest payload stop here | case4 i rest payload stop here
  | case5 i rest payload stop here =>
    exact absurd (infix_iff_exists_drop.2 ⟨i, Classical.not_not.1 here⟩) quiet

/-- **Only noise leaves no trace**: where the magic is, something is given, or dropped, or waited
for. -/
theorem scan_noise_iff : (scan s 0).packets = [] ∧ (scan s 0).dropped = 0 ∧
    (scan s 0).rest.length ≤ 3 ↔ ¬magic <:+: s := by
  refine ⟨?_, fun quiet => scan_of_noise quiet 0⟩
  rintro ⟨nothing, kept, short⟩ found
  classical
  -- The scan comes to the first magic, and does one of three things with it.
  have found := infix_iff_exists_drop.1 found
  have here := Nat.find_spec found
  have first (k : Nat) (before : k < Nat.find found) : ¬magic <+: s.drop k :=
    Nat.find_min found before
  generalize Nat.find found = k at here first
  have long : 4 ≤ (s.drop k).length := here.length_le
  have same : scan s 0 = scan s k := by
    rw [List.length_drop] at long
    exact scan_skip (by omega) (Nat.zero_le k) fun j _ before => first j before
  rw [same] at nothing kept short
  by_cases all : size s k ≤ (s.drop k).length
  · by_cases complete : ∃ packet, Complete (candidate s k) packet
    · obtain ⟨packet, complete⟩ := complete
      rw [scan_of_complete complete (List.take_append_drop _ _).symm] at nothing
      cases nothing
    · rw [scan_of_unsound here all (not_exists.1 complete)] at kept
      cases kept
  · rw [scan_of_short here (Nat.lt_of_not_le all)] at short
    exact absurd (Nat.le_trans long short) (by decide)

end ClimateLink.Framer
