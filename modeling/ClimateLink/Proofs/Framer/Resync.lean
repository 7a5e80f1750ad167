import ClimateLink.Proofs.Framer.Passage

/-!
# Finding the way back

Corrupt bytes can look like the header of a long frame, and a framer then waits for bytes that
belong to the frames behind. It can be held up by that, but not for long: a frame has at most
65547 bytes.

**Theorem (`pushAll_resync`).** Let a complete frame stand behind any bytes, such that no complete
frame begins in these and reaches beyond them. Once 65546 bytes have come from the first of the
frame on, the frame has been found, however the stream was cut, and the framer is where a new one
is that has got what is behind the frame.

The scan cannot stop before the frame, since every candidate in front of it is all there; it cannot
get beyond the first byte of the frame, since it goes on by one byte or by a complete frame.
-/

namespace ClimateLink.Framer

open ClimateLink.Frame Wire

/-- One scan gives what another gives behind some packets and dropped frames of its own. -/
def Scan.LeadsTo (first later : Scan) : Prop :=
  ∃ packets dropped, first = ⟨packets ++ later.packets, dropped + later.dropped, later.rest⟩

theorem Scan.LeadsTo.refl (scanned : Scan) : scanned.LeadsTo scanned :=
  ⟨[], 0, by rw [List.nil_append, Nat.zero_add]⟩

theorem Scan.LeadsTo.packet {first later : Scan} (h : first.LeadsTo later) (packet : Packet) :
    Scan.LeadsTo ⟨packet :: first.packets, first.dropped, first.rest⟩ later := by
  obtain ⟨packets, dropped, rfl⟩ := h
  exact ⟨packet :: packets, dropped, rfl⟩

theorem Scan.LeadsTo.drop {first later : Scan} (h : first.LeadsTo later) :
    Scan.LeadsTo ⟨first.packets, first.dropped + 1, first.rest⟩ later := by
  obtain ⟨packets, dropped, rfl⟩ := h
  exact ⟨packets, dropped + 1, by rw [Nat.add_right_comm]⟩

theorem size_le (s : Bytes) (i : Nat) : size s i ≤ 65547 := by
  have small := (wordAt s (i + 8)).toNat_lt
  unfold size
  omega

/-- **A scan comes to every offset** that is far enough from the end and that no complete frame in
front of it reaches over. -/
theorem scan_leadsTo {s : Bytes} {m : Nat} (room : m + 65546 ≤ s.length)
    (apart : ∀ i packet, i < m → Complete (candidate s i) packet → i + size s i ≤ m) {i : Nat}
    (le : i ≤ m) : (scan s i).LeadsTo (scan s m) := by
  -- The induction is on the distance: a complete frame takes the scan further than one byte.
  induction gap : m - i using Nat.strong_induction_on generalizing i with
  | h n ih =>
    rcases Nat.eq_or_lt_of_le le with rfl | before
    · exact .refl _
    have long : 65547 ≤ (s.drop i).length := by
      rw [List.length_drop]
      omega
    have all : size s i ≤ (s.drop i).length := Nat.le_trans (size_le s i) long
    have one := ih (m - (i + 1)) (by omega) before rfl
    by_cases here : magic <+: s.drop i
    · by_cases found : ∃ packet, Complete (candidate s i) packet
      · obtain ⟨packet, complete⟩ := found
        have parts : s.drop i = candidate s i ++ (s.drop i).drop (size s i) :=
          (List.take_append_drop _ _).symm
        have large := complete.twelve_le_length
        rw [scan_of_complete complete parts]
        rw [(candidate_declared here all).2.2] at large ⊢
        have behind := ih (m - (i + size s i)) (by omega) (apart i packet before complete) rfl
        exact behind.packet packet
      · rw [scan_of_unsound here all (not_exists.1 found)]
        exact one.drop
    · have large : ¬s.drop i <+: magic := fun part =>
        absurd (Nat.le_trans long part.length_le) (by decide)
      rw [scan_of_away here large]
      exact one

/-- **Corruption never loses a good frame behind it**: a complete frame is found in whatever stream
and however that is cut, if no complete frame in front reaches into it and enough bytes come with
it and behind it. What is behind it is framed as if nothing had been before; only the count of
dropped frames goes on. -/
theorem pushAll_resync {a f b : Bytes} {packet : Packet} (complete : Complete f packet)
    (apart : ∀ x g y other, a ++ f ++ b = x ++ g ++ y → x.length < a.length → Complete g other →
      x.length + g.length ≤ a.length)
    (enough : 65546 ≤ f.length + b.length) {pieces : List Bytes}
    (cut : pieces.flatten = a ++ f ++ b) :
    ∃ before dropped, (empty.pushAll pieces).1 = before ++ packet :: (empty.push b).1 ∧
      (empty.pushAll pieces).2 = ⟨(empty.push b).2.buffer, (empty.push b).2.awaited,
        dropped + (empty.push b).2.dropped⟩ := by
  have room : a.length + 65546 ≤ (a ++ f ++ b).length := by
    rw [List.append_assoc, List.length_append, List.length_append]
    omega
  have front : (scan (a ++ f ++ b) 0).LeadsTo (scan (a ++ f ++ b) a.length) := by
    -- What the scan gives in front is a part of the stream, and so does not reach into the frame.
    refine scan_leadsTo room (fun i other before found => ?_) (Nat.zero_le _)
    have parts : a ++ f ++ b = (a ++ f ++ b).take i ++ candidate (a ++ f ++ b) i ++
        ((a ++ f ++ b).drop i).drop (size (a ++ f ++ b) i) := by
      rw [List.append_assoc _ (candidate _ _), candidate, List.take_append_drop,
        List.take_append_drop]
    have length : ((a ++ f ++ b).take i).length = i := by
      rw [List.length_take]
      omega
    have all : size (a ++ f ++ b) i ≤ ((a ++ f ++ b).drop i).length := by
      have small := size_le (a ++ f ++ b) i
      rw [List.length_drop]
      omega
    have within := apart _ _ _ other parts (by rwa [length]) found
    rwa [length, candidate, List.length_take, Nat.min_eq_left all] at within
  obtain ⟨before, dropped, front⟩ := front
  have here : (a ++ f ++ b).drop a.length = f ++ b := by rw [List.append_assoc, List.drop_left]
  have behind : scan (a ++ f ++ b) (a.length + f.length) = scan b 0 := by
    refine scan_congr ?_
    rw [← List.drop_drop, here, List.drop_left, List.drop_zero]
  refine ⟨before, dropped, ?_⟩
  rw [pushAll_empty, cut, push_empty, front, scan_of_complete complete here, behind, push_empty]
  simp only [Scan.framer, Nat.zero_add, and_self]

/-! ## A false header -/

/-- The header of a frame as long as a frame can be, of a family that is not known. -/
def falseHeader : Bytes := [0x55, 0x55, 0x55, 0xAA, 0x00, 0x00, 0x00, 0x00, 0xFF, 0xFF]

/-- The frame in which a console gives its version. -/
def versionFrame : Bytes :=
  [0x55, 0x55, 0x55, 0xAA, 0xB0, 0x90, 0x01, 0x1F, 0x00, 0x05, 0xFF, 0x30, 0x00, 0x01, 0x31, 0x82,
    0xC1]

theorem getD_of_append_eq {g y front rest : Bytes} (same : g ++ y = front ++ rest) {i : Nat}
    (inside : i < g.length) (known : i < front.length) : g.getD i 0 = front.getD i 0 := by
  have byte := congrArg (·[i]?) same
  simp only [List.getElem?_append_left inside, List.getElem?_append_left known] at byte
  rw [List.getD_eq_getElem?_getD, List.getD_eq_getElem?_getD, byte]

/-- No complete frame begins in the false header, since its family is not known. -/
theorem not_complete_falseHeader {x g y rest : Bytes} {packet : Packet}
    (same : falseHeader ++ versionFrame ++ rest = x ++ g ++ y) (before : x.length < 10) :
    ¬Complete g packet := by
  intro complete
  have large := complete.twelve_le_length
  have here : g ++ y = (falseHeader ++ versionFrame).drop x.length ++ rest := by
    have inside : x.length ≤ (falseHeader ++ versionFrame).length :=
      Nat.le_trans (Nat.le_of_lt before) (by decide)
    rw [← List.drop_append_of_le_length inside, same, List.append_assoc, List.drop_left]
  have byte (i : Nat) (early : i < 12) :
      g.getD i 0 = ((falseHeader ++ versionFrame).drop x.length).getD i 0 := by
    refine getD_of_append_eq here (by omega) ?_
    rw [List.length_drop, show (falseHeader ++ versionFrame).length = 27 from rfl]
    omega
  -- The magic begins at the front of the false header only.
  have first : ∀ k < 10, ((falseHeader ++ versionFrame).drop k).getD 3 0 = 0xAA → k = 0 := by
    decide
  have opens : g.getD 3 0 = 0xAA := by
    obtain ⟨behind, rfl⟩ := complete.opens
    rfl
  have front := first x.length before ((byte 3 (by decide)).symm.trans opens)
  have obeyed : Obeyed (rules g) := (checks_decode g).ok_iff.1 ⟨packet, complete.decoded⟩
  obtain ⟨-, obeyed⟩ := obeyed_cons.1 obeyed
  obtain ⟨-, obeyed⟩ := obeyed_cons.1 obeyed
  obtain ⟨-, obeyed⟩ := obeyed_cons.1 obeyed
  have known : g.getD 7 0 ∈ ([0xC0, 0x1F] : List UInt8) := (obeyed_cons.1 obeyed).1
  rw [byte 7 (by decide), front] at known
  exact absurd known (by decide)

theorem pushAll_resync_falseHeader :
    Complete versionFrame ⟨0xB090, 1, .version false "1"⟩ ∧
    ∃ before dropped,
      (empty.pushAll [falseHeader, versionFrame, List.replicate 65529 0]).1 =
        before ++ ⟨0xB090, 1, .version false "1"⟩ :: (empty.push (List.replicate 65529 0)).1 ∧
      (empty.pushAll [falseHeader, versionFrame, List.replicate 65529 0]).2 =
        ⟨(empty.push (List.replicate 65529 0)).2.buffer,
          (empty.push (List.replicate 65529 0)).2.awaited,
          dropped + (empty.push (List.replicate 65529 0)).2.dropped⟩ := by
  have complete : Complete versionFrame ⟨0xB090, 1, .version false "1"⟩ :=
    ⟨by decide, by decide, by decide +kernel, by rfl⟩
  refine ⟨complete, pushAll_resync (a := falseHeader) complete ?_ ?_ ?_⟩
  · intro x g y other same before found
    exact absurd found (not_complete_falseHeader same before)
  · rw [List.length_replicate]
    decide
  · rw [List.flatten_cons, List.flatten_cons, List.flatten_cons, List.flatten_nil, List.append_nil,
      List.append_assoc]

end ClimateLink.Framer
