import ClimateLink.Proofs.Frame.Register
import ClimateLink.Proofs.Framer.Passage

/-!
# Corrupted frames

A line that disturbs one byte or two next to each other cannot produce a frame. The checksum shows
it, wherever in the frame they are and however long the frame is. The length is left out, since
another length makes another frame of the stream, and so is the trailer itself.

**Theorem (`push_altered`).** A frame that is altered in up to two bytes next to each other fails
its checksum. A framer with such a frame in front counts it as dropped, and goes on as if its first
byte had not been there.
-/

namespace ClimateLink

open Wire

namespace Frame

/-! ## Altered frames -/

/-- The bytes at some offsets differ from those of a frame: one of them or two next to each other,
in the address, the id and the family or in the payload. -/
structure Altered (frame altered : Bytes) : Prop where
  length : altered.length = frame.length
  changed : altered ≠ frame
  near : ∃ i, ∀ j, altered[j]? ≠ frame[j]? → j = i ∨ j = i + 1
  covered : ∀ j, altered[j]? ≠ frame[j]? →
    4 ≤ j ∧ j < 8 ∨ 10 ≤ j ∧ j + 2 < frame.length

namespace Altered

variable {frame altered : Bytes}

theorem same_at (h : Altered frame altered) {j : Nat}
    (away : ¬(4 ≤ j ∧ j < 8 ∨ 10 ≤ j ∧ j + 2 < frame.length)) : altered[j]? = frame[j]? := by
  by_contra differ
  exact away (h.covered j differ)

theorem wordAt_eq (h : Altered frame altered) {j : Nat}
    (away : ∀ k, j ≤ k → k ≤ j + 1 → ¬(4 ≤ k ∧ k < 8 ∨ 10 ≤ k ∧ k + 2 < frame.length)) :
    wordAt altered j = wordAt frame j := by
  simp only [wordAt, List.getD_eq_getElem?_getD, h.same_at (away j (by omega) (by omega)),
    h.same_at (away (j + 1) (by omega) (by omega))]

theorem declared (h : Altered frame altered) : wordAt altered 8 = wordAt frame 8 :=
  h.wordAt_eq (by omega)

theorem trailer (h : Altered frame altered) (large : 12 ≤ frame.length) :
    wordAt altered (frame.length - 2) = wordAt frame (frame.length - 2) :=
  h.wordAt_eq (by omega)

theorem opens (h : Altered frame altered) (opens : magic <+: frame) : magic <+: altered := by
  have front : altered.take 4 = frame.take 4 :=
    take_eq_take fun j inside => h.same_at (by omega)
  rw [List.prefix_iff_eq_take] at opens ⊢
  exact opens.trans front.symm

/-- **What the checksum has to cover has another checksum.** -/
theorem checksum_ne (h : Altered frame altered) (large : 12 ≤ frame.length) :
    checksum ((altered.take (frame.length - 2)).drop 4) ≠
      checksum ((frame.take (frame.length - 2)).drop 4) := by
  intro same
  have covered (bs : Bytes) (j : Nat) : ((bs.take (frame.length - 2)).drop 4)[j]? =
      if 4 + j < frame.length - 2 then bs[4 + j]? else none := by
    rw [List.getElem?_drop, List.getElem?_take]
  obtain ⟨i, near⟩ := h.near
  have equal : (altered.take (frame.length - 2)).drop 4 =
      (frame.take (frame.length - 2)).drop 4 := by
    refine eq_of_digest_eq (i := i - 4) ?_ (fun j differ => ?_) same
    · rw [List.length_drop, List.length_drop, List.length_take, List.length_take, h.length]
    · rw [covered, covered] at differ
      by_cases inside : 4 + j < frame.length - 2
      · rw [if_pos inside, if_pos inside] at differ
        have place := near (4 + j) differ
        omega
      · rw [if_neg inside, if_neg inside] at differ
        exact absurd rfl differ
  -- Outside of what the checksum covers the two are the same anyway.
  refine h.changed (List.ext_getElem? fun j => ?_)
  by_cases inside : 4 ≤ j ∧ j < frame.length - 2
  · have byte := congrArg (·[j - 4]?) equal
    simp only [covered, Nat.add_sub_cancel' inside.1, if_pos inside.2] at byte
    exact byte
  · exact h.same_at (by omega)

/-- **An altered frame fails its checksum**: another one is expected than the trailer. -/
theorem verify_eq (h : Altered frame altered) (large : 12 ≤ frame.length)
    (valid : verify frame = .ok ()) :
    wordAt altered (altered.length - 2) ≠
        checksum ((altered.take (altered.length - 2)).drop 4) ∧
      verify altered = .error (.checksum (checksum ((altered.take (altered.length - 2)).drop 4))
        (wordAt frame (frame.length - 2))) := by
  have size : frame.length = frame.length - 2 + checksumSize := by
    rw [checksumSize]
    omega
  have right := (verify_eq_ok_iff size).1 valid
  have wrong : wordAt altered (frame.length - 2) ≠
      checksum ((altered.take (frame.length - 2)).drop magic.length) := by
    rw [h.trailer large, right]
    exact (h.checksum_ne large).symm
  rw [h.length]
  refine ⟨wrong, ?_⟩
  rw [Frame.verify_eq (h.length.trans size), if_neg wrong, h.trailer large]
  rfl

end Altered

end Frame

namespace Framer

open ClimateLink.Frame

/-! ## Framers as scans -/

theorem drain_header? (buffer more : Bytes) (dropped : Nat) :
    drain (buffer ++ more) (header? buffer) dropped = drain (buffer ++ more) none dropped := by
  cases found : header? buffer with
  | none => rfl
  | some header =>
    obtain ⟨-, decoded⟩ := header?_eq_some_iff.1 found
    have opens : magic <+: buffer ++ more :=
      (Header.decode_eq_ok_iff.1 decoded).2.1.trans (List.prefix_append _ _)
    have kept : front none (buffer ++ more) = buffer ++ more := seek_of_atMagic (.inl opens)
    have looked : none.or (header? buffer) = some header := found
    refine drain_congr kept.symm ?_
    rw [kept, or_header?_append looked more]
    rfl

/-- What a framer does that waits for the header in front of its buffer, and for none else. -/
theorem push_of_awaited {framer : Framer} (looked : framer.awaited = header? framer.buffer)
    (bytes : Bytes) : framer.push bytes = ((scan (framer.buffer ++ bytes) 0).packets,
      (scan (framer.buffer ++ bytes) 0).framer framer.dropped) := by
  rw [push, looked, drain_header?, ← drain_drop_eq_scan, List.drop_zero]

/-- Whatever was done with a framer, it waits for the header in front of its buffer. -/
theorem awaited_after (calls : List Call) :
    (after calls).awaited = header? (after calls).buffer := by
  induction calls using List.reverseRecOn with
  | nil => rfl
  | append_singleton earlier last ih =>
    rw [after, List.foldl_append]
    cases last with
    | push bytes =>
      have pushed := congrArg Prod.snd (push_of_awaited ih bytes)
      show ((after earlier).push bytes).2.awaited = header? ((after earlier).push bytes).2.buffer
      rw [pushed]
      rfl
    | clear => rfl

/-- **A corrupted frame is dropped.** The frame is as long as it declares and has the right trailer,
and is altered in up to two bytes next to each other. The framer may have come about by any pieces
and resets, and may hold a part of the altered frame or all of it. It gives no packet for that: it
counts a dropped frame and does what a framer does that never had the first byte. -/
theorem push_altered {frame altered : Bytes} (opens : magic <+: frame)
    (size : frame.length = 12 + (wordAt frame 8).toNat) (valid : verify frame = .ok ())
    (h : Altered frame altered) :
    (∃ expected, expected ≠ wordAt frame (frame.length - 2) ∧
      verify altered = .error (.checksum expected (wordAt frame (frame.length - 2)))) ∧
    ∀ calls bytes rest, (after calls).buffer ++ bytes = altered ++ rest →
      (after calls).push bytes =
        push ⟨[], none, (after calls).dropped + 1⟩ ((altered ++ rest).drop 1) := by
  have large : 12 ≤ frame.length := by omega
  obtain ⟨wrong, fails⟩ := h.verify_eq large valid
  refine ⟨⟨_, fun same => wrong ?_, fails⟩, fun calls bytes rest here => ?_⟩
  · rw [same, h.length, h.trailer large]
  · have long : altered.length = 12 + (wordAt altered 8).toNat := by
      rw [h.length, h.declared, size]
    -- The whole frame is there as far as it declares, so it is refused and not waited for.
    have passed := scan_of_refused (h.opens opens) long
      (fun packet complete => wrong complete.trailer) (List.drop_zero (l := altered ++ rest))
    show _ = drain ((altered ++ rest).drop 1) none ((after calls).dropped + 1)
    rw [push_of_awaited (awaited_after calls), here, passed, drain_drop_eq_scan]
    simp only [Scan.framer, Nat.zero_add, Nat.add_assoc, Nat.add_comm 1]

/-- The frame in which a console gives an error of a unit. -/
def errorFrame : Bytes :=
  [0x55, 0x55, 0x55, 0xAA, 0xB0, 0x90, 0x07, 0x1F, 0x00, 0x06, 0xFF, 0x10, 0x00, 0x02, 0x45, 0x31,
    0x9C, 0x07]

/-- The frame with another id and another family. -/
def disturbedFrame : Bytes :=
  [0x55, 0x55, 0x55, 0xAA, 0xB0, 0x90, 0x06, 0xC0, 0x00, 0x06, 0xFF, 0x10, 0x00, 0x02, 0x45, 0x31,
    0x9C, 0x07]

theorem altered_disturbedFrame : Altered errorFrame disturbedFrame := by
  have places : ∀ j, disturbedFrame[j]? ≠ errorFrame[j]? → j = 6 ∨ j = 7 := by
    intro j differ
    have within : ∀ j < 18, disturbedFrame[j]? ≠ errorFrame[j]? → j = 6 ∨ j = 7 := by decide
    refine within j ?_ differ
    by_contra beyond
    exact differ ((List.getElem?_eq_none (Nat.not_lt.1 beyond)).trans
      (List.getElem?_eq_none (Nat.not_lt.1 beyond)).symm)
  refine ⟨rfl, by decide, ⟨6, places⟩, fun j differ => ?_⟩
  rcases places j differ with rfl | rfl
  · exact .inl (by decide)
  · exact .inl (by decide)

/-- A disturbed frame that comes in two pieces, and the frame itself behind it. -/
theorem push_altered_disturbed :
    magic <+: errorFrame ∧ errorFrame.length = 12 + (wordAt errorFrame 8).toNat ∧
    verify errorFrame = .ok () ∧ Altered errorFrame disturbedFrame ∧
    (∃ expected, expected ≠ 0x9C07 ∧ verify disturbedFrame = .error (.checksum expected 0x9C07)) ∧
    (after [.push (disturbedFrame.take 13)]).push (disturbedFrame.drop 13 ++ errorFrame) =
      push ⟨[], none, 1⟩ (disturbedFrame.drop 1 ++ errorFrame) ∧
    push ⟨[], none, 1⟩ (disturbedFrame.drop 1 ++ errorFrame) =
      ([⟨0xB090, 7, .acError 0 "E1"⟩], ⟨[], none, 1⟩) := by
  have opens : magic <+: errorFrame := by decide
  have size : errorFrame.length = 12 + (wordAt errorFrame 8).toNat := by rfl
  have valid : verify errorFrame = .ok () := by decide +kernel
  obtain ⟨fails, dropped⟩ := push_altered opens size valid altered_disturbedFrame
  have buffered : after [.push (disturbedFrame.take 13)] =
      ⟨disturbedFrame.take 13, some ⟨0xB090, 6, 0xC0, 6⟩, 0⟩ := by
    decide +kernel
  refine ⟨opens, size, valid, altered_disturbedFrame, fails, ?_, ?_⟩
  · rw [dropped _ _ errorFrame (by rw [buffered]; rfl), buffered]
    rfl
  · decide +kernel

end Framer

end ClimateLink
