import ClimateLink.Proofs.Framer.Cuts
import ClimateLink.Proofs.Framer.Scan

/-!
# What a framer keeps

Between its calls a framer has looked at everything that it holds, and it holds no more than the
part of one frame. A console that sends what it likes can neither fill its memory nor leave it
waiting for a frame that is not the one in front.

**Theorem (`after_rests`).** After any pushes and resets a framer is at rest: it looks for the magic
with less than a frame could have, or it waits for the rest of the frame whose header it holds in
front. So it holds 65546 bytes at most, there is no complete frame in front of them, the count of
dropped frames never goes down, and a reset leaves nothing behind that later calls could show.

The proof goes through one look after another. A look that stops leaves a framer at rest, provided
that the header waited for is the one in front; and that is so again when more bytes follow. The
count of dropped frames is carried along by every look and read by none (`drain_add`); a dropped
frame takes a byte with it, so that the count is bounded by what came in (`dropped_after_le`).
-/

namespace ClimateLink.Framer

open ClimateLink.Frame Wire

/-! ## Rest -/

/-- Nothing is left to do for a framer without more bytes. -/
inductive Rests : Framer → Prop where
  /-- It looks for the magic, and has too little for a frame. -/
  | searching {buffer : Bytes} {dropped : Nat} (front : AtMagic buffer)
    (short : buffer.length < 12) : Rests ⟨buffer, none, dropped⟩
  /-- It waits for the rest of the frame in front, whose header it has read. -/
  | waiting {buffer : Bytes} {header : Header} {dropped : Nat} (opens : magic <+: buffer)
    (large : 12 ≤ buffer.length) (read : header = Header.of buffer)
    (short : buffer.length < header.frameSize) : Rests ⟨buffer, some header, dropped⟩

theorem frameSize_of (bs : Bytes) : (Header.of bs).frameSize = 12 + (wordAt bs 8).toNat := rfl

theorem Rests.header? {framer : Framer} (h : framer.Rests) {header : Header}
    (awaited : framer.awaited = some header) : header? framer.buffer = some header := by
  cases h with
  | searching => cases awaited
  | waiting opens large read short =>
    cases awaited
    rw [header?_of_magic opens, if_neg (Nat.not_lt.2 large), read]

theorem Rests.length_le {framer : Framer} (h : framer.Rests) : framer.buffer.length ≤ 65546 := by
  cases h with
  | searching front short => exact Nat.le_of_lt (Nat.lt_of_lt_of_le short (by decide))
  | @waiting buffer _ _ opens large read short =>
    have declared := (wordAt buffer 8).toNat_lt
    rw [read, frameSize_of] at short
    show buffer.length ≤ 65546
    omega

/-- The frame in front of a framer at rest is not complete. -/
theorem Rests.incomplete {framer : Framer} (h : framer.Rests) (opens : magic <+: framer.buffer)
    (large : 12 ≤ framer.buffer.length) :
    framer.buffer.length < 12 + (wordAt framer.buffer 8).toNat := by
  cases h with
  | searching front short => exact absurd large (Nat.not_le.2 short)
  | waiting opens large read short => rwa [read, frameSize_of] at short

/-! ## One look after another -/

theorem rests_of_no_header {buffer : Bytes} (none : header? (seek buffer) = none) (dropped : Nat) :
    Rests ⟨seek buffer, .none, dropped⟩ := by
  refine .searching (atMagic_seek buffer) (Nat.lt_of_not_le fun large => ?_)
  have opens : magic <+: seek buffer := by
    refine (atMagic_seek buffer).resolve_right fun part => ?_
    exact absurd (Nat.le_trans large part.length_le) (by decide)
  rw [header?_of_magic opens, if_neg (Nat.not_lt.2 large)] at none
  cases none

/-- **Draining leaves a framer at rest**, if the header that is waited for is the one in front. -/
theorem rests_drain (buffer : Bytes) (awaited : Option Header) (dropped : Nat)
    (known : ∀ header, awaited = some header → header? buffer = some header) :
    (drain buffer awaited dropped).2.Rests := by
  induction buffer, awaited, dropped using drain.induct with
  | case1 buffer awaited dropped rest none =>
    obtain ⟨rfl, missing⟩ := Option.or_eq_none_iff.1 none
    rw [drain_of_none none]
    exact rests_of_no_header missing dropped
  | case2 buffer awaited dropped rest header found complete packet accepted packets framer _ ih =>
    rw [drain_of_ok found complete accepted]
    exact ih (by rintro _ ⟨⟩)
  | case3 buffer awaited dropped rest header found complete reason refused ih =>
    rw [drain_of_error found complete refused]
    exact ih (by rintro _ ⟨⟩)
  | case4 buffer awaited dropped rest header found incomplete =>
    -- The header is in front of what is left, whether it was known before or not.
    have front : header? rest = some header := by
      cases awaited with
      | none => exact found
      | some other => cases found; exact known header rfl
    obtain ⟨large, decoded⟩ := header?_eq_some_iff.1 front
    obtain ⟨-, opens, read⟩ := Header.decode_eq_ok_iff.1 decoded
    rw [drain_of_lt found (Nat.lt_of_not_le incomplete)]
    exact .waiting opens large read (Nat.lt_of_not_le incomplete)

theorem Rests.call {framer : Framer} (h : framer.Rests) (step : Call) :
    (framer.call step).Rests := by
  cases step with
  | push bytes =>
    refine rests_drain _ _ _ fun header awaited => ?_
    have looked : none.or (Framer.header? framer.buffer) = some header := h.header? awaited
    exact or_header?_append looked bytes
  | clear => exact .searching (.inr List.nil_prefix) (by decide)

theorem rests_after (calls : List Call) : (after calls).Rests := by
  suffices run : ∀ {framer : Framer}, framer.Rests → (calls.foldl call framer).Rests from
    run (.searching (.inr List.nil_prefix) (by decide))
  induction calls with
  | nil => exact id
  | cons step calls ih => exact fun h => ih (h.call step)

/-! ## The count of dropped frames -/

/-- What a framer has dropped before is added to what it drops, and changes nothing else. -/
theorem drain_add (buffer : Bytes) (awaited : Option Header) (before dropped : Nat) :
    drain buffer awaited (before + dropped) =
      ((drain buffer awaited dropped).1, { (drain buffer awaited dropped).2 with
        dropped := before + (drain buffer awaited dropped).2.dropped }) := by
  induction buffer, awaited, dropped using drain.induct with
  | case1 buffer awaited dropped rest none => rw [drain_of_none none, drain_of_none none]
  | case2 buffer awaited dropped rest header found complete packet accepted packets framer _ ih =>
    rw [drain_of_ok found complete accepted, drain_of_ok found complete accepted, ih]
  | case3 buffer awaited dropped rest header found complete reason refused ih =>
    rw [drain_of_error found complete refused, drain_of_error found complete refused,
      Nat.add_assoc, ih]
  | case4 buffer awaited dropped rest header found incomplete =>
    have short := Nat.lt_of_not_le incomplete
    rw [drain_of_lt found short, drain_of_lt found short]

theorem dropped_le_call (framer : Framer) (step : Call) :
    framer.dropped ≤ (framer.call step).dropped := by
  cases step with
  | push bytes =>
    have counted := drain_add (framer.buffer ++ bytes) framer.awaited framer.dropped 0
    show framer.dropped ≤ (drain _ _ framer.dropped).2.dropped
    rw [← Nat.add_zero framer.dropped, counted]
    exact Nat.le_add_right _ _
  | clear => exact Nat.le_refl _

theorem dropped_le_foldl_call (framer : Framer) (calls : List Call) :
    framer.dropped ≤ (calls.foldl call framer).dropped := by
  induction calls generalizing framer with
  | nil => exact Nat.le_refl _
  | cons step calls ih => exact Nat.le_trans (dropped_le_call framer step) (ih _)

theorem frameSize_pos (header : Header) : 0 < header.frameSize :=
  Nat.lt_of_lt_of_le (by decide) header.minSize_le_frameSize

/-- Every frame that is dropped takes a byte with it. -/
theorem dropped_drain_le (buffer : Bytes) (awaited : Option Header) (dropped : Nat) :
    (drain buffer awaited dropped).2.dropped + (drain buffer awaited dropped).2.buffer.length ≤
      dropped + buffer.length := by
  induction buffer, awaited, dropped using drain.induct with
  | case1 buffer awaited dropped rest none =>
    rw [drain_of_none none]
    exact Nat.add_le_add_left (length_front_le awaited buffer) dropped
  | case2 buffer awaited dropped rest header found complete packet accepted packets framer _ ih =>
    rw [drain_of_ok found complete accepted]
    have less : rest.length ≤ buffer.length := length_front_le awaited buffer
    rw [List.length_drop] at ih
    exact Nat.le_trans ih (by omega)
  | case3 buffer awaited dropped rest header found complete reason refused ih =>
    rw [drain_of_error found complete refused]
    have less : rest.length ≤ buffer.length := length_front_le awaited buffer
    -- A candidate has a byte, and the search goes on behind it.
    have some_byte := Nat.lt_of_lt_of_le (frameSize_pos header) complete
    rw [List.length_drop] at ih
    exact Nat.le_trans ih (by omega)
  | case4 buffer awaited dropped rest header found incomplete =>
    rw [drain_of_lt found (Nat.lt_of_not_le incomplete)]
    exact Nat.add_le_add_left (length_front_le awaited buffer) dropped

/-- The bytes that a call brings. -/
def received : Call → Bytes
  | .push bytes => bytes
  | .clear => []

theorem dropped_foldl_call_le (framer : Framer) (calls : List Call) :
    (calls.foldl call framer).dropped ≤
      framer.dropped + framer.buffer.length + (calls.flatMap received).length := by
  induction calls generalizing framer with
  | nil => exact Nat.le_trans (Nat.le_add_right _ _) (Nat.le_add_right _ _)
  | cons step calls ih =>
    have one : (framer.call step).dropped + (framer.call step).buffer.length ≤
        framer.dropped + framer.buffer.length + (received step).length := by
      cases step with
      | push bytes =>
        have pushed := dropped_drain_le (framer.buffer ++ bytes) framer.awaited framer.dropped
        rw [List.length_append, ← Nat.add_assoc] at pushed
        exact pushed
      | clear => exact Nat.le_trans (Nat.le_add_right _ _) (Nat.le_add_right _ _)
    rw [List.flatMap_cons, List.length_append, ← Nat.add_assoc]
    exact Nat.le_trans (ih (framer.call step)) (Nat.add_le_add_right one _)

theorem dropped_after_le (calls : List Call) :
    (after calls).dropped ≤ (calls.flatMap received).length := by
  have counted := dropped_foldl_call_le empty calls
  rwa [show empty.dropped + empty.buffer.length = 0 from rfl, Nat.zero_add] at counted

/-! ## What calls give -/

/-- The packets that a call gives. -/
def reply (framer : Framer) : Call → List Packet
  | .push bytes => (framer.push bytes).1
  | .clear => []

/-- The packets that each of several calls gives. -/
def replies (framer : Framer) : List Call → List (List Packet)
  | [] => []
  | step :: calls => framer.reply step :: (framer.call step).replies calls

/-- Only the bytes and the header waited for count for what a framer gives. -/
theorem replies_congr {framer other : Framer} (buffer : framer.buffer = other.buffer)
    (awaited : framer.awaited = other.awaited) (calls : List Call) :
    framer.replies calls = other.replies calls := by
  induction calls generalizing framer other with
  | nil => rfl
  | cons step calls ih =>
    cases step with
    | push bytes =>
      -- The counts differ, so both sides are drained from the same count.
      have first := drain_add (framer.buffer ++ bytes) framer.awaited framer.dropped 0
      have second := drain_add (other.buffer ++ bytes) other.awaited other.dropped 0
      rw [Nat.add_zero, buffer, awaited] at first
      rw [Nat.add_zero] at second
      have same : (framer.push bytes).1 = (other.push bytes).1 := by
        rw [push, push, second, buffer, awaited, first]
      have next : (framer.call (.push bytes)).replies calls =
          (other.call (.push bytes)).replies calls := by
        refine ih ?_ ?_
        all_goals
          rw [call, call, push, push, second, buffer, awaited, first]
      rw [replies, replies, reply, reply, same, next]
    | clear => exact congrArg ([] :: ·) (ih rfl rfl)

/-- **What a framer keeps between calls.** It is at rest, and waits for as many bytes as the length
in front says; so it keeps 65546 bytes at most, and the frame in front of them is not complete:
without more bytes nothing is given and nothing changes. The count of dropped frames never goes
down, and after a reset every later call gives what it gives on a new framer. -/
theorem after_rests (calls : List Call) :
    (after calls).Rests ∧
    (∀ header, (after calls).awaited = some header →
      header.frameSize = 12 + (wordAt (after calls).buffer 8).toNat) ∧
    (after calls).buffer.length ≤ 65546 ∧
    ((magic <+: (after calls).buffer → 12 ≤ (after calls).buffer.length →
        (after calls).buffer.length < 12 + (wordAt (after calls).buffer 8).toNat) ∧
      (after calls).push [] = ([], after calls)) ∧
    (∀ later, (after calls).dropped ≤ (after (calls ++ later)).dropped) ∧
    ∀ later, (after (calls ++ [.clear])).replies later = empty.replies later := by
  have rests := rests_after calls
  refine ⟨rests, fun header awaited => ?_, rests.length_le,
    ⟨rests.incomplete, push_nil_after calls⟩, fun later => ?_, fun later => ?_⟩
  · obtain ⟨-, decoded⟩ := header?_eq_some_iff.1 (rests.header? awaited)
    rw [(Header.decode_eq_ok_iff.1 decoded).2.2, frameSize_of]
  · rw [after, after, List.foldl_append]
    exact dropped_le_foldl_call _ later
  · refine replies_congr ?_ ?_ later
    all_goals
      rw [after, List.foldl_append]
      rfl

end ClimateLink.Framer
