import ClimateLink.Proofs.Framer.Drain

/-!
# Cuts of the stream

A network cuts a stream wherever it likes. A framer must not care.

**Theorem (`push_append`).** Whatever a framer holds, two pieces of the stream give the packets of
both joined, and leave the framer that both joined leave: the same bytes in the buffer, the same
header waited for, the same count of dropped frames.

**Theorem (`push_after`).** A framer that came about by pieces and resets gives the same for every
cut of what follows, into any number of pieces, empty ones included.

The proof follows `drain`. As long as it takes frames out of the first piece, it takes the same
ones out of both; where it stops for lack of bytes, the second piece goes on from what was kept.
-/

namespace ClimateLink.Framer

open ClimateLink.Frame

/-! ## Two pieces -/

/-- Draining a longer buffer: first what was complete in it before, then the rest, from where the
framer stopped. -/
theorem drain_append (buffer : Bytes) (awaited : Option Header) (dropped : Nat) (more : Bytes) :
    drain (buffer ++ more) awaited dropped =
      ((drain buffer awaited dropped).1 ++ ((drain buffer awaited dropped).2.push more).1,
        ((drain buffer awaited dropped).2.push more).2) := by
  induction buffer, awaited, dropped using drain.induct with
  | case1 buffer awaited dropped rest none =>
    -- The search goes on where it stopped.
    obtain ⟨rfl, missing⟩ := Option.or_eq_none_iff.1 none
    rw [drain_of_none none]
    show drain (buffer ++ more) _ dropped = drain (seek buffer ++ more) _ dropped
    have same : front Option.none (buffer ++ more) = front Option.none (seek buffer ++ more) :=
      seek_append buffer more
    exact drain_congr same (by rw [same])
  | case2 buffer awaited dropped rest header found complete packet accepted packets framer _ ih =>
    -- A frame that is complete is the first one in the longer buffer, too.
    have longer := or_header?_append found more
    rw [← front_append found] at longer
    obtain ⟨within, same⟩ := take_front_append found complete more
    rw [drain_of_ok found complete accepted, drain_of_ok longer within (same ▸ accepted),
      front_append found, List.drop_append_of_le_length complete, ih]
    rfl
  | case3 buffer awaited dropped rest header found complete reason refused ih =>
    -- A frame that is refused costs one byte in both.
    have longer := or_header?_append found more
    rw [← front_append found] at longer
    obtain ⟨within, same⟩ := take_front_append found complete more
    have one : 1 ≤ rest.length :=
      Nat.le_trans (by decide) (Nat.le_trans header.minSize_le_frameSize complete)
    rw [drain_of_error found complete refused, drain_of_error longer within (same ▸ refused),
      front_append found, List.drop_append_of_le_length one, ih]
  | case4 buffer awaited dropped rest header found short =>
    -- The header that was found is found again, whether `more` completes its frame or not.
    have longer := or_header?_append found more
    rw [drain_of_lt found (Nat.lt_of_not_le short)]
    exact drain_congr (front_append found more) (by rw [front_append found, longer]; rfl)

/-- **Two pieces of the stream are as good as both joined**, whatever the framer holds. -/
theorem push_append (framer : Framer) (x y : Bytes) :
    framer.push (x ++ y) =
      ((framer.push x).1 ++ ((framer.push x).2.push y).1, ((framer.push x).2.push y).2) := by
  rw [push, ← List.append_assoc]
  exact drain_append ..

/-! ## Any number of pieces -/

/-- What the owner of a framer can do with it. -/
inductive Call where
  | push (bytes : Bytes)
  | clear
  deriving DecidableEq, Repr

/-- The framer after a call. -/
def call (framer : Framer) : Call → Framer
  | .push bytes => (framer.push bytes).2
  | .clear => framer.clear

/-- A new framer after any calls. -/
def after (calls : List Call) : Framer := calls.foldl call empty

theorem push_nil_call (framer : Framer) (step : Call) :
    (framer.call step).push [] = ([], framer.call step) := by
  cases step with
  | push bytes =>
    have twice := framer.push_append bytes []
    rw [List.append_nil] at twice
    obtain ⟨packets, last⟩ := Prod.ext_iff.1 twice
    exact Prod.ext (List.append_right_eq_self.1 packets.symm) last.symm
  | clear => exact drain_of_none rfl

theorem push_nil_after (calls : List Call) : (after calls).push [] = ([], after calls) := by
  rcases List.eq_nil_or_concat calls with rfl | ⟨earlier, last, rfl⟩
  · exact drain_of_none rfl
  · rw [after, List.concat_eq_append, List.foldl_append]
    exact push_nil_call ..

theorem pushAll_eq_push_flatten (pieces : List Bytes) {framer : Framer}
    (settled : framer.push [] = ([], framer)) :
    framer.pushAll pieces = framer.push pieces.flatten := by
  induction pieces generalizing framer with
  | nil => exact settled.symm
  | cons piece pieces ih =>
    have next := ih (push_nil_call framer (.push piece))
    rw [List.flatten_cons, push_append]
    show (_ ++ ((framer.call (.push piece)).pushAll pieces).1,
      ((framer.call (.push piece)).pushAll pieces).2) = _
    rw [next]
    rfl

/-- **Framing does not depend on how the stream is cut**: after any calls, two pieces are as good
as both joined, and any number of pieces is as good as all of them joined. What is compared is the
packets, in order, and the framer, with its bytes, the header that it waits for and the count of
dropped frames. -/
theorem push_after (calls : List Call) :
    (∀ x y, (after calls).push (x ++ y) =
      (((after calls).push x).1 ++ (((after calls).push x).2.push y).1,
        (((after calls).push x).2.push y).2)) ∧
    ∀ pieces, (after calls).pushAll pieces = (after calls).push pieces.flatten :=
  ⟨(after calls).push_append, fun pieces => pushAll_eq_push_flatten pieces (push_nil_after calls)⟩

end ClimateLink.Framer
