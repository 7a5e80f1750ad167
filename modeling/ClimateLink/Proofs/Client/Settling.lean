import ClimateLink.Proofs.Client.Connections
import ClimateLink.Proofs.Client.Ledger

/-!
# No call is forgotten

A call that hands in a frame ends when the frame is sent or its writer ends, and a call that waits
for the client to stop ends with that. In between, neither gets lost.

**Theorem (`Reachable.settled`).** A call whose frame was accepted has its outcome as soon as its
frame is no longer pending. By every step a frame that is pending goes on to be so, or it is known
what became of its call (`pending_of_happens`).

**Theorem (`Reachable.accepted_of_failed`).** A call that fails has had its frame accepted. So
nothing but a call that sends can return a failure.
-/

namespace ClimateLink.Client

/-- The frames that a client is not done with. -/
def pending (c : Client) : List Job := (c.outbox.map Outbox.pending).getD []

/-- A writer that has failed has no frames left. -/
def Spent (c : Client) : Prop :=
  ∀ box, c.outbox = some box → box.failure ≠ none → box.pending = []

/-- The call of a frame that was accepted has an outcome, unless the frame is pending. -/
def Settled (c : Client) : Prop :=
  ∀ k t f, (t, f) ∈ c.journal.accepted k → ⟨.call t, f⟩ ∈ c.pending ∨ ∃ o, (t, o) ∈ c.outcomes

variable {policy : Policy} {c d : Client}

/-! ## What becomes of frames -/

/-- Whoever handed in a frame that is pending is told when the writer ends. -/
theorem told_of_senders {box : Outbox} {outcomes : List (Sender × Outcome)}
    (everyone : (outcomes.map Prod.fst).Perm (box.pending.map Job.sender)) {t : Nat} {f : Bytes}
    (mem : ⟨.call t, f⟩ ∈ box.pending) : ∃ o, (.call t, o) ∈ outcomes := by
  have sender : .call t ∈ outcomes.map Prod.fst :=
    everyone.mem_iff.2 (List.mem_map.2 ⟨_, mem, rfl⟩)
  obtain ⟨⟨s, o⟩, listed, rfl⟩ := List.mem_map.1 sender
  exact ⟨o, listed⟩

theorem pending_of_outbox {box : Outbox} (outbox : c.outbox = some box) :
    c.pending = box.pending := by
  rw [pending, outbox]
  rfl

theorem Spent.nothing (spent : Spent c) (finished : ¬c.writing) : c.pending = [] := by
  cases outbox : c.outbox with
  | none =>
    rw [pending, outbox]
    rfl
  | some box =>
    rw [pending_of_outbox outbox]
    refine spent box outbox fun working => finished ?_
    rw [writing, outbox, Option.any_some, working]
    rfl

theorem pending_submit (c : Client) (packet : Packet) : c.pending ⊆ (c.submit packet).pending := by
  rcases c.submit_cases packet with
    ⟨failure, refused⟩ | ⟨frame, k, box, after, -, -, outbox, queued, accepted⟩
  · rw [refused]
    exact List.Subset.refl _
  · rw [accepted, pending_of_outbox outbox]
    show box.pending ⊆ after.pending
    rw [Outbox.pending_submit queued]
    exact List.subset_append_left _ _

/-! ## Every step -/

/-- A writer that has failed has no frames left, whatever happens. -/
theorem spent_of_handles {a : Action} (spent : Spent c) (h : Handles c a d) : Spent d := by
  -- A frame that is taken, written or done with shows that the writer is at work.
  have working {box : Outbox} (outbox : c.outbox = some box) {job : Job} {rest : Bytes}
      (inHand : box.inHand = some (job, rest)) : box.failure = none := by
    by_contra failed
    have nothing := spent box outbox failed
    rw [Outbox.pending_eq_cons inHand] at nothing
    cases nothing
  cases h with
  | nothing frames =>
    intro box outbox failed
    rcases frames.outbox with gone | same
    · cases gone.symm.trans outbox
    · exact spent box (same ▸ outbox) failed
  | opens =>
    obtain ⟨frame, -, opened⟩ := c.begin_eq
    rw [opened]
    intro box outbox failed
    cases outbox
    exact absurd rfl failed
  | joins =>
    rw [disconnect_eq]
    exact spent
  | @moves m box after outbox moved =>
    have same : after.pending.Perm box.pending ∧ after.failure = box.failure := by
      rcases moved with taken | ⟨i, -, advanced⟩
      · refine ⟨.of_eq (Outbox.pending_take taken), ?_⟩
        obtain ⟨-, -, job, rest, -, rfl⟩ := Outbox.take_eq_some taken
        rfl
      · refine ⟨Outbox.pending_advance advanced, ?_⟩
        obtain ⟨job, before, behind, -, -, -, rfl⟩ := Outbox.advance_eq_some advanced
        rfl
    intro next hnext failed
    cases hnext
    have nothing := spent box outbox (same.2 ▸ failed)
    exact List.perm_nil.1 (nothing ▸ same.1)
  | @writes n box after bytes outbox written =>
    obtain ⟨job, rest, inHand, -, -, -, rfl⟩ := Outbox.write_eq_some written
    intro next hnext failed
    cases hnext
    exact absurd (working outbox inHand) failed
  | @finishes box after sender outbox done =>
    obtain ⟨job, inHand, -, rfl⟩ := Outbox.flush_eq_some done
    intro next hnext failed
    rw [outbox_deliver] at hnext
    cases hnext
    exact absurd (working outbox inHand) failed
  | @fails reason box after outcomes outbox failed =>
    obtain ⟨job, rest, -, -, rfl⟩ := Outbox.fail_eq_some failed
    intro next hnext _
    rw [outbox_deliver] at hnext
    cases hnext
    rfl
  | halts =>
    intro next hnext
    rw [outbox_deliver] at hnext
    cases hnext
  | @accepts b r packet k frame box after frames same sends encoded live outbox queued =>
    have same : after.failure = none := by
      obtain ⟨free, ⟨-, rfl⟩ | rfl⟩ := Outbox.submit_eq_some queued <;> exact free
    intro next hnext failed
    cases hnext
    exact absurd same failed

/-- **No step forgets a call**: if its frame is pending, it goes on to be, or it is known what
became of it. -/
theorem pending_of_happens {a : Action} (wired : Wired c) (spent : Spent c) (h : Happens c a d)
    {t : Nat} {f : Bytes} (mem : ⟨.call t, f⟩ ∈ c.pending) :
    ⟨.call t, f⟩ ∈ d.pending ∨ ∃ o, (t, o) ∈ d.decided := by
  have told (box : Option Outbox) {outcomes : List (Sender × Outcome)}
      (everyone : ∃ o, (.call t, o) ∈ outcomes) :
      ∃ o, (t, o) ∈ ({ c with outbox := box }.deliver outcomes).decided := by
    obtain ⟨o, listed⟩ := everyone
    rw [deliver_eq]
    exact ⟨o, List.mem_append_right _ (mem_callOutcomes.2 listed)⟩
  cases h with
  | start | heedAlone | heed | expireSession | expirePause | learn | learnFailure | desert | collect
  | hearNothing | ended | readFailed | build | release | elapse => exact .inl mem
  | expireDial | refused =>
    rw [lose_eq]
    exact .inl mem
  | halt stage writing =>
    obtain ⟨box, outbox, -⟩ := (Option.any_eq_true _ _).1 writing
    rw [pending_of_outbox outbox] at mem
    rw [halt, outbox]
    exact .inr (told _ (told_of_senders Outbox.senders_abandon mem))
  | close stage finished =>
    rw [spent.nothing finished] at mem
    cases mem
  | take outbox taken =>
    rw [pending_of_outbox outbox, ← Outbox.pending_take taken] at mem
    exact .inl mem
  | advance outbox advanced =>
    rw [pending_of_outbox outbox] at mem
    exact .inl ((Outbox.pending_advance advanced).mem_iff.2 mem)
  | connected stage =>
    rw [pending, (wired.unwired (congrArg Stage.connection? stage)).outbox] at mem
    cases mem
  | hearVersion =>
    rw [postAll_eq, reply_eq]
    exact .inl mem
  | hear =>
    rw [postAll_eq]
    exact .inl mem
  | wrote outbox written =>
    rw [pending_of_outbox outbox, ← Outbox.pending_write written] at mem
    exact .inl mem
  | @flushed box after sender outbox done =>
    obtain ⟨job, inHand, rfl, rfl⟩ := Outbox.flush_eq_some done
    rw [pending_of_outbox outbox, Outbox.pending_eq_cons inHand] at mem
    rcases List.mem_cons.1 mem with rfl | behind
    · exact .inr (told _ ⟨_, List.mem_singleton_self _⟩)
    · refine .inl ?_
      rw [deliver_eq]
      exact behind
  | writeFailed outbox failed =>
    rw [pending_of_outbox outbox] at mem
    exact .inr (told _ (told_of_senders (Outbox.senders_fail failed) mem))
  | send payload => exact .inl (pending_submit (c.build payload).2 _ mem)
  | sendPacket packet => exact .inl (pending_submit c packet mem)
  | disconnect =>
    rw [disconnect_eq]
    exact .inl mem

theorem pending_of_accepted {a : Action} (h : Handles c a d) {k t : Nat} {f : Bytes}
    (accepted : (t, f) ∈ d.journal.accepted k) :
    (t, f) ∈ c.journal.accepted k ∨ ⟨.call t, f⟩ ∈ d.pending := by
  cases h with
  | nothing frames => exact .inl (frames.accepted k ▸ accepted)
  | opens =>
    obtain ⟨frame, -, opened⟩ := c.begin_eq
    rw [opened] at accepted
    exact .inl (by simpa using accepted)
  | joins =>
    rw [disconnect_eq] at accepted
    exact .inl (by simpa using accepted)
  | moves => exact .inl accepted
  | writes => exact .inl (by simpa [note] using accepted)
  | finishes | fails | halts => exact .inl (by simpa using accepted)
  | @accepts b r packet l frame box after frames same sends encoded live outbox queued =>
    simp only [note, Journal.accepted_cons, List.mem_append, frames.accepted] at accepted
    refine accepted.imp_right fun new => ?_
    have own : (t, f) = (b.tickets, frame) := by
      split at new
      · exact List.mem_singleton.1 new
      · cases new
    cases own
    show _ ∈ after.pending
    rw [Outbox.pending_submit queued]
    exact List.mem_append_right _ (List.mem_singleton_self _)

/-! ## Runs -/

theorem mem_returned {j : Journal} {t : Nat} {o : Outcome} :
    (t, o) ∈ j.returned ↔ ∃ s, (s, .returned t o) ∈ j := by
  constructor
  · intro mem
    obtain ⟨entry, among, seen⟩ := List.mem_filterMap.1 mem
    obtain ⟨⟨s, same⟩, inside, rfl⟩ := List.mem_map.1 (List.mem_reverse.1 among)
    cases same with
    | returned =>
      cases seen
      exact ⟨s, inside⟩
    | _ => cases seen
  · rintro ⟨s, inside⟩
    have among : .returned t o ∈ j.history :=
      List.mem_reverse.2 (List.mem_map.2 ⟨_, inside, rfl⟩)
    exact List.mem_filterMap.2 ⟨_, among, rfl⟩

theorem Keeps.outcomes (keeps : Keeps c d) {t : Nat} {o : Outcome} (known : (t, o) ∈ c.outcomes) :
    (t, o) ∈ d.outcomes := by
  refine List.mem_append.2 ?_
  rcases List.mem_append.1 known with decided | returned
  · exact (keeps.decided t o decided).imp_right fun now => mem_returned.2 ⟨_, now⟩
  · obtain ⟨s, entry⟩ := mem_returned.1 returned
    exact .inr (mem_returned.2 ⟨s, keeps.journal.subset entry⟩)

theorem settled_of_happens {a : Action} (wired : Wired c) (spent : Spent c) (settled : Settled c)
    (h : Happens c a d) : Settled d := by
  intro k t f mem
  rcases pending_of_accepted (handles_of_happens h) mem with before | pending
  · rcases settled k t f before with pending | ⟨o, known⟩
    · refine (pending_of_happens wired spent h pending).imp_right fun told => ?_
      obtain ⟨o, told⟩ := told
      exact ⟨o, List.mem_append_left _ told⟩
    · exact .inr ⟨o, (keeps_of_happens h).outcomes known⟩
  · exact .inl pending

/-- **No call is forgotten**: in every client that can be reached, a call whose frame was accepted
has its outcome, unless the frame is pending, and a writer that has failed has no frames left. -/
theorem Reachable.settled (h : Reachable policy c) : Settled c ∧ Spent c := by
  induction h with
  | start =>
    refine ⟨fun k t f mem => ?_, fun box outbox => ?_⟩
    · cases mem
    · cases outbox
  | step before happened ih =>
    obtain ⟨settled, spent⟩ := ih
    have happens := happens_of_step? happened
    exact ⟨settled_of_happens before.wired spent settled happens,
      spent_of_handles spent (handles_of_happens happens)⟩

/-! ## Calls that fail -/

theorem Keeps.accepted (keeps : Keeps c d) {k t : Nat} {frame : Bytes}
    (mem : (t, frame) ∈ c.journal.accepted k) : (t, frame) ∈ d.journal.accepted k := by
  obtain ⟨more, grown⟩ := keeps.journal
  rw [← grown, Journal.accepted, Journal.collect_append]
  exact List.mem_append_left _ mem

/-- **A call that fails has had its frame accepted.** -/
theorem Reachable.accepted_of_failed (h : Reachable policy c) {t : Nat} {f : Failure}
    (failed : (t, .error f) ∈ c.outcomes) : ∃ k frame, (t, frame) ∈ c.journal.accepted k := by
  induction h with
  | start => cases failed
  | @step c d a before happened ih =>
    have older (known : (t, .error f) ∈ c.outcomes) :
        ∃ k frame, (t, frame) ∈ d.journal.accepted k := by
      obtain ⟨k, frame, mem⟩ := ih known
      exact ⟨k, frame, (keeps_of_step? happened).accepted mem⟩
    have unsettled {b : Client} (frames : SameFrames c b) (known : (t, .error f) ∈ b.outcomes) :
        (t, .error f) ∈ c.outcomes := by
      refine (frames.mem_outcomes known).resolve_right ?_
      rintro ⟨-, ok⟩
      cases ok
    -- A writer that ends fails the calls whose frames are pending, and these were accepted.
    have told {box : Outbox} {next : Option Outbox} {outcomes : List (Sender × Outcome)}
        (outbox : c.outbox = some box) (working : box.failure = none)
        (senders : (outcomes.map Prod.fst).Perm (box.pending.map Job.sender))
        (same : d = { c with outbox := next }.deliver outcomes) :
        ∃ k frame, (t, frame) ∈ d.journal.accepted k := by
      subst same
      rcases (mem_outcomes_deliver _ _).1 failed with known | new
      · exact older known
      · have listed := senders.subset (List.mem_map_of_mem new)
        obtain ⟨⟨frame, mem⟩, -⟩ := before.booked.fresh before.sound outbox working listed
        exact ⟨box.connection, frame, by rwa [journal_deliver]⟩
    cases handles_of_happens (happens_of_step? happened) with
    | nothing frames => exact older (unsettled frames failed)
    | opens =>
      obtain ⟨frame, -, begun⟩ := c.begin_eq
      refine older ?_
      rw [begun] at failed
      simpa [outcomes] using failed
    | joins =>
      refine older ?_
      rw [disconnect_eq] at failed
      by_cases stopped : c.stage = .stopped <;> simpa [outcomes, stopped] using failed
    | moves => exact older failed
    | writes => exact older (by simpa [note, outcomes] using failed)
    | finishes =>
      rcases (mem_outcomes_deliver _ _).1 failed with known | new
      · exact older known
      · cases List.mem_singleton.1 new
    | @fails reason box after outcomes outbox broken =>
      obtain ⟨job, rest, inHand, -, -⟩ := Outbox.fail_eq_some broken
      exact told outbox (before.sound.working outbox inHand) (Outbox.senders_fail broken) rfl
    | halts _ outbox working => exact told outbox working Outbox.senders_abandon rfl
    | accepts frames =>
      refine older (unsettled frames ?_)
      simpa [note, outcomes] using failed

end ClimateLink.Client
