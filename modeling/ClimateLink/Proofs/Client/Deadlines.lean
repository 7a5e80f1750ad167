import ClimateLink.Proofs.Client.Phases
import ClimateLink.Proofs.Client.Settling

/-!
# Deadlines

A client may show that it connects, verifies or is disconnected for a limited time only. Each limit
counts from when the state was entered: nothing that comes in while a client verifies gives the
console more time, and the time that a connection takes to be closed counts for the state before.

**The invariant (`Timed`).** The state that is shown is the one entered last. The deadline of a
stage counts from then (`Client.deadline_eq`), and the clock is not past it. No time passes while a
connection is being closed.
-/

namespace ClimateLink

/-- The most time for which a state is shown. -/
def Policy.limit (policy : Policy) : Phase → Option Nat
  | .connecting => some policy.connectTimeout
  | .verifying => some policy.verifyTimeout
  | .disconnected => some policy.reconnectDelay
  | .idle | .connected | .shutdown => none

/-- The stage is the end, or one that can only lead there. -/
def Stage.Last (s : Stage) : Prop := s.phase? = some .shutdown ∨ s.ending? = some .shutdown

namespace Client

variable {c d : Client}

/-- The deadline of a stage is that of the state that is shown in it. -/
theorem deadline_eq (c : Client) :
    c.deadline = (c.stage.phase?.bind c.policy.limit).map (c.since + ·) := by
  unfold deadline
  cases c.stage <;> rfl

theorem due_iff {phase : Phase} {limit : Nat} (shown : c.stage.phase? = some phase)
    (limited : c.policy.limit phase = some limit) : c.due ↔ c.since + limit ≤ c.clock := by
  rw [due, deadline_eq, shown, Option.bind_some, limited]
  simp

/-! ## The invariant -/

/-- What the journal says about states that were shown goes with the stage and the clock. -/
structure Timed (c : Client) : Prop where
  phase : c.phase = (c.journal.lastPhase?.map Prod.snd).getD .idle
  since : ∀ phase, c.stage.phase? = some phase → phase ≠ .idle →
    c.journal.lastPhase? = some (c.since, phase)
  idle : c.stage.phase? = some .idle → c.journal.lastPhase? = none ∧ c.journal.dials = 0
  started : c.stage.phase? ≠ some .idle → c.journal.dials ≠ 0
  closing : c.stage.phase? = none →
    c.since = c.clock ∧ (c.phase = .verifying ∨ c.phase = .connected)
  past : ∀ t phase, c.journal.lastPhase? = some (t, phase) → t ≤ c.clock
  limit : ∀ t phase limit, c.journal.lastPhase? = some (t, phase) →
    c.policy.limit phase = some limit → c.clock ≤ t + limit

/-- The limit of the state that the client is in is not over. -/
theorem Timed.intime (timed : Timed c) {phase : Phase} (shown : c.stage.phase? = some phase)
    (begun : phase ≠ .idle) {most : Nat} (limited : c.policy.limit phase = some most) :
    c.clock ≤ c.since + most :=
  timed.limit _ _ _ (timed.since _ shown begun) limited

theorem timed_start (policy : Policy) : Timed (.start policy) where
  phase := rfl
  since _ shown begun := absurd (Option.some.inj shown).symm begun
  idle _ := ⟨rfl, rfl⟩
  started other := absurd rfl other
  closing closing := by cases closing
  past _ _ none := by cases none
  limit _ _ _ none := by cases none

theorem Timed.sameShown (timed : Timed c) (same : SameShown c d) : Timed d where
  phase := by rw [same.phase, same.lastPhase, timed.phase]
  since := by
    rw [same.shown, same.lastPhase, same.since]
    exact timed.since
  idle := by
    rw [same.shown, same.lastPhase, same.dials]
    exact timed.idle
  started := by
    rw [same.shown, same.dials]
    exact timed.started
  closing := by
    rw [same.shown, same.since, same.clock, same.phase]
    exact timed.closing
  past := by
    rw [same.lastPhase, same.clock]
    exact timed.past
  limit := by
    rw [same.lastPhase, same.policy, same.clock]
    exact timed.limit

theorem Timed.session (timed : Timed c) (session : c.stage.session?.isSome) :
    c.phase = .verifying ∨ c.phase = .connected := by
  have shown : c.stage.phase? = some .verifying ∨ c.stage.phase? = some .connected := by
    cases stage : c.stage with
    | asking | verifying => exact .inl rfl
    | running => exact .inr rfl
    | idle | dialing | closing | pausing | stopped =>
      rw [stage] at session
      cases session
  refine shown.imp (fun shown => ?_) fun shown => ?_
  · rw [timed.phase, timed.since _ shown Phase.noConfusion]
    rfl
  · rw [timed.phase, timed.since _ shown Phase.noConfusion]
    rfl

theorem Timed.leaves (timed : Timed c) {ending : Ending} (session : c.stage.session?.isSome)
    (leaves : Leaves c d ending) : Timed d := by
  have closing : d.stage.phase? = none :=
    Stage.phase?_eq_none_iff.2 (Option.isSome_of_mem leaves.ending)
  have begun : c.stage.phase? ≠ some .idle := by
    intro idle
    cases stage : c.stage <;> rw [stage] at idle session <;> cases idle
    cases session
  refine ⟨?_, ?_, ?_, ?_, ?_, ?_, ?_⟩
  · rw [leaves.phase, leaves.lastPhase, timed.phase]
  · intro phase shown
    cases closing.symm.trans shown
  · intro shown
    cases closing.symm.trans shown
  · intro _
    rw [leaves.dials]
    exact timed.started begun
  · intro _
    rw [leaves.since, leaves.clock, leaves.phase]
    exact ⟨rfl, timed.session session⟩
  · rw [leaves.lastPhase, leaves.clock]
    exact timed.past
  · rw [leaves.lastPhase, leaves.policy, leaves.clock]
    exact timed.limit

theorem Arrives.timed {phase : Phase} (arrives : Arrives c d phase) (begun : phase ≠ .idle)
    (dialled : c.journal.dials ≠ 0 ∨ phase = .connecting) : Timed d := by
  have now : d.journal.lastPhase? = some (d.since, phase) := by
    rw [arrives.lastPhase, arrives.since]
  have since : d.since = d.clock := by rw [arrives.since, arrives.clock]
  refine ⟨?_, ?_, ?_, ?_, ?_, ?_, ?_⟩
  · rw [arrives.phase, now]
    rfl
  · intro phase' shown _
    cases arrives.shown.symm.trans shown
    exact now
  · intro shown
    cases arrives.shown.symm.trans shown
    exact absurd rfl begun
  · intro _
    rw [arrives.dials]
    rcases dialled with dialled | rfl
    · omega
    · rw [if_pos rfl]
      exact Nat.succ_ne_zero _
  · intro closing
    cases arrives.shown.symm.trans closing
  · intro t phase' shown
    cases now.symm.trans shown
    exact Nat.le_of_eq since
  · intro t phase' limit shown _
    cases now.symm.trans shown
    rw [since]
    exact Nat.le_add_right _ _

/-- Time passes only up to the deadline of the state that is shown. -/
theorem Timed.waits (timed : Timed c) {ms : Nat} (rest : c.atRest)
    (soon : c.deadline.all (c.clock + ms ≤ ·)) : Timed { c with clock := c.clock + ms } := by
  obtain ⟨phase, shown, begun⟩ := phase?_of_atRest rest
  have now := timed.since phase shown begun
  refine { timed with closing := ?_, past := ?_, limit := ?_ }
  · intro closing
    cases shown.symm.trans closing
  · intro t phase' entered
    exact Nat.le_trans (timed.past t phase' entered) (Nat.le_add_right _ _)
  · intro t phase' limit entered limited
    cases now.symm.trans entered
    rw [deadline_eq, shown, Option.bind_some, show c.policy.limit phase = some limit from limited]
      at soon
    simpa using soon

theorem Timed.dialled (timed : Timed c) {phase : Phase} (begun : c.stage ≠ .idle) :
    c.journal.dials ≠ 0 ∨ phase = .connecting := by
  refine .inl (timed.started fun idle => begun ?_)
  cases stage : c.stage <;> rw [stage] at idle <;> first | rfl | cases idle

theorem Bereft.begun (bereft : Bereft c) : c.stage ≠ .idle := by
  intro idle
  rcases bereft with stage | ⟨verified, failure, ending⟩
  · cases idle.symm.trans stage
  · rw [idle] at ending
    cases ending

theorem timed_of_turns (timed : Timed c) (h : Turns c d) : Timed d := by
  cases h with
  | goesOn same => exact timed.sameShown same
  | leaves session _ leaves => exact timed.leaves session leaves
  | redials _ arrives => exact arrives.timed Phase.noConfusion (.inr rfl)
  | opens stage arrives =>
    exact arrives.timed Phase.noConfusion (timed.dialled (Bereft.begun (.inl stage)))
  | verifies session arrives =>
    refine arrives.timed Phase.noConfusion (timed.dialled ?_)
    intro idle
    rw [idle] at session
    cases session
  | pauses bereft _ arrives | gives _ bereft _ arrives =>
    exact arrives.timed Phase.noConfusion (timed.dialled bereft.begun)
  | stops told arrives =>
    refine arrives.timed Phase.noConfusion (timed.dialled ?_)
    intro idle
    rw [idle] at told
    rcases told with ⟨-, stage | stage⟩ | ending
    · cases stage
    · cases stage
    · cases ending
  | waits rest soon => exact timed.waits rest soon

theorem Reachable.timed {policy : Policy} (h : Reachable policy c) : Timed c :=
  h.induction (timed_start policy) fun timed happened =>
    timed_of_turns timed (turns_of_happens happened)

theorem Reachable.policy {policy : Policy} (h : Reachable policy c) : c.policy = policy :=
  h.induction (P := fun c => c.policy = policy) rfl fun same happened =>
    (keeps_of_happens happened).policy.trans same

/-! ## Clients that stop -/

/-- A client stops because it was told to, or because its first attempt failed and is reported. -/
def Excused (c : Client) : Prop := c.stopping ∨ ∃ failure, c.answer = some (.error failure)

/-- A client that arrives at a state shows that one, and closes no connection. -/
theorem Arrives.eq_of {phase other : Phase} (arrives : Arrives c d phase)
    (near : d.stage.phase? = some other ∨ d.stage.ending?.isSome) : phase = other := by
  rcases near with shown | ending
  · exact Option.some.inj (arrives.shown.symm.trans shown)
  · cases arrives.shown.symm.trans (Stage.phase?_eq_none_iff.2 ending)

theorem Arrives.eq_shutdown {phase : Phase} (arrives : Arrives c d phase) (last : d.stage.Last) :
    phase = .shutdown :=
  arrives.eq_of (last.imp_right Option.isSome_of_mem)

theorem Reachable.excused {policy : Policy} (h : Reachable policy c) :
    c.stage.Last → Excused c := by
  induction h with
  | start =>
    rintro (shown | ending)
    · cases shown
    · cases ending
  | @step c d a before happened ih =>
    intro last
    have keeps := keeps_of_step? happened
    -- An excuse lasts, so that only the steps that come to the end have to bring one.
    have stays : Excused c → Excused d := by
      rintro (told | ⟨failure, answered⟩)
      · exact .inl (keeps.stopping told)
      · exact .inr ⟨failure, keeps.answered answered⟩
    cases turns_of_happens (happens_of_step? happened) with
    | goesOn same =>
      refine stays (ih ?_)
      rw [Stage.Last, same.shown, same.ending] at last
      exact last
    | @leaves _ ending _ told leaves =>
      refine stays (.inl (told ?_))
      rcases last with shown | ended
      · have closing := Stage.phase?_eq_none_iff.2 (Option.isSome_of_mem leaves.ending)
        cases closing.symm.trans shown
      · cases leaves.ending.symm.trans ended
        rfl
    | redials _ arrives | opens _ arrives | verifies _ arrives | pauses _ _ arrives =>
      cases arrives.eq_shutdown last
    | gives failure _ _ _ answer => exact .inr ⟨failure, answer⟩
    | stops told =>
      refine stays ?_
      rcases told with ⟨told, -⟩ | ending
      · exact .inl told
      · exact ih (.inr ending)
    | waits => exact stays (ih last)

/-- **A client that has begun and neither was told to stop nor failed its first attempt** connects,
verifies, is connected or is disconnected. -/
theorem Reachable.phase_of_unexcused {policy : Policy} (h : Reachable policy c)
    (begun : c.journal.dials ≠ 0) (on : ¬Excused c) :
    c.phase = .connecting ∨ c.phase = .verifying ∨ c.phase = .connected ∨
      c.phase = .disconnected := by
  have timed := h.timed
  cases shown : c.stage.phase? with
  | none =>
    obtain ⟨-, phase⟩ := timed.closing shown
    exact .inr (phase.imp_right .inl)
  | some phase =>
    have now := h.displayed.phase phase shown
    cases phase with
    | idle => exact absurd (timed.idle shown).2 begun
    | connecting => exact .inl now
    | verifying => exact .inr (.inl now)
    | connected => exact .inr (.inr (.inl now))
    | disconnected => exact .inr (.inr (.inr now))
    | shutdown => exact absurd (h.excused (.inl shown)) on

theorem Reachable.stage_of_disconnected {policy : Policy} (h : Reachable policy c)
    (phase : c.phase = .disconnected) : c.stage = .pausing := by
  cases shown : c.stage.phase? with
  | none =>
    obtain ⟨-, other⟩ := h.timed.closing shown
    rw [phase] at other
    rcases other with other | other <;> cases other
  | some found =>
    cases phase.symm.trans (h.displayed.phase found shown)
    exact Stage.phase?_eq_disconnected_iff.1 shown

end Client

end ClimateLink
