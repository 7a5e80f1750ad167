import ClimateLink.Proofs.Client.Deadlines
import Mathlib.Data.List.Induction

/-!
# Deadlines and the next dial

A client that has lost its session, or failed to get one, waits for a while and dials again, as
often as it takes.

**Theorem (`keeps_time`).** In every run, whatever dials and consoles do: no state is shown for
longer than its limit; every dial but the first is started exactly the delay after the loss of the
attempt or session before it; a client that has begun, was not told to stop and did not fail its
first attempt always connects, verifies, is connected or is disconnected; from a pause it comes to
the next dial all by itself; and a dial or a verification whose time is over is ended then and
there.

**The proof.** Limits are the invariant `Timed`. A client that pauses came to that by a loss at the
time at which the pause began (`exists_loss`, by induction on the run), and it dials when the pause
is due, which is when its limit is over (`Reachable.dial_on_time`).
-/

namespace ClimateLink

/-- An attempt or a session is under way. -/
def Stage.Trying (s : Stage) : Prop :=
  s.phase? = some .connecting ∨ s.phase? = some .verifying ∨ s.phase? = some .connected

/-- An attempt or a session is lost, and the next dial is still to come. -/
def Stage.Lost (s : Stage) : Prop :=
  s.phase? = some .disconnected ∨ ∃ verified failure, s.ending? = some (.lost verified failure)

/-- A session that is still to end is under way. -/
theorem Stage.trying_of_session? {s : Stage} (session : s.session?.isSome) : s.Trying := by
  cases s with
  | asking | verifying => exact .inr (.inl rfl)
  | running => exact .inr (.inr rfl)
  | idle | dialing | closing | pausing | stopped => cases session

namespace Client

variable {policy : Policy} {c d : Client}

/-! ## Losses -/

/-- On a run to `c`, the step from `u` to `v` is the loss of the latest attempt or session. -/
structure Loses (policy : Policy) (actions : List Action) (u v c : Client) : Prop where
  run : ∃ before a after, actions = before ++ a :: after ∧
    (Client.start policy).run? before = some u ∧ u.step? a = some v ∧ v.run? after = some c
  trying : u.stage.Trying
  lost : v.stage.Lost
  dials : v.journal.dials = c.journal.dials

theorem run?_concat {actions : List Action} {a : Action}
    (run : c.run? (actions ++ [a]) = some d) :
    ∃ b, c.run? actions = some b ∧ b.step? a = some d := by
  rw [run?_append] at run
  obtain ⟨b, before, last⟩ := Option.bind_eq_some_iff.1 run
  obtain ⟨e, happened, rest⟩ := Option.bind_eq_some_iff.1 last
  cases rest
  exact ⟨b, before, happened⟩

theorem run?_snoc {actions : List Action} {a : Action} {b : Client}
    (before : c.run? actions = some b) (happened : b.step? a = some d) :
    c.run? (actions ++ [a]) = some d := by
  rw [run?_append, before]
  show b.run? [a] = some d
  exact Option.bind_eq_some_iff.2 ⟨d, happened, rfl⟩

/-- A loss stays the latest one until the next dial. -/
theorem Loses.snoc {actions : List Action} {a : Action} {u v : Client}
    (loses : Loses policy actions u v c) (happened : c.step? a = some d)
    (dials : d.journal.dials = c.journal.dials) : Loses policy (actions ++ [a]) u v d := by
  obtain ⟨before, b, after, rfl, start, loss, rest⟩ := loses.run
  refine ⟨⟨before, b, after ++ [a], ?_, start, loss, run?_snoc rest happened⟩, loses.trying,
    loses.lost, loses.dials.trans dials.symm⟩
  rw [List.append_assoc, List.cons_append]

theorem loses_now {actions : List Action} {a : Action}
    (before : (start policy).run? actions = some c)
    (happened : c.step? a = some d) (trying : c.stage.Trying) (lost : d.stage.Lost) :
    Loses policy (actions ++ [a]) c d d :=
  ⟨⟨actions, a, [], rfl, before, happened, rfl⟩, trying, lost, rfl⟩

theorem Arrives.eq_disconnected {phase : Phase} (arrives : Arrives c d phase)
    (lost : d.stage.Lost) : phase = .disconnected := by
  refine arrives.eq_of (lost.imp_right ?_)
  rintro ⟨verified, failure, ending⟩
  exact Option.isSome_of_mem ending

/-- **A client without a session came to that by a loss**, and the time counts from there. -/
theorem exists_loss {actions : List Action} (run : (start policy).run? actions = some c)
    (lost : c.stage.Lost) : ∃ u v, Loses policy actions u v c ∧ v.clock = c.since := by
  induction actions using List.reverseRecOn generalizing c with
  | nil =>
    cases run
    rcases lost with shown | ⟨verified, failure, ending⟩
    · cases shown
    · cases ending
  | append_singleton actions a ih =>
    obtain ⟨b, before, happened⟩ := run?_concat run
    have reached : Reachable policy b := Reachable.start.run? before
    -- Either the client had lost before, or it does so now.
    cases turns_of_happens (happens_of_step? happened) with
    | goesOn same =>
      have still : b.stage.Lost := by
        rw [Stage.Lost, ← same.shown, ← same.ending]
        exact lost
      obtain ⟨u, v, loses, since⟩ := ih before still
      exact ⟨u, v, loses.snoc happened same.dials, since.trans same.since.symm⟩
    | waits =>
      obtain ⟨u, v, loses, since⟩ := ih before lost
      exact ⟨u, v, loses.snoc happened rfl, since⟩
    | leaves session _ leaves =>
      refine ⟨b, c, loses_now before happened (Stage.trying_of_session? session) lost, ?_⟩
      rw [leaves.clock, leaves.since]
    | pauses bereft _ arrives =>
      rcases bereft with stage | ⟨verified, failure, ending⟩
      · have trying : b.stage.Trying := .inl (congrArg Stage.phase? stage)
        refine ⟨b, c, loses_now before happened trying lost, ?_⟩
        rw [arrives.clock, arrives.since]
      · obtain ⟨u, v, loses, since⟩ := ih before (.inr ⟨verified, failure, ending⟩)
        have closing := Stage.phase?_eq_none_iff.2 (Option.isSome_of_mem ending)
        refine ⟨u, v, loses.snoc happened arrives.dials, ?_⟩
        rw [since, arrives.since, (reached.timed.closing closing).1]
    | redials _ arrives | opens _ arrives | verifies _ arrives | gives _ _ _ arrives
    | stops _ arrives => cases arrives.eq_disconnected lost

/-! ## The next dial -/

/-- **Every dial but the first is started when the pause is over**, and not before. -/
theorem Reachable.dial_on_time (h : Reachable policy c) {a : Action} (happened : c.step? a = some d)
    (dialled : d.journal.dials ≠ c.journal.dials) :
    d.journal.dials = c.journal.dials + 1 ∧ d.clock = c.clock ∧
      (c.journal.dials = 0 ∨
        c.stage = .pausing ∧ c.clock = c.since + policy.reconnectDelay) := by
  cases turns_of_happens (happens_of_step? happened) with
  | redials ready arrives =>
    refine ⟨arrives.dials, arrives.clock, ready.imp (fun stage => ?_) ?_⟩
    · exact (h.timed.idle (congrArg Stage.phase? stage)).2
    · rintro ⟨stage, due⟩
      have shown : c.stage.phase? = some .disconnected := congrArg Stage.phase? stage
      have late := h.timed.intime shown Phase.noConfusion rfl
      rw [← h.policy]
      exact ⟨stage, Nat.le_antisymm late ((due_iff shown rfl).1 due)⟩
  | goesOn same => exact absurd same.dials dialled
  | leaves _ _ leaves => exact absurd leaves.dials dialled
  | waits => exact absurd rfl dialled
  | opens _ arrives | verifies _ arrives | pauses _ _ arrives | gives _ _ _ arrives
  | stops _ arrives => exact absurd arrives.dials dialled

/-- What a client does that pauses, until the pause is over: nothing but to let calls return. -/
theorem sameShown_of_pausing {m : Move} (h : Happens c (.move m) d) (stage : c.stage = .pausing)
    (on : ¬c.stopping) (early : ¬c.due) :
    SameShown c d ∧ d.stage = .pausing ∧ d.stopping = c.stopping := by
  have other {s : Stage} (is : c.stage = s) (differs : s ≠ .pausing) :
      SameShown c d ∧ d.stage = .pausing ∧ d.stopping = c.stopping :=
    absurd (is.symm.trans stage) differs
  cases h with
  | start is | expireDial _ is | learn is | learnFailure is | desert is | halt is | close is =>
    exact other is Stage.noConfusion
  | heedAlone told | heed told => exact absurd told on
  | expireSession due | expirePause due => exact absurd due early
  | take | advance => exact ⟨{ SameShown.refl c with }, stage, rfl⟩
  | collect => exact ⟨{ SameShown.refl c with notes := notes_one rfl rfl }, stage, rfl⟩

/-- An action that is the client's own, or that time passes. -/
def Action.own : Action → Bool
  | .move _ | .elapse _ => true
  | .signal _ | .request _ => false

theorem exists_rest_of_pausing (stage : c.stage = .pausing) (on : ¬c.stopping) (early : ¬c.due) :
    ∃ (moves : List Move) (d : Client), c.run? (moves.map .move) = some d ∧ d.atRest ∧
      SameShown c d ∧ d.stage = .pausing := by
  have going (b : Client) (holds : SameShown c b ∧ b.stage = .pausing ∧ ¬b.stopping)
      (busy : ¬b.atRest) :
      ∃ m d, m ≠ .expire ∧ b.move? m = some d ∧
        SameShown c d ∧ d.stage = .pausing ∧ ¬d.stopping := by
    obtain ⟨same, stage', on⟩ := holds
    have early : ¬b.due := by
      rwa [due, deadline_eq, same.since, same.shown, same.policy, same.clock, ← deadline_eq]
    obtain ⟨m, d, moved⟩ := exists_move_of_not_atRest busy
    obtain ⟨next, stage', stopping⟩ := sameShown_of_pausing (happens_of_move? moved) stage' on early
    refine ⟨m, d, ?_, moved, same.trans next, stage', stopping ▸ on⟩
    rintro rfl
    exact early (Option.ite_none_right_eq_some.1 moved).1
  obtain ⟨moves, d, -, run, rest, -, same, stage, -⟩ :=
    exists_rest_keeping going ⟨SameShown.refl c, stage, on⟩
  exact ⟨moves, d, run, rest, same, stage⟩

theorem deadline_of_pausing (stage : c.stage = .pausing) :
    c.deadline = some (c.since + c.policy.reconnectDelay) := by
  rw [Client.deadline, stage]

theorem due_of_pausing (stage : c.stage = .pausing) :
    c.due ↔ c.since + c.policy.reconnectDelay ≤ c.clock :=
  due_iff (congrArg Stage.phase? stage) rfl

theorem step?_expire_of_pausing (stage : c.stage = .pausing)
    (past : c.since + c.policy.reconnectDelay ≤ c.clock) :
    c.step? (.move .expire) = some c.dial := by
  show (if c.due then c.expire else none) = _
  rw [if_pos ((due_of_pausing stage).2 past), Client.expire, stage]

/-- **From a pause a client comes to the next dial all by itself.** -/
theorem exists_dial (stage : c.stage = .pausing) (on : ¬c.stopping)
    (intime : c.clock ≤ c.since + c.policy.reconnectDelay) :
    ∃ more d, (∀ a ∈ more, Action.own a) ∧ c.run? more = some d ∧
      d.journal.dials = c.journal.dials + 1 ∧
      d.clock = c.since + c.policy.reconnectDelay := by
  by_cases due : c.due
  · have past := (due_of_pausing stage).1 due
    refine ⟨[.move .expire], c.dial, by simp [Action.own], ?_, (arrives_dial c).dials,
      Nat.le_antisymm intime past⟩
    have still : c.run? [] = some c := rfl
    exact run?_snoc still (step?_expire_of_pausing stage past)
  · -- Calls return first, then time passes, and then the pause is over.
    obtain ⟨moves, b, run, rest, same, stage'⟩ := exists_rest_of_pausing stage on due
    have early : c.clock < c.since + c.policy.reconnectDelay :=
      Nat.not_le.1 fun past => due ((due_of_pausing stage).2 past)
    let ms := c.since + c.policy.reconnectDelay - c.clock
    let later : Client := { b with clock := b.clock + ms }
    have now : later.clock = c.since + c.policy.reconnectDelay := by
      show b.clock + ms = _
      rw [same.clock]
      omega
    have soon : b.deadline.all (b.clock + ms ≤ ·) := by
      rw [deadline_of_pausing stage', same.since, same.policy]
      simpa using Nat.le_of_eq now
    have waited : b.step? (.elapse ms) = some later :=
      if_pos ⟨Nat.sub_pos_of_lt early, rest, soon⟩
    have past : later.since + later.policy.reconnectDelay ≤ later.clock := by
      rw [now]
      show b.since + b.policy.reconnectDelay ≤ _
      rw [same.since, same.policy]
    have still : later.stage = .pausing := stage'
    refine ⟨(moves.map .move ++ [.elapse ms]) ++ [.move .expire], later.dial, ?_,
      run?_snoc (run?_snoc run waited) (step?_expire_of_pausing still past), ?_, now⟩
    · intro a among
      simp only [List.mem_append, List.mem_map, List.mem_singleton] at among
      rcases among with (⟨m, -, rfl⟩ | rfl) | rfl <;> rfl
    · rw [(arrives_dial later).dials]
      exact congrArg (· + 1) same.dials

/-! ## Attempts that take too long -/

theorem exists_close {k : Nat} {ending : Ending} (stage : c.stage = .closing k ending) :
    ∃ moves b, c.run? (List.map Action.move moves) = some (b.close k ending) ∧ SameShown c b ∧
      b.stopping = c.stopping := by
  have closes {b : Client} (ended : b.stage = .closing k ending) (finished : ¬b.writing) :
      b.step? (.move .close) = some (b.close k ending) := by
    unfold Client.step? Client.move?
    dsimp only
    rw [ended]
    exact if_neg finished
  have still : c.run? [] = some c := rfl
  by_cases writing : c.writing
  · have halts : c.step? (.move .halt) = some c.halt := by
      unfold Client.step? Client.move?
      dsimp only
      rw [stage]
      exact if_pos writing
    have ended : c.halt.stage = .closing k ending := by
      refine (stage_deliver ?_ _ _).trans stage
      rw [stage]
      intro shown
      cases shown
    have finished : ¬c.halt.writing := by
      rw [halt, writing_deliver]
      exact Bool.false_ne_true
    refine ⟨[.halt, .close], c.halt, ?_, sameShown_deliver _ _, by rw [halt, deliver_eq]⟩
    exact run?_snoc (run?_snoc still halts) (closes ended finished)
  · exact ⟨[.close], c, run?_snoc still (closes stage writing), SameShown.refl c, rfl⟩

/-- By its own moves, in no time, the client comes to be disconnected or shut down. -/
def Ends (c : Client) : Prop :=
  ∃ (moves : List Move) (d : Client), c.run? (moves.map .move) = some d ∧ d.clock = c.clock ∧
    (d.phase = .disconnected ∨ d.phase = .shutdown)

theorem Ends.step {m : Move} (ends : Ends d) (moved : c.move? m = some d) : Ends c := by
  obtain ⟨moves, e, run, clock, phase⟩ := ends
  refine ⟨m :: moves, e, Option.bind_eq_some_iff.2 ⟨d, moved, run⟩, clock.trans ?_, phase⟩
  refine (keeps_of_happens (happens_of_move? moved)).clock.resolve_right fun rest => ?_
  cases (atRest_iff.1 rest m).symm.trans moved

theorem ends_lose (c : Client) (verified : Bool) (failure : Failure) :
    (c.lose verified failure).clock = c.clock ∧
      ((c.lose verified failure).phase = .disconnected ∨
        (c.lose verified failure).phase = .shutdown) := by
  rw [lose_eq]
  refine ⟨rfl, ?_⟩
  dsimp only
  split
  · exact .inl rfl
  · exact .inr rfl

theorem ends_of_closing {k : Nat} {ending : Ending} (stage : c.stage = .closing k ending) :
    Ends c := by
  obtain ⟨moves, b, run, same, -⟩ := exists_close stage
  cases ending with
  | shutdown => exact ⟨moves, _, run, same.clock, .inr rfl⟩
  | lost verified failure =>
    obtain ⟨clock, phase⟩ := ends_lose ({ b with outbox := none }.note (.closed k)) verified failure
    exact ⟨moves, _, run, clock.trans same.clock, phase⟩

theorem ends_of_due (due : c.due)
    (waiting : c.stage.phase? = some .connecting ∨ c.stage.phase? = some .verifying) : Ends c := by
  have expires {b d : Client} (due : b.due) (expired : b.expire = some d) (ends : Ends d) :
      Ends b := ends.step (m := .expire) ((if_pos due).trans expired)
  have gives (k : Nat) (expired : c.expire =
      some (c.leave k (.lost false (.unverified c.policy.verifyTimeout)))) : Ends c :=
    expires due expired (ends_of_closing rfl)
  cases stage : c.stage with
  | dialing =>
    have expired : c.expire = some (c.lose false .connectTimeout) := by
      rw [Client.expire, stage]
    exact expires due expired ⟨[], _, rfl, rfl, (ends_lose c false .connectTimeout).2⟩
  | verifying k framer =>
    refine gives k ?_
    rw [Client.expire, stage]
  | asking k told =>
    cases told with
    | none =>
      refine gives k ?_
      rw [Client.expire, stage]
    | some outcome =>
      -- What became of the request is learned before the deadline counts.
      cases outcome with
      | error failure =>
        have learned : c.learn = some (c.leave k (.lost false failure)) := by
          rw [Client.learn, stage]
        exact (ends_of_closing rfl).step (m := .learn) learned
      | ok =>
        have learned : c.learn = some { c with stage := .verifying k .empty } := by
          rw [Client.learn, stage]
        have still : ({ c with stage := .verifying k .empty } : Client).due := by
          rwa [Client.due, deadline, stage] at due
        exact (expires still rfl (ends_of_closing rfl)).step (m := .learn) learned
  | idle | running | closing | pausing | stopped =>
    rw [stage] at waiting
    rcases waiting with shown | shown <;> cases shown

/-- **A dial or a verification ends when its limit is over**, by the client's own moves. -/
theorem Reachable.ends_in_time (h : Reachable policy c)
    (waiting : c.phase = .connecting ∨ c.phase = .verifying) {t limit : Nat}
    (last : c.journal.lastPhase? = some (t, c.phase)) (limited : policy.limit c.phase = some limit)
    (past : t + limit ≤ c.clock) : Ends c := by
  cases shown : c.stage.phase? with
  | none =>
    obtain ⟨ending, ends⟩ := Option.isSome_iff_exists.1 (Stage.phase?_eq_none_iff.1 shown)
    obtain ⟨k, stage⟩ := Stage.exists_closing ends
    exact ends_of_closing stage
  | some phase =>
    obtain rfl := h.displayed.phase phase shown
    have begun : c.phase ≠ .idle := by
      rcases waiting with phase | phase <;> rw [phase] <;> exact Phase.noConfusion
    cases last.symm.trans (h.timed.since _ shown begun)
    rw [← h.policy] at limited
    refine ends_of_due ((due_iff shown limited).2 past) ?_
    rw [shown]
    exact waiting.imp (congrArg some) (congrArg some)

/-- A client at rest has time left for the state that it shows, if that is limited. -/
theorem Reachable.lt_of_atRest (h : Reachable policy c) (rest : c.atRest) {t limit : Nat}
    (last : c.journal.lastPhase? = some (t, c.phase))
    (limited : policy.limit c.phase = some limit) : c.clock < t + limit := by
  obtain ⟨phase, shown, begun⟩ := phase?_of_atRest rest
  obtain rfl := h.displayed.phase phase shown
  cases last.symm.trans (h.timed.since _ shown begun)
  rw [← h.policy] at limited
  refine Nat.not_le.1 fun past => ?_
  cases (not_due_of_atRest rest).symm.trans ((due_iff shown limited).2 past)

/-! ## Time is kept -/

/-- **Time is kept, and the client never gives up.** In every run:

- the state that is shown was entered at some time, and has not been shown for longer than its
  limit, however much came in meanwhile;
- every dial but the first is started exactly the delay after a loss, that of the attempt or the
  session before it;
- a client that has begun, was not told to stop and did not fail its first attempt connects,
  verifies, is connected or is disconnected;
- from being disconnected it comes to the next dial by itself, with nothing but time passing;
- when the limit of a dial or a verification is over, its own moves end that at this very time;
- whenever it has nothing more to do without time passing, the limit is not over. -/
theorem keeps_time {actions : List Action} (run : (Client.start policy).run? actions = some c) :
    (c.phase ≠ .idle → ∃ t, c.journal.lastPhase? = some (t, c.phase) ∧ t ≤ c.clock ∧
      ∀ limit, policy.limit c.phase = some limit → c.clock ≤ t + limit) ∧
    (∀ a d, c.step? a = some d → d.journal.dials ≠ c.journal.dials →
      d.journal.dials = c.journal.dials + 1 ∧ (c.journal.dials = 0 ∨
        ∃ u v, Loses policy actions u v c ∧ d.clock = v.clock + policy.reconnectDelay)) ∧
    (c.journal.dials ≠ 0 → ¬c.stopping → (∀ failure, c.answer ≠ some (.error failure)) →
      c.phase = .connecting ∨ c.phase = .verifying ∨ c.phase = .connected ∨
        c.phase = .disconnected) ∧
    (c.phase = .disconnected → ¬c.stopping → ∃ t more d,
      c.journal.lastPhase? = some (t, .disconnected) ∧ (∀ a ∈ more, Action.own a) ∧
      c.run? more = some d ∧ d.journal.dials = c.journal.dials + 1 ∧
      d.clock = t + policy.reconnectDelay) ∧
    (c.phase = .connecting ∨ c.phase = .verifying → ∀ t limit,
      c.journal.lastPhase? = some (t, c.phase) → policy.limit c.phase = some limit →
      t + limit ≤ c.clock → ∃ (moves : List Move) (d : Client),
        c.run? (moves.map .move) = some d ∧ d.clock = t + limit ∧
        (d.phase = .disconnected ∨ d.phase = .shutdown)) ∧
    (c.atRest → ∀ t limit, c.journal.lastPhase? = some (t, c.phase) →
      policy.limit c.phase = some limit → c.clock < t + limit) := by
  have reached : Reachable policy c := Reachable.start.run? run
  have timed := reached.timed
  have entered (begun : c.phase ≠ .idle) : ∃ t, c.journal.lastPhase? = some (t, c.phase) := by
    have shown := timed.phase
    cases last : c.journal.lastPhase? with
    | none =>
      rw [last] at shown
      exact absurd shown begun
    | some entry =>
      rw [last] at shown
      exact ⟨entry.1, by rw [shown]; rfl⟩
  refine ⟨fun begun => ?_, fun a d happened dialled => ?_, fun begun on answer => ?_,
    fun phase on => ?_, fun waiting t limit last limited past => ?_,
    fun rest t limit => reached.lt_of_atRest rest⟩
  · obtain ⟨t, last⟩ := entered begun
    refine ⟨t, last, timed.past t _ last, fun limit limited => ?_⟩
    rw [← reached.policy] at limited
    exact timed.limit t _ limit last limited
  · obtain ⟨one, clock, first | ⟨stage, late⟩⟩ := reached.dial_on_time happened dialled
    · exact ⟨one, .inl first⟩
    · obtain ⟨u, v, loses, since⟩ := exists_loss run (.inl (congrArg Stage.phase? stage))
      exact ⟨one, .inr ⟨u, v, loses, by rw [clock, late, since]⟩⟩
  · refine reached.phase_of_unexcused begun ?_
    rintro (told | ⟨failure, failed⟩)
    · exact on told
    · exact answer failure failed
  · obtain ⟨t, last⟩ := entered (phase ▸ Phase.noConfusion)
    rw [phase] at last
    have stage := reached.stage_of_disconnected phase
    have since := timed.since _ (congrArg Stage.phase? stage) Phase.noConfusion
    cases last.symm.trans since
    obtain ⟨more, d, own, run, dials, clock⟩ :=
      exists_dial stage on (timed.limit _ _ _ since rfl)
    rw [reached.policy] at clock
    exact ⟨c.since, more, d, since, own, run, dials, clock⟩
  · obtain ⟨moves, d, run, clock, phase⟩ := reached.ends_in_time waiting last limited past
    rw [← reached.policy] at limited
    refine ⟨moves, d, run, clock.trans (Nat.le_antisymm ?_ past), phase⟩
    exact timed.limit t _ limit last limited

/-- A console gives its version and hangs up, and the client waits. -/
def longPause : List Action := lostSession ++ [.elapse 5000]

/-- A console takes the connection late, and then writes what is no version until the time is
over. -/
def longSilence : List Action :=
  [.move .start, .elapse 4000, .signal .connected, .move .take, .signal (.wrote 14),
    .signal .flushed, .move .learn, .elapse 4999, .signal (.received [0x55]), .elapse 1,
    .signal (.received [0x55])]

/-- Five seconds after the console hung up, the client dials again; and five seconds after a console
took the connection, the client gives it up, whatever came in. -/
theorem keeps_time_longPause :
    (∃ c d u v, (Client.start { failFast := false }).run? longPause = some c ∧
      c.phase = .disconnected ∧ c.step? (.move .expire) = some d ∧ d.journal.dials = 2 ∧
      Loses { failFast := false } longPause u v c ∧ d.clock = v.clock + 5000) ∧
    ∃ (c d : Client) (moves : List Move), (Client.start {}).run? longSilence = some c ∧
      c.phase = .verifying ∧ c.clock = 9000 ∧ c.run? (moves.map .move) = some d ∧
      d.clock = 4000 + 5000 ∧ (d.phase = .disconnected ∨ d.phase = .shutdown) := by
  constructor
  · have run : ((Client.start { failFast := false }).run? longPause).map
        (fun c => (c.phase, c.journal.dials, (c.step? (.move .expire)).map (·.journal.dials))) =
          some (.disconnected, 1, some 2) := by decide +kernel
    obtain ⟨c, hrun, views⟩ := Option.map_eq_some_iff.1 run
    obtain ⟨phase, views⟩ := Prod.mk.inj views
    obtain ⟨one, views⟩ := Prod.mk.inj views
    obtain ⟨d, happened, two⟩ := Option.map_eq_some_iff.1 views
    obtain ⟨-, dials, -⟩ := keeps_time hrun
    obtain ⟨-, first | ⟨u, v, loses, clock⟩⟩ := dials _ d happened (by rw [one, two]; decide)
    · rw [one] at first
      cases first
    · exact ⟨c, d, u, v, hrun, phase, happened, two, loses, clock⟩
  · have run : ((Client.start {}).run? longSilence).map
        (fun c => (c.phase, c.clock, c.journal.lastPhase?)) =
          some (.verifying, 9000, some (4000, .verifying)) := by decide +kernel
    obtain ⟨c, hrun, views⟩ := Option.map_eq_some_iff.1 run
    obtain ⟨phase, views⟩ := Prod.mk.inj views
    obtain ⟨now, last⟩ := Prod.mk.inj views
    obtain ⟨-, -, -, -, ends, -⟩ := keeps_time hrun
    rw [phase] at ends
    obtain ⟨moves, d, left, clock, shown⟩ :=
      ends (.inr rfl) 4000 5000 last rfl (Nat.le_of_eq now.symm)
    exact ⟨c, d, moves, hrun, phase, now, left, clock, shown⟩

end Client

end ClimateLink
