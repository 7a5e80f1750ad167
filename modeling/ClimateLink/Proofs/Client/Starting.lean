import ClimateLink.Proofs.Client.Answers

/-!
# How the call that starts a client returns

The call that starts a client may have to report a first attempt that fails, and then waits for
what becomes of it. Otherwise it returns at once, and the first attempt is like any other.

**Theorem (`answers_first_attempt`).** In every run, whatever dials and consoles do: the call
returns well exactly if the version comes in in time, and with the failure of that one attempt
otherwise, when all is closed; it always returns. Once it has returned well, failures are told to
calls that send and to nobody else. If it does not have to report the first attempt, a client that
loses an attempt dials again when its delay is over, unless it is told to stop before.

**The proof.** What the call returns was decided by one action (`exists_breaks`, `Breaks.doom`). It
returns because every move leaves less work, and a client that rests at its first attempt waits for
a deadline (`Reachable.answers`). From a loss to the next dial a client is `Stranded`, and the time
of that counts from the loss.
-/

namespace ClimateLink

open Journal

/-- The failure that an entry tells to whoever called. -/
def Occurrence.failure? : Occurrence → Option Failure
  | .answered (.error failure) | .refused failure | .returned _ (.error failure) => some failure
  | _ => none

namespace Client

variable {policy : Policy} {c d : Client} {a : Action}

/-! ## What a client comes to by itself -/

/-- With nothing but its own actions, the client comes to a state of which `P` holds. -/
def Comes (c : Client) (P : Client → Prop) : Prop :=
  ∃ more d, (∀ a ∈ more, Action.own a) ∧ c.run? more = some d ∧ P d

section Comes

variable {P : Client → Prop}

theorem comes_now (holds : P c) : Comes c P := ⟨[], c, by simp, rfl, holds⟩

theorem Comes.step (comes : Comes d P) (own : Action.own a) (happened : c.step? a = some d) :
    Comes c P := by
  obtain ⟨more, e, owns, run, holds⟩ := comes
  exact ⟨a :: more, e, List.forall_mem_cons.2 ⟨own, owns⟩,
    Option.bind_eq_some_iff.2 ⟨d, happened, run⟩, holds⟩

theorem Comes.moves (comes : Comes d P) {moves : List Move}
    (run : c.run? (moves.map .move) = some d) : Comes c P := by
  induction moves generalizing c with
  | nil =>
    cases run
    exact comes
  | cons m moves ih =>
    obtain ⟨next, moved, run⟩ := Option.bind_eq_some_iff.1 run
    exact (ih run).step rfl moved

end Comes

/-! ## The call returns -/

theorem Reachable.answers_of_expire (h : Reachable policy c) (unanswered : c.answer = none)
    (expired : c.step? (.move .expire) = some d) : Comes d fun e => e.answer.isSome := by
  cases happens_of_step? expired with
  | expireDial => exact comes_now (Option.isSome_of_mem (answer_lose unanswered _ _))
  | @expireSession k =>
    obtain ⟨moves, b, run, same, -⟩ :=
      exists_close (c := c.leave k (.lost false (.unverified c.policy.verifyTimeout))) rfl
    have waiting : ({ b with outbox := none }.note (.closed k)).answer = none :=
      same.answer.trans unanswered
    exact (comes_now (Option.isSome_of_mem (answer_lose waiting _ _))).moves run
  | expirePause _ stage => exact absurd stage (h.first unanswered).1.ne_pausing

/-- A client that rests at its first attempt waits for a deadline, on which it can act. -/
theorem Reachable.deadline_of_rest (h : Reachable policy c) (unanswered : c.answer = none)
    (rest : c.atRest) : ∃ time, c.deadline = some time ∧
      ∀ ms, ∃ d, { c with clock := c.clock + ms }.expire = some d := by
  obtain ⟨phase, shown, begun⟩ := phase?_of_atRest rest
  have learn : c.learn = none := atRest_iff.1 rest .learn
  cases (h.first unanswered).1 with
  | idle idle => exact absurd (Option.some.inj (shown.symm.trans idle)) begun
  | closing ending =>
    cases shown.symm.trans (Stage.phase?_eq_none_iff.2 (Option.isSome_of_mem ending))
  | dialing connecting =>
    have stage := Stage.phase?_eq_connecting_iff.1 connecting
    simp [deadline, expire, stage]
  | session verifying =>
    obtain ⟨k, waiting⟩ := Stage.phase?_eq_verifying_iff.1 verifying
    cases stage : c.stage with
    | verifying => simp [deadline, expire, stage]
    | asking k told =>
      cases told with
      | none => simp [deadline, expire, stage]
      | some outcome => cases outcome <;> simp [Client.learn, stage] at learn
    | idle | dialing | running | closing | pausing | stopped =>
      rw [stage] at waiting
      cases waiting

/-- A client that rests at its first attempt gives it up when the time is over. -/
theorem Reachable.answers_of_rest (h : Reachable policy c) (unanswered : c.answer = none)
    (rest : c.atRest) : Comes c fun d => d.answer.isSome := by
  obtain ⟨time, deadline, acts⟩ := h.deadline_of_rest unanswered rest
  have early : c.clock < time := by
    have notDue := not_due_of_atRest rest
    rw [due, deadline, Option.any_some] at notDue
    exact Nat.not_le.1 (of_decide_eq_false notDue)
  have now : c.clock + (time - c.clock) = time := Nat.add_sub_cancel' (Nat.le_of_lt early)
  let later : Client := { c with clock := c.clock + (time - c.clock) }
  have waited : c.step? (.elapse (time - c.clock)) = some later := by
    refine if_pos ⟨Nat.sub_pos_of_lt early, rest, ?_⟩
    rw [deadline, now]
    simp
  have due : later.due := by
    have same : later.deadline = some time := deadline
    rw [Client.due, same, Option.any_some]
    exact decide_eq_true (Nat.le_of_eq now.symm)
  obtain ⟨d, expired⟩ := acts (time - c.clock)
  have acted : later.step? (.move .expire) = some d := (if_pos due).trans expired
  exact (((h.step waited).answers_of_expire unanswered acted).step rfl acted).step rfl waited

/-- **The call that starts a client returns**, even if nobody but the client does anything. -/
theorem Reachable.answers (h : Reachable policy c) (unanswered : c.answer = none) :
    Comes c fun d => d.answer.isSome := by
  induction left : c.work using Nat.strong_induction_on generalizing c with
  | h n ih =>
    by_cases rest : c.atRest
    · exact h.answers_of_rest unanswered rest
    · obtain ⟨m, d, moved⟩ := exists_move_of_not_atRest rest
      have happened : c.step? (.move m) = some d := moved
      refine Comes.step ?_ rfl happened
      by_cases late : m = .expire
      · subst late
        exact h.answers_of_expire unanswered happened
      · cases known : d.answer with
        | some outcome => exact comes_now (Option.isSome_of_mem known)
        | none =>
          have less := work_lt (happens_of_move? moved) (.inl late)
          exact ih d.work (left ▸ less) (h.step happened) known rfl

/-- As long as the call has not returned, the time of the first attempt is not over. -/
theorem Reachable.clock_of_unanswered (h : Reachable policy c) (unanswered : c.answer = none) :
    c.clock ≤ policy.connectTimeout + policy.verifyTimeout ∧ c.journal.dials ≤ 1 := by
  rw [← h.policy]
  cases (h.first unanswered).1 with
  | idle shown clock =>
    rw [clock, (h.timed.idle shown).2]
    exact ⟨Nat.zero_le _, Nat.zero_le _⟩
  | dialing shown since _ dialled =>
    have late := h.timed.intime shown Phase.noConfusion rfl
    rw [since, Nat.zero_add] at late
    exact ⟨Nat.le_trans late (Nat.le_add_right _ _), Nat.le_of_eq dialled.dials⟩
  | session shown asked =>
    have late := h.timed.intime shown Phase.noConfusion rfl
    exact ⟨Nat.le_trans late (Nat.add_le_add_right asked.since _),
      Nat.le_of_eq asked.dialled.dials⟩
  | closing _ _ clock dialled => exact ⟨clock, Nat.le_of_eq dialled.dials⟩

/-! ## Once it has returned -/

/-- A step adds no answer, and tells a failure only to a call that sends: by refusing it, or when a
call returns whose frame was accepted. -/
structure Discreet (c : Client) (a : Action) (d : Client) : Prop where
  answer : d.answer = c.answer
  entries : ∃ new, d.journal = new ++ c.journal ∧ ∀ e ∈ new, (∀ outcome, e.2 ≠ .answered outcome) ∧
    ∀ failure, e.2.failure? = some failure →
      (e.2 = .refused failure ∧ ∃ r packet, a = .request r ∧ c.outgoing r = some packet) ∨
      ∃ ticket k frame, e.2 = .returned ticket (.error failure) ∧
        (ticket, frame) ∈ d.journal.accepted k

/-- **Failures are told to nobody but calls that send**, once the call that started the client has
returned. -/
theorem Reachable.discreet (h : Reachable policy c) (answered : c.answer.isSome)
    (happened : c.step? a = some d) : Discreet c a d := by
  obtain ⟨outcome, known⟩ := Option.isSome_iff_exists.1 answered
  refine ⟨(keeps_of_step? happened).answer answered, ?_⟩
  obtain ⟨new, grown, allowed⟩ := notes_of_happens (happens_of_step? happened)
  have unanswered {outcome : Outcome} (may : May c a (.answered outcome)) : False := by
    cases known.symm.trans may
  refine ⟨new, grown, fun e among => ?_⟩
  obtain ⟨t, o⟩ := e
  have may := allowed _ among
  refine ⟨?_, fun failure told => ?_⟩
  · rintro outcome rfl
    exact unanswered may
  · cases o with
    | answered => exact (unanswered may).elim
    | refused reason =>
      cases told
      obtain ⟨packet, r, made, sent⟩ := may
      exact .inl ⟨rfl, r, packet, made, sent⟩
    | returned ticket outcome =>
      cases outcome with
      | ok => cases told
      | error reason =>
        cases told
        obtain ⟨k, frame, mem⟩ := h.accepted_of_failed (List.mem_append_left _ may.2)
        exact .inr ⟨ticket, k, frame, rfl, (keeps_of_step? happened).accepted mem⟩
    | _ => cases told

/-! ## Attempts that are made again -/

theorem Reachable.answer_of_patient (h : Reachable policy c) (patient : ¬policy.failFast) :
    c.answer = some (.ok ()) :=
  h.induction (P := fun c => c.answer = some (.ok ())) (if_neg patient) fun answered happened =>
    (keeps_of_happens happened).answered answered

/-- Whoever is without a session, or on its way to stop, is not at an attempt. -/
theorem not_trying (away : c.stage.Last ∨ c.stage.Lost) : ¬c.stage.Trying := by
  have closing {ending : Ending} (ended : c.stage.ending? = some ending) : ¬c.stage.Trying := by
    rw [Stage.Trying, Stage.phase?_eq_none_iff.2 (Option.isSome_of_mem ended)]
    rintro (other | other | other) <;> cases other
  rcases away with (shown | ended) | (shown | ⟨verified, failure, ended⟩)
  · rw [Stage.Trying, shown]
    rintro (other | other | other) <;> cases other
  · exact closing ended
  · rw [Stage.Trying, shown]
    rintro (other | other | other) <;> cases other
  · exact closing ended

theorem since_of_loss (turns : Turns c d) (trying : c.stage.Trying) (lost : d.stage.Lost) :
    d.since = d.clock := by
  cases turns with
  | goesOn same =>
    refine absurd ?_ (not_trying (.inr lost))
    rwa [Stage.Trying, same.shown]
  | waits => exact absurd trying (not_trying (.inr lost))
  | leaves _ _ leaves => exact leaves.since.trans leaves.clock.symm
  | redials _ arrives | opens _ arrives | verifies _ arrives | pauses _ _ arrives
  | gives _ _ _ arrives | stops _ arrives => exact arrives.since.trans arrives.clock.symm

/-- From a loss until the next dial the client is without a session, or on its way to stop. -/
def Stranded (n now : Nat) (c : Client) : Prop :=
  n ≤ c.journal.dials ∧
    (c.journal.dials = n → c.stage.Last ∨ c.stage.Lost ∧ c.since = now)

theorem Stranded.step {n now : Nat} (stranded : Stranded n now c) (timed : Timed c)
    (turns : Turns c d) : Stranded n now d := by
  obtain ⟨atLeast, still⟩ := stranded
  -- A client that tries has dialled since the loss.
  have away (trying : c.stage.Trying) (same : d.journal.dials = c.journal.dials) :
      Stranded n now d := by
    refine ⟨same ▸ atLeast, fun none => ?_⟩
    exact absurd trying (not_trying ((still (same.symm.trans none)).imp_right And.left))
  have last {phase : Phase} (arrives : Arrives c d phase) (shutdown : phase = .shutdown) :
      Stranded n now d := by
    subst shutdown
    exact ⟨arrives.dials ▸ atLeast, fun _ => .inl (.inl arrives.shown)⟩
  cases turns with
  | goesOn same =>
    rw [Stranded, Stage.Last, Stage.Lost, same.dials, same.shown, same.ending, same.since]
    exact ⟨atLeast, still⟩
  | waits => exact ⟨atLeast, still⟩
  | leaves session _ leaves => exact away (Stage.trying_of_session? session) leaves.dials
  | redials _ arrives =>
    have more : d.journal.dials = c.journal.dials + 1 := arrives.dials
    exact ⟨by omega, fun none => by omega⟩
  | opens stage arrives => exact away (.inl (congrArg Stage.phase? stage)) arrives.dials
  | verifies session arrives =>
    obtain ⟨k, waiting⟩ := Option.isSome_iff_exists.1 session
    have held := Option.isSome_of_mem (Stage.session?_of_unverified? waiting)
    exact away (Stage.trying_of_session? held) arrives.dials
  | pauses bereft _ arrives =>
    rcases bereft with stage | ⟨verified, failure, ending⟩
    · exact away (.inl (congrArg Stage.phase? stage)) arrives.dials
    · refine ⟨arrives.dials ▸ atLeast, fun none => .inr ⟨.inl arrives.shown, ?_⟩⟩
      have closing := Stage.phase?_eq_none_iff.2 (Option.isSome_of_mem ending)
      rw [arrives.since, ← (timed.closing closing).1]
      rcases still (arrives.dials.symm.trans none) with (shown | ended) | ⟨-, since⟩
      · cases closing.symm.trans shown
      · cases ending.symm.trans ended
      · exact since
  | gives _ _ _ arrives | stops _ arrives => exact last arrives rfl

theorem Loses.reached {actions : List Action} {u v : Client}
    (loses : Loses policy actions u v c) : Reachable policy v := by
  obtain ⟨before, a, after, -, early, loss, -⟩ := loses.run
  exact (Reachable.start.run? early).step loss

/-- **A client that has lost an attempt or a session waits from then on**, or is on its way to
stop. -/
theorem Loses.stranded {actions : List Action} {u v : Client}
    (loses : Loses policy actions u v c) :
    c.stage.Last ∨ c.stage.Lost ∧ c.since = v.clock := by
  obtain ⟨before, a, after, -, -, loss, onward⟩ := loses.run
  have since := since_of_loss (turns_of_happens (happens_of_step? loss)) loses.trying loses.lost
  have start : Stranded v.journal.dials v.clock v :=
    ⟨Nat.le_refl _, fun _ => .inr ⟨loses.lost, since⟩⟩
  exact (loses.reached.run_induction start
    (fun h happened stranded =>
      stranded.step h.timed (turns_of_happens (happens_of_step? happened)))
    onward).2 loses.dials.symm

/-- A client that has answered pauses once it has closed the connection of a lost session. -/
theorem pauses_of_close (answered : c.answer.isSome) (k : Nat) (verified : Bool)
    (failure : Failure) : ∃ d, c.close k (.lost verified failure) = d ∧ d.stage = .pausing ∧
      d.since = c.clock ∧ d.clock = c.clock ∧ d.policy = c.policy ∧ d.stopping = c.stopping ∧
      d.journal.dials = c.journal.dials := by
  have closed : ({ c with outbox := none }.note (.closed k)).answer.isSome := answered
  refine ⟨_, rfl, ?_⟩
  rw [close, lose_of_answered closed]
  cases verified with
  | false =>
    refine ⟨rfl, rfl, rfl, rfl, rfl, ?_⟩
    show Journal.dials ((_, .entered .disconnected) :: (_, .closed k) :: c.journal) = _
    rw [dials_cons, dials_cons]
    rfl
  | true =>
    refine ⟨rfl, rfl, rfl, rfl, rfl, ?_⟩
    show Journal.dials
      ((_, .entered .disconnected) :: (_, .posted .disconnected) :: (_, .closed k) :: c.journal) = _
    rw [dials_cons, dials_cons, dials_cons]
    rfl

/-- **A client without a session comes to the next dial by itself**, when its delay is over. -/
theorem Reachable.redials (h : Reachable policy c) (lost : c.stage.Lost)
    (answered : c.answer.isSome) (on : ¬c.stopping) :
    Comes c fun d => d.journal.dials = c.journal.dials + 1 ∧
      d.clock = c.since + policy.reconnectDelay := by
  rw [← h.policy]
  rcases lost with shown | ⟨verified, failure, ending⟩
  · exact exists_dial (Stage.phase?_eq_disconnected_iff.1 shown) on
      (h.timed.intime shown Phase.noConfusion rfl)
  · -- The connection is closed first, in no time.
    have closing := Stage.phase?_eq_none_iff.2 (Option.isSome_of_mem ending)
    obtain ⟨k, stage⟩ := Stage.exists_closing ending
    obtain ⟨moves, b, run, same, still⟩ := exists_close stage
    obtain ⟨d, closed, pausing, since, clock, settings, stopping, dials⟩ :=
      pauses_of_close (c := b) (same.answer ▸ answered) k verified failure
    rw [closed] at run
    have stays : ¬d.stopping := by rwa [stopping, still]
    have dial := exists_dial pausing stays (by rw [since, clock]; exact Nat.le_add_right _ _)
    rw [dials, same.dials, since, same.clock, settings, same.policy,
      ← (h.timed.closing closing).1] at dial
    exact Comes.moves dial run

/-! ## How the call returns -/

/-- How the call that starts a client returns, if it has to report a first attempt that fails. -/
structure Verdict (policy : Policy) (actions : List Action) (c : Client) : Prop where
  /-- It returns well exactly if the first dial gives a connection in time and the version comes in
  on it in time. -/
  ok : c.answer = some (.ok ()) ↔ c.journal.Greeted policy
  /-- Otherwise it returns the failure to which an action brings that one attempt. -/
  error : ∀ failure, c.answer = some (.error failure) →
    ∃ u a, Breaks policy actions u a failure
  broken : ∀ u a failure, Breaks policy actions u a failure →
    c.answer = none ∨ c.answer = some (.error failure)
  /-- It returns in any case, and in time; until then there is one dial at most. -/
  pending : c.answer = none → c.clock ≤ policy.connectTimeout + policy.verifyTimeout ∧
    c.journal.dials ≤ 1 ∧ Comes c fun d => d.answer.isSome
  /-- When it has returned a failure, no connection is open, and none is ever dialled again. -/
  ended : ∀ failure, c.answer = some (.error failure) →
    c.phase = .shutdown ∧ c.journal.unclosed = [] ∧ c.journal.dials = 1

/-- **How the call that starts a client returns.** In every run, whatever dials and consoles do:

- if the call has to report a first attempt that fails, it returns well exactly if the first dial
  and the version are in time, and with the failure of that one attempt otherwise;
- once it has returned well, a failure is told to nobody but calls that send;
- if it does not have to report that, it has returned well from the start, and a client that loses
  an attempt, the first one or a later one, dials again exactly the delay after that. -/
theorem answers_first_attempt {actions : List Action}
    (run : (Client.start policy).run? actions = some c) :
    (policy.failFast → Verdict policy actions c) ∧
    (c.answer = some (.ok ()) → ∀ a d, c.step? a = some d → Discreet c a d) ∧
    (¬policy.failFast → c.answer = some (.ok ()) ∧ ∀ u v, Loses policy actions u v c →
      (∀ a d, c.step? a = some d → d.journal.dials ≠ c.journal.dials →
        d.clock = v.clock + policy.reconnectDelay) ∧
      (¬c.stopping → Comes c fun d => d.journal.dials = c.journal.dials + 1 ∧
        d.clock = v.clock + policy.reconnectDelay)) := by
  have h : Reachable policy c := Reachable.start.run? run
  refine ⟨fun reports => ⟨⟨h.greeted reports, fun greeted => ?_⟩, fun failure answered => ?_,
      fun u a failure breaks => ?_, fun unanswered => ?_, fun failure answered => ?_⟩,
    fun answered a d happened => h.discreet (Option.isSome_of_mem answered) happened,
    fun patient => ⟨h.answer_of_patient patient, fun u v loses => ⟨fun a d happened dialled => ?_,
      fun on => ?_⟩⟩⟩
  · by_contra failed
    exact h.not_heardVersion failed greeted.heardVersion
  · refine exists_breaks run ?_
    rw [doom?, answered]
  · have doom := breaks.doom run
    cases known : c.answer with
    | none => exact .inl rfl
    | some outcome =>
      rw [doom?, known] at doom
      cases outcome with
      | ok => cases doom
      | error reason =>
        cases doom
        exact .inr rfl
  · obtain ⟨clock, dials⟩ := h.clock_of_unanswered unanswered
    exact ⟨clock, dials, h.answers unanswered⟩
  · obtain ⟨stage, dials⟩ := h.of_error answered
    refine ⟨h.displayed.phase _ (congrArg Stage.phase? stage), ?_, dials⟩
    rw [h.wired.unclosed, stage]
    rfl
  · have begun : v.stage.phase? ≠ some .idle := by
      intro idle
      rcases loses.lost with shown | ⟨verified, failure, ending⟩
      · cases idle.symm.trans shown
      · cases idle.symm.trans (Stage.phase?_eq_none_iff.2 (Option.isSome_of_mem ending))
    obtain ⟨-, clock, first | ⟨stage, late⟩⟩ := h.dial_on_time happened dialled
    · exact absurd (loses.dials.trans first) (loses.reached.timed.started begun)
    · rcases loses.stranded with (shown | ended) | ⟨-, since⟩
      · cases shown.symm.trans (congrArg Stage.phase? stage)
      · cases ended.symm.trans (congrArg Stage.ending? stage)
      · rw [clock, late, since]
  · have answered := h.answer_of_patient patient
    rcases loses.stranded with last | ⟨lost, since⟩
    · rcases h.excused last with told | ⟨failure, failed⟩
      · exact absurd told on
      · cases answered.symm.trans failed
    · rw [← since]
      exact h.redials lost (Option.isSome_of_mem answered) on

/-- The first console takes the connection, and nothing can be written to it. -/
def unwritten : List Action :=
  [.move .start, .signal .connected, .move .take, .signal (.writeFailed "reset"), .move .learn,
    .move .close]

/-- The failed write is reported where that is asked for, and dialled over where it is not. -/
theorem answers_first_attempt_unwritten :
    (∃ c u a, (Client.start {}).run? unwritten = some c ∧
      c.answer = some (.error (.stream "reset")) ∧ Breaks {} unwritten u a (.stream "reset") ∧
      ¬c.journal.Greeted {} ∧ c.phase = .shutdown ∧ c.journal.unclosed = []) ∧
    ∃ c u v d, (Client.start { failFast := false }).run? (unwritten ++ [.elapse 5000]) = some c ∧
      c.answer = some (.ok ()) ∧ Loses { failFast := false } (unwritten ++ [.elapse 5000]) u v c ∧
      c.step? (.move .expire) = some d ∧ d.journal.dials = 2 ∧ d.clock = v.clock + 5000 := by
  constructor
  · have run : ((Client.start {}).run? unwritten).map Client.answer =
        some (some (.error (.stream "reset"))) := by decide +kernel
    obtain ⟨c, hrun, answer⟩ := Option.map_eq_some_iff.1 run
    obtain ⟨verdict, -, -⟩ := answers_first_attempt hrun
    obtain ⟨ok, error, -, -, ended⟩ := verdict rfl
    obtain ⟨u, a, breaks⟩ := error _ answer
    obtain ⟨phase, unclosed, -⟩ := ended _ answer
    refine ⟨c, u, a, hrun, answer, breaks, fun greeted => ?_, phase, unclosed⟩
    cases answer.symm.trans (ok.2 greeted)
  · have run : ((Client.start { failFast := false }).run? (unwritten ++ [.elapse 5000])).map
        (fun c => (c.stage, c.journal.dials, (c.step? (.move .expire)).map (·.journal.dials))) =
          some (.pausing, 1, some 2) := by decide +kernel
    obtain ⟨c, hrun, views⟩ := Option.map_eq_some_iff.1 run
    obtain ⟨stage, views⟩ := Prod.mk.inj views
    obtain ⟨one, views⟩ := Prod.mk.inj views
    obtain ⟨d, happened, two⟩ := Option.map_eq_some_iff.1 views
    obtain ⟨u, v, loses, -⟩ := exists_loss hrun (.inl (congrArg Stage.phase? stage))
    obtain ⟨-, -, retries⟩ := answers_first_attempt hrun
    obtain ⟨answer, again⟩ := retries Bool.false_ne_true
    refine ⟨c, u, v, d, hrun, answer, loses, happened, two, ?_⟩
    refine (again u v loses).1 _ d happened ?_
    rw [one, two]
    decide

/-- The request for the version goes out as a whole, and then a read fails. -/
def brokenRead : List Action :=
  [.move .start, .signal .connected, .move .take, .signal (.wrote 14), .signal .flushed,
    .move .learn, .signal (.readFailed "reset"), .move .halt, .move .close]

/-- The first dial fails, and the client is told to stop before its delay is over. -/
def unretried : List Action :=
  [.move .start, .signal (.refused "connection refused"), .elapse 1, .request .disconnect,
    .move .heed]

/-- A first attempt can fail with the stream though nothing failed to be written, and one that
failed is not made again by a client that is told to stop. -/
theorem answers_first_attempt_brokenRead :
    (∃ c, (Client.start {}).run? brokenRead = some c ∧
      c.answer = some (.error (.stream "reset")) ∧
      (∃ id, Frame.encode (versionRequest id) = .ok (c.journal.wire 0)) ∧
      (∀ reason, .signal (.writeFailed reason) ∉ brokenRead) ∧ .signal .ended ∉ brokenRead ∧
      c.clock < ({} : Policy).verifyTimeout) ∧
    ∃ c, (Client.start { failFast := false }).run? unretried = some c ∧
      c.journal.dials = 1 ∧ ∀ actions d, c.run? actions = some d → d.journal.dials = 1 := by
  constructor
  · have run : ((Client.start {}).run? brokenRead).map (fun c => (c.answer, c.clock,
        decide (Frame.encode (versionRequest 1) = .ok (c.journal.wire 0)))) =
          some (some (.error (.stream "reset")), 0, true) := by
      decide +kernel
    obtain ⟨c, hrun, seen⟩ := Option.map_eq_some_iff.1 run
    obtain ⟨answer, seen⟩ := Prod.mk.inj seen
    obtain ⟨clock, written⟩ := Prod.mk.inj seen
    refine ⟨c, hrun, answer, ⟨1, of_decide_eq_true written⟩, ?_, by decide, ?_⟩
    · simp [brokenRead]
    · rw [clock]
      decide
  · have run : ((Client.start { failFast := false }).run? unretried).map
        (fun c => (c.stage, c.journal.dials)) = some (.stopped, 1) := by
      decide +kernel
    obtain ⟨c, hrun, seen⟩ := Option.map_eq_some_iff.1 run
    obtain ⟨stage, dials⟩ := Prod.mk.inj seen
    exact ⟨c, hrun, dials, fun actions d onward => (dials_of_stopped stage onward).trans dials⟩

end Client

end ClimateLink
