import ClimateLink.Proofs.Client.Calls
import ClimateLink.Proofs.Client.FirstAttempt
import ClimateLink.Proofs.Client.Retrying

/-!
# How a first attempt ends

The call that starts a client may have to report a first attempt that fails. It then returns well
only with the version of the console, and otherwise with the failure of that one attempt.

**Theorem (`Reachable.greeted`).** If it returns well, the first dial gave a connection in time and
the version came in on it in time.

**Theorem (`Reachable.not_heardVersion`).** If it has not returned well, the version has not come
in.

**Theorem (`exists_breaks`, `Breaks.doom`).** The failure with which it returns is that of the
action by which the attempt failed.
-/

namespace ClimateLink

open Framer Journal

/-! ## Attempts that succeed -/

/-- The first dial gives a connection in time, and the version comes in on it in time. -/
def Journal.Greeted (policy : Policy) (j : Journal) : Prop :=
  ∃ (dialled opened read : Nat) (chunk : Bytes) (later earlier : Journal),
    j = later ++ (read, .heard 0 chunk) :: earlier ∧
    earlier.dials = 1 ∧ (dialled, .dialled) ∈ earlier ∧ (opened, .opened 0) ∈ earlier ∧
    opened ≤ dialled + policy.connectTimeout ∧ read ≤ opened + policy.verifyTimeout ∧
    HeardVersion ((read, .heard 0 chunk) :: earlier) 0

theorem Journal.Greeted.mono {policy : Policy} {older newer : Journal}
    (greeted : older.Greeted policy) (grown : older <:+ newer) : newer.Greeted policy := by
  obtain ⟨dialled, opened, read, chunk, later, earlier, rfl, rest⟩ := greeted
  obtain ⟨more, rfl⟩ := grown
  exact ⟨dialled, opened, read, chunk, more ++ later, earlier, (List.append_assoc ..).symm, rest⟩

theorem Journal.Greeted.heardVersion {policy : Policy} {j : Journal} (greeted : j.Greeted policy) :
    j.HeardVersion 0 := by
  obtain ⟨_, _, read, chunk, later, earlier, rfl, -, -, -, -, -, heard⟩ := greeted
  exact heard.mono (List.suffix_append _ _)

namespace Client

variable {policy : Policy} {c d : Client} {a : Action}

/-- The version that comes in at the first attempt is in time. -/
theorem Reachable.greets (h : Reachable policy c) (unanswered : c.answer = none) {k : Nat}
    {framer : Framer} {chunk : Bytes} {version : Packet} (stage : c.stage = .verifying k framer)
    (read : version ∈ (framer.push chunk).1) (isVersion : version.payload.isVersion) :
    Journal.Greeted policy ((c.clock, .heard k chunk) :: c.journal) := by
  obtain ⟨rfl, waiting, asked⟩ := (h.first unanswered).1.asked (congrArg Stage.session? stage)
  have faithful := faithful_of_reachable h
  have latest := faithful.connection 0 asked.connection
  obtain ⟨course, -, agrees, -⟩ := faithful.account 0 (by omega)
  have agreed := agrees latest
  rw [stage] at agreed
  have heard : HeardVersion ((c.clock, .heard 0 chunk) :: c.journal) 0 := by
    refine ⟨version, ?_, isVersion⟩
    have whole : Journal.heard 0 ((c.clock, .heard 0 chunk) :: c.journal) =
        Journal.heard 0 c.journal ++ chunk := heard_cons ..
    rw [whole, push_append, ← agreed.1]
    exact List.mem_append_right _ read
  have shown := Stage.phase?_eq_verifying_iff.2 ⟨0, waiting⟩
  have late : c.clock ≤ c.since + c.policy.verifyTimeout :=
    h.timed.intime shown Phase.noConfusion rfl
  have soon := asked.since
  rw [h.policy] at soon late
  exact ⟨0, c.since, c.clock, chunk, [], c.journal, rfl, asked.dialled.dials, asked.dialled.first,
    asked.opened, by rwa [Nat.zero_add], late, heard⟩

/-- A client that has answered well has done so before, or the version comes in now. -/
theorem Reachable.answer_ok (h : Reachable policy c) (happened : c.step? a = some d)
    (answered : d.answer = some (.ok ())) :
    c.answer = some (.ok ()) ∨ c.answer = none ∧ d.journal.Greeted policy := by
  cases unanswered : c.answer with
  | some outcome =>
    have still := (keeps_of_step? happened).answered unanswered
    exact .inl (still.symm.trans answered)
  | none =>
    refine .inr ⟨rfl, ?_⟩
    obtain ⟨first, -⟩ := h.first unanswered
    cases happens_of_step? happened with
    | start | heedAlone | heed | expireSession | expirePause | learn | learnFailure | desert
    | take | advance | collect | hearNothing | ended | readFailed | wrote | elapse =>
      cases unanswered.symm.trans answered
    | expireDial | refused => cases (answer_lose unanswered _ _).symm.trans answered
    | halt =>
      rw [halt, deliver_eq] at answered
      cases unanswered.symm.trans answered
    | flushed | writeFailed =>
      rw [deliver_eq] at answered
      cases unanswered.symm.trans answered
    | @close k ending stage =>
      obtain ⟨failure, rfl⟩ := first.of_closing stage
      have closed : ({ c with outbox := none }.note (.closed k)).answer = none := unanswered
      cases (answer_lose closed false failure).symm.trans answered
    | connected =>
      cases unanswered.symm.trans ((arrives_begin c).2.symm.trans answered)
    | hear =>
      rw [postAll_eq] at answered
      cases unanswered.symm.trans answered
    | send _ held | sendPacket _ held | build _ held | disconnect held | release held =>
      exact absurd held (not_held unanswered)
    | @hearVersion k framer chunk before after version size stage packets _ isVersion =>
      have read : version ∈ (framer.push chunk).1 := by
        rw [packets]
        exact List.mem_append_right _ List.mem_cons_self
      refine (h.greets unanswered stage read isVersion).mono ?_
      rw [postAll_eq, reply_eq]
      refine List.IsSuffix.trans ?_ (List.suffix_append _ _)
      refine List.IsSuffix.trans ?_ (List.suffix_append _ _)
      exact (List.suffix_cons _ _).trans (List.suffix_cons _ _)

/-- **Where a failed first attempt is reported, the call returns well only with the version.** -/
theorem Reachable.greeted (h : Reachable policy c) (reports : policy.failFast)
    (answered : c.answer = some (.ok ())) : c.journal.Greeted policy := by
  induction h with
  | start =>
    rw [Client.start, reports] at answered
    cases answered
  | step before happened ih =>
    rcases before.answer_ok happened answered with earlier | ⟨-, now⟩
    · exact (ih earlier).mono (keeps_of_step? happened).journal
    · exact now

/-! ## Attempts that fail -/

theorem Turns.of_stopped (turns : Turns c d) (stage : c.stage = .stopped) :
    d.stage = .stopped ∧ d.journal.dials = c.journal.dials := by
  cases turns with
  | goesOn same =>
    have shown := congrArg Stage.phase? stage
    exact ⟨Stage.phase?_eq_shutdown_iff.1 (same.shown.trans shown), same.dials⟩
  | waits => exact ⟨stage, rfl⟩
  | leaves session | verifies session =>
    rw [stage] at session
    cases session
  | opens other => cases stage.symm.trans other
  | redials ready =>
    rw [stage] at ready
    rcases ready with other | ⟨other, -⟩ <;> cases other
  | pauses bereft | gives _ bereft =>
    rcases bereft with other | ⟨verified, failure, ending⟩
    · cases stage.symm.trans other
    · rw [stage] at ending
      cases ending
  | stops told =>
    rw [stage] at told
    rcases told with ⟨-, other | other⟩ | other <;> cases other

theorem dials_of_stopped {actions : List Action} (stage : c.stage = .stopped)
    (run : c.run? actions = some d) : d.journal.dials = c.journal.dials := by
  induction actions generalizing c with
  | nil =>
    cases run
    rfl
  | cons a actions ih =>
    obtain ⟨next, happened, onward⟩ := Option.bind_eq_some_iff.1 run
    obtain ⟨still, same⟩ := (turns_of_happens (happens_of_step? happened)).of_stopped stage
    exact (ih still onward).trans same

/-- **Whoever answers with a failure has stopped**, and has dialled once. -/
theorem Reachable.of_error (h : Reachable policy c) {failure : Failure}
    (answered : c.answer = some (.error failure)) :
    c.stage = .stopped ∧ c.journal.dials = 1 := by
  induction h with
  | start =>
    rw [Client.start] at answered
    split at answered <;> cases answered
  | @step c d a before happened ih =>
    have turns := turns_of_happens (happens_of_step? happened)
    cases known : c.answer with
    | none =>
      obtain ⟨first, -⟩ := before.first known
      cases turns with
      | gives _ bereft _ arrives =>
        refine ⟨Stage.phase?_eq_shutdown_iff.1 arrives.shown, arrives.dials.trans ?_⟩
        -- A dial failed, or the connection of a session is closed that was lost.
        rcases bereft with stage | ⟨verified, reason, ending⟩
        · exact (first.of_dialing stage).2.2.dials
        · cases first with
          | closing _ _ _ dialled => exact dialled.dials
          | idle shown | dialing shown | session shown =>
            have ended := Stage.phase?_eq_none_iff.2 (Option.isSome_of_mem ending)
            cases shown.symm.trans ended
      | goesOn same => cases known.symm.trans (same.answer.symm.trans answered)
      | leaves _ _ leaves => cases known.symm.trans (leaves.answer.symm.trans answered)
      | redials _ _ answer | opens _ _ answer | stops _ _ answer =>
        cases known.symm.trans (answer.symm.trans answered)
      | verifies _ _ answer =>
        rw [known] at answer
        cases answer.symm.trans answered
      | pauses _ some =>
        rw [known] at some
        cases some
      | waits => cases known.symm.trans answered
    | some outcome =>
      cases ((keeps_of_step? happened).answered known).symm.trans answered
      obtain ⟨stage, dials⟩ := ih known
      exact (turns.of_stopped stage).imp_right fun same => same.trans dials

/-- The version has not come in on the connection of a first attempt that goes on. -/
theorem Reachable.not_heardVersion_of_unanswered (h : Reachable policy c)
    (unanswered : c.answer = none) : ¬c.journal.HeardVersion 0 := by
  have faithful := faithful_of_reachable h
  have nothing : (empty.push []).1 = [] := congrArg Prod.fst (push_nil_after [])
  have unheard (none : c.connections = 0) : ¬c.journal.HeardVersion 0 := by
    rintro ⟨p, among, -⟩
    rw [(faithful.unopened 0 (Nat.le_of_eq none)).1, nothing] at among
    cases among
  cases (h.first unanswered).1 with
  | idle _ _ connections | dialing _ _ connections => exact unheard connections
  | session shown asked =>
    obtain ⟨k, waiting⟩ := Stage.phase?_eq_verifying_iff.1 shown
    have session := Stage.session?_of_unverified? waiting
    cases (Stage.connection?_of_session? session).symm.trans asked.connection
    intro heard
    cases waiting.symm.trans ((h.heardVersion_iff session).1 heard)
  | closing ending connection =>
    -- A session that is lost without being verified leaves its account as it was.
    have latest := faithful.connection 0 connection
    obtain ⟨course, account, agrees, -⟩ := faithful.account 0 (by omega)
    have agreed := agrees latest
    obtain ⟨k, stage⟩ := Stage.exists_closing ending
    rw [stage] at agreed
    cases agreed
    cases account with
    | unverified passed =>
      rintro ⟨p, among, version⟩
      have other := passed p among
      rw [version] at other
      cases other

theorem heard_of_happens (h : Happens c a d) (unread : ∀ chunk, a ≠ .signal (.received chunk))
    (k : Nat) : d.journal.heard k = c.journal.heard k := by
  refine congrArg List.flatten ((notes_of_happens h).collect fun o may => ?_)
  cases o with
  | heard l chunk => exact absurd may.1 (unread chunk)
  | _ => rfl

theorem Reachable.unread (h : Reachable policy c) (happened : c.step? a = some d)
    {failure : Failure} (answered : d.answer = some (.error failure)) (chunk : Bytes) :
    a ≠ .signal (.received chunk) := by
  rintro rfl
  obtain ⟨-, heard⟩ := Option.ite_none_right_eq_some.1 happened
  obtain ⟨k, reading, -⟩ := Option.map_eq_some_iff.1 heard
  cases known : c.answer with
  | none =>
    obtain ⟨framer, stage⟩ := (h.first known).1.verifying reading
    have doom := h.doom_step known happened
    rw [doom?_of_unanswered known, stage, doom?, answered] at doom
    cases doom
  | some outcome =>
    cases ((keeps_of_step? happened).answered known).symm.trans answered
    rw [Client.reading, (h.of_error known).1] at reading
    cases reading

/-- **The version comes in on the first connection only for a client that answers well.** -/
theorem Reachable.not_heardVersion (h : Reachable policy c) (failed : c.answer ≠ some (.ok ())) :
    ¬c.journal.HeardVersion 0 := by
  induction h with
  | start =>
    refine Reachable.start.not_heardVersion_of_unanswered ?_
    rw [Client.start] at failed ⊢
    cases reports : policy.failFast
    · rw [reports] at failed
      exact absurd rfl failed
    · rfl
  | @step c d a before happened ih =>
    cases known : d.answer with
    | none => exact (before.step happened).not_heardVersion_of_unanswered known
    | some outcome =>
      cases outcome with
      | ok => exact absurd known failed
      | error failure =>
        have earlier : c.answer ≠ some (.ok ()) := fun ok =>
          failed ((keeps_of_step? happened).answered ok)
        have same := heard_of_happens (happens_of_step? happened) (before.unread happened known) 0
        rw [HeardVersion, same]
        exact ih earlier

/-! ## The failure that is reported -/

/-- On a run, the action `a` in the state `u` brings the first attempt to a failure. Where it acts
on a deadline, that has come just now. -/
structure Breaks (policy : Policy) (actions : List Action) (u : Client) (a : Action)
    (failure : Failure) : Prop where
  run : ∃ before v after, actions = before ++ a :: after ∧
    (Client.start policy).run? before = some u ∧ u.step? a = some v
  unanswered : u.answer = none
  breach : u.breach? a = some failure
  late : a = .move .expire → u.deadline = some u.clock

/-- A deadline is acted on as soon as it has come. -/
theorem Reachable.deadline_of_expire (h : Reachable policy c)
    (happened : c.step? (.move .expire) = some d) : c.deadline = some c.clock := by
  obtain ⟨due, -⟩ := Option.ite_none_right_eq_some.1 happened
  rw [Client.due] at due
  obtain ⟨time, deadline, past⟩ := (Option.any_eq_true _ _).1 due
  have found := deadline
  rw [deadline_eq] at found
  obtain ⟨limit, limited, rfl⟩ := Option.map_eq_some_iff.1 found
  obtain ⟨phase, shown, limited⟩ := Option.bind_eq_some_iff.1 limited
  have begun : phase ≠ .idle := by
    rintro rfl
    cases limited
  have intime := h.timed.intime shown begun limited
  rw [deadline, Nat.le_antisymm intime (of_decide_eq_true past)]

theorem Breaks.snoc {actions : List Action} {u : Client} {b : Action} {failure : Failure}
    (breaks : Breaks policy actions u b failure) (a : Action) :
    Breaks policy (actions ++ [a]) u b failure := by
  obtain ⟨before, v, after, rfl, early, happened⟩ := breaks.run
  refine { breaks with run := ⟨before, v, after ++ [a], ?_, early, happened⟩ }
  rw [List.append_assoc, List.cons_append]

/-- The failure of the first attempt is that of one action of the run. -/
theorem exists_breaks {actions : List Action} (run : (Client.start policy).run? actions = some c)
    {failure : Failure} (doom : c.doom? = some failure) :
    ∃ u a, Breaks policy actions u a failure := by
  induction actions using List.reverseRecOn generalizing c with
  | nil =>
    cases run
    rw [doom?, Client.start] at doom
    cases reports : policy.failFast <;> rw [reports] at doom <;> cases doom
  | append_singleton actions a ih =>
    obtain ⟨b, before, happened⟩ := run?_concat run
    have reached : Reachable policy b := Reachable.start.run? before
    have extend (earlier : b.doom? = some failure) :
        ∃ u x, Breaks policy (actions ++ [a]) u x failure := by
      obtain ⟨u, x, breaks⟩ := ih before earlier
      exact ⟨u, x, breaks.snoc a⟩
    cases known : b.answer with
    | some outcome =>
      have still := (keeps_of_step? happened).answered known
      exact extend ((doom?_of_answer known still).symm.trans doom)
    | none =>
      rw [reached.doom_step known happened] at doom
      rcases Option.or_eq_some_iff.1 doom with earlier | ⟨-, breach⟩
      · exact extend earlier
      · refine ⟨b, a, ⟨actions, c, [], rfl, before, happened⟩, known, breach, ?_⟩
        rintro rfl
        exact reached.deadline_of_expire happened

theorem Reachable.doom_stays (h : Reachable policy c) (happened : c.step? a = some d)
    {failure : Failure} (doom : c.doom? = some failure) : d.doom? = some failure := by
  cases known : c.answer with
  | none => rw [h.doom_step known happened, doom, Option.some_or]
  | some outcome =>
    have still := (keeps_of_step? happened).answered known
    exact (doom?_of_answer known still).trans doom

/-- An action that brings the first attempt to a failure decides how the call returns. -/
theorem Breaks.doom {actions : List Action} (run : (Client.start policy).run? actions = some c)
    {u : Client} {failure : Failure} (breaks : Breaks policy actions u a failure) :
    c.doom? = some failure := by
  obtain ⟨before, v, after, rfl, early, happened⟩ := breaks.run
  have reached : Reachable policy u := Reachable.start.run? early
  rw [run?_append, early, Option.bind_some] at run
  obtain ⟨w, same, onward⟩ := Option.bind_eq_some_iff.1 run
  cases happened.symm.trans same
  have first : v.doom? = some failure := by
    have none := doom?_eq_none_of_breach? breaks.unanswered breaks.breach
    rw [reached.doom_step breaks.unanswered happened, none, breaks.breach, Option.none_or]
  exact (reached.step happened).run_induction (P := fun b => b.doom? = some failure) first
    (fun earlier step doom => earlier.doom_stays step doom) onward

end Client

end ClimateLink
