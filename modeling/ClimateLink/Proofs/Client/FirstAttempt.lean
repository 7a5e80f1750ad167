import ClimateLink.Proofs.Client.Deadlines

/-!
# The first attempt

A client that has not answered the call that started it is at its first attempt: it has not begun,
it dials, it asks the console for its version, or it closes the connection of an attempt that
failed. Nobody holds it yet, so nobody can tell it to stop.

**The invariant (`First`).** The first dial was started at once, and there was no other. What is
handed in for the connection is the request for the version and nothing else, so what the writer
comes to is what becomes of that request.

**Theorem (`Reachable.doom_step`).** An attempt fails by one action, which decides the failure
(`Client.breach?`), and nothing that comes later changes it.
-/

namespace ClimateLink

/-- Nothing is known yet of the request for the version. -/
def Stage.asks : Stage → Bool
  | .asking _ none => true
  | _ => false

/-- The failure that ends a session which is not verified. -/
def Stage.doom? : Stage → Option Failure
  | .asking _ (some (.error failure)) => some failure
  | .closing _ (.lost _ failure) => some failure
  | _ => none

namespace Client

variable {policy : Policy} {c d : Client} {a : Action}

/-! ## The invariant -/

/-- The first dial was started at once, and there was no other. -/
structure Dialled (c : Client) : Prop where
  dials : c.journal.dials = 1
  first : (0, .dialled) ∈ c.journal

/-- The request for the version is the only frame, until something is known of it. -/
def Requested (c : Client) : Prop :=
  ∃ box, c.outbox = some box ∧ box.pending.map Job.sender = if c.stage.asks then [.client] else []

/-- The first session waits for the version. -/
structure Asked (c : Client) : Prop where
  connection : c.stage.connection? = some 0
  since : c.since ≤ c.policy.connectTimeout
  opened : (c.since, .opened 0) ∈ c.journal
  dialled : Dialled c
  requested : Requested c

/-- Where a client is that has not answered yet. -/
inductive First (c : Client) : Prop where
  | idle (shown : c.stage.phase? = some .idle) (clock : c.clock = 0)
    (connections : c.connections = 0)
  | dialing (shown : c.stage.phase? = some .connecting) (since : c.since = 0)
    (connections : c.connections = 0) (dialled : Dialled c)
  | session (shown : c.stage.phase? = some .verifying) (asked : Asked c)
  | closing {failure : Failure} (ending : c.stage.ending? = some (.lost false failure))
    (connection : c.stage.connection? = some 0)
    (clock : c.clock ≤ c.policy.connectTimeout + c.policy.verifyTimeout) (dialled : Dialled c)

/-- Something that leaves open what is shown, the connection and the request. -/
theorem First.goesOn (first : First c) (same : SameShown c d)
    (connection : d.stage.connection? = c.stage.connection?)
    (connections : d.connections = c.connections)
    (request : c.stage.phase? = some .verifying → Requested c → Requested d) : First d := by
  have journal := same.notes.suffix
  have dialling (dialled : Dialled c) : Dialled d :=
    ⟨same.dials.trans dialled.dials, journal.subset dialled.first⟩
  cases first with
  | idle shown clock none =>
    exact .idle (same.shown.trans shown) (same.clock.trans clock) (connections.trans none)
  | dialing shown since none dialled =>
    exact .dialing (same.shown.trans shown) (same.since.trans since) (connections.trans none)
      (dialling dialled)
  | session shown asked =>
    refine .session (same.shown.trans shown) ⟨connection.trans asked.connection, ?_, ?_,
      dialling asked.dialled, request shown asked.requested⟩
    · rw [same.since, same.policy]
      exact asked.since
    · rw [same.since]
      exact journal.subset asked.opened
  | closing ending held clock dialled =>
    refine .closing (same.ending.trans ending) (connection.trans held) ?_ (dialling dialled)
    rw [same.clock, same.policy]
    exact clock

/-- A session of a client that has not answered is the first one, and not verified. -/
theorem First.asked (first : First c) {k : Nat} (held : c.stage.session? = some k) :
    k = 0 ∧ c.stage.unverified? = some 0 ∧ Asked c := by
  cases first with
  | session shown asked =>
    obtain ⟨l, waiting⟩ := Stage.phase?_eq_verifying_iff.1 shown
    have session := Stage.session?_of_unverified? waiting
    cases held.symm.trans session
    cases (Stage.connection?_of_session? session).symm.trans asked.connection
    exact ⟨rfl, waiting, asked⟩
  | idle shown | dialing shown | closing ending =>
    cases stage : c.stage <;> simp_all [Stage.phase?, Stage.session?, Stage.ending?]

theorem First.of_dialing (first : First c) (stage : c.stage = .dialing) :
    c.since = 0 ∧ c.connections = 0 ∧ Dialled c := by
  cases first with
  | dialing _ since connections dialled => exact ⟨since, connections, dialled⟩
  | idle shown | session shown | closing ending =>
    simp_all [Stage.phase?, Stage.ending?]

theorem Requested.in_hand (requested : Requested c) {box : Outbox} {job : Job} {rest : Bytes}
    (outbox : c.outbox = some box) (inHand : box.inHand = some (job, rest)) :
    ∃ k, c.stage = .asking k none ∧ job.sender = .client ∧ box.queue ++ box.waiting = [] := by
  obtain ⟨same, queued, senders⟩ := requested
  cases outbox.symm.trans queued
  rw [Outbox.pending_eq_cons inHand, List.map_cons] at senders
  split at senders
  · next asks =>
    obtain ⟨sender, behind⟩ := List.cons.inj senders
    unfold Stage.asks at asks
    split at asks
    · next k stage => exact ⟨k, stage, sender, List.map_eq_nil_iff.1 behind⟩
    · cases asks
  · cases senders

theorem First.of_closing (first : First c) {k : Nat} {ending : Ending}
    (stage : c.stage = .closing k ending) : ∃ failure, ending = .lost false failure := by
  cases first with
  | closing ended =>
    rw [stage] at ended
    exact ⟨_, Option.some.inj ended⟩
  | idle shown | dialing shown | session shown =>
    rw [stage] at shown
    cases shown

theorem First.ne_running (first : First c) (k : Nat) (framer : Framer) :
    c.stage ≠ .running k framer := by
  intro stage
  obtain ⟨-, waiting, -⟩ := first.asked (congrArg Stage.session? stage)
  rw [stage] at waiting
  cases waiting

theorem First.ne_pausing (first : First c) : c.stage ≠ .pausing := by
  intro stage
  cases first with
  | idle shown | dialing shown | session shown =>
    rw [stage] at shown
    cases shown
  | closing ended =>
    rw [stage] at ended
    cases ended

/-! ## What keeps it -/

/-- What is done with the outbox alone leaves the request where it was among the frames. -/
theorem Requested.move {box after : Outbox} (requested : Requested c) (outbox : c.outbox = some box)
    (same : after.pending.Perm box.pending) (stage : d.stage = c.stage)
    (next : d.outbox = some after) : Requested d := by
  obtain ⟨held, queued, senders⟩ := requested
  cases outbox.symm.trans queued
  have still := same.map Job.sender
  rw [senders] at still
  refine ⟨after, next, ?_⟩
  rw [stage]
  split_ifs at still ⊢
  · exact List.perm_singleton.1 still
  · exact List.perm_nil.1 still

/-- What leaves the outbox alone leaves the request alone, as long as it waits for the same. -/
theorem Requested.stays (requested : Requested c) (outbox : d.outbox = c.outbox)
    (asks : d.stage.asks = c.stage.asks) : Requested d := by
  rw [Requested, outbox, asks]
  exact requested

theorem First.leave (first : First c) (timed : Timed c) {k : Nat} (held : c.stage.session? = some k)
    (failure : Failure) : First (c.leave k (.lost false failure)) := by
  obtain ⟨rfl, waiting, asked⟩ := first.asked held
  have shown := Stage.phase?_eq_verifying_iff.2 ⟨0, waiting⟩
  have late : c.clock ≤ c.since + c.policy.verifyTimeout :=
    timed.intime shown Phase.noConfusion rfl
  refine .closing rfl rfl ?_ ⟨asked.dialled.dials, asked.dialled.first⟩
  exact Nat.le_trans late (Nat.add_le_add_right asked.since _)

theorem First.dial (first : First c) (timed : Timed c) (stage : c.stage = .idle) :
    First c.dial := by
  cases first with
  | idle shown clock connections =>
    have none := (timed.idle shown).2
    have dials : c.dial.journal.dials = 1 := by
      rw [(arrives_dial c).dials, none]
      rfl
    refine .dialing rfl clock connections ⟨dials, ?_⟩
    rw [← clock]
    exact List.mem_cons_self
  | dialing shown | session shown | closing ending =>
    rw [stage] at *
    contradiction

theorem First.begin (first : First c) (timed : Timed c) (stage : c.stage = .dialing) :
    First c.begin := by
  obtain ⟨since, connections, dialled⟩ := first.of_dialing stage
  have shown : c.stage.phase? = some .connecting := congrArg Stage.phase? stage
  have late : c.clock ≤ c.since + c.policy.connectTimeout :=
    timed.intime shown Phase.noConfusion rfl
  have dials := (arrives_begin c).1.dials
  obtain ⟨frame, -, begun⟩ := c.begin_eq
  rw [begun] at dials ⊢
  refine .session rfl ⟨congrArg some connections, ?_, ?_, ⟨dials.trans dialled.dials, ?_⟩, ?_⟩
  · rwa [since, Nat.zero_add] at late
  · rw [connections]
    simp
  · simp [dialled.first]
  · exact ⟨_, rfl, rfl⟩

theorem First.quit (first : First c) (timed : Timed c) {k : Nat} (reading : c.reading = some k)
    (failure : Failure) : First (c.leave k (.lost c.verified failure)) := by
  obtain ⟨held, verified⟩ := session?_of_reading reading
  obtain ⟨-, waiting, -⟩ := first.asked held
  rw [waiting, Option.isSome_some, eq_comm, Bool.not_eq_true'] at verified
  rw [verified]
  exact first.leave timed held failure

theorem closeBehind_eq_nil {box : Outbox} (alone : box.queue ++ box.waiting = []) :
    box.closeBehind = [] := by
  obtain ⟨queue, waiting⟩ := List.append_eq_nil_iff.1 alone
  rw [Outbox.closeBehind, Outbox.behind, queue, waiting]
  rfl

/-- What becomes of a frame in hand is what becomes of the request. -/
theorem Requested.settle (requested : Requested c) {box after : Outbox} {job : Job} {rest : Bytes}
    {outcome : Outcome} {behind : List (Sender × Outcome)} (outbox : c.outbox = some box)
    (inHand : box.inHand = some (job, rest))
    (alone : box.queue ++ box.waiting = [] → behind = [] ∧ after.pending = [])
    (next : d = { c with outbox := some after }.deliver ((job.sender, outcome) :: behind)) :
    (∃ k, c.stage = .asking k none ∧ d.stage = .asking k (some outcome)) ∧ Requested d := by
  obtain ⟨k, stage, sender, others⟩ := requested.in_hand outbox inHand
  obtain ⟨rfl, nothing⟩ := alone others
  have told : d.stage = .asking k (some outcome) := by
    rw [next, deliver_eq, sender]
    show Client.told c.stage _ = _
    rw [stage]
    rfl
  refine ⟨⟨k, stage, told⟩, after, ?_, ?_⟩
  · rw [next, outbox_deliver]
  · rw [nothing, told]
    rfl

theorem Requested.flush (requested : Requested c) {box after : Outbox} {sender : Sender}
    (outbox : c.outbox = some box) (done : box.flush = some (after, sender)) :
    (∃ k, c.stage = .asking k none ∧
      ({ c with outbox := some after }.deliver [(sender, .ok ())]).stage =
        .asking k (some (.ok ()))) ∧
    Requested ({ c with outbox := some after }.deliver [(sender, .ok ())]) := by
  obtain ⟨job, inHand, rfl, rfl⟩ := Outbox.flush_eq_some done
  refine requested.settle outbox inHand (fun alone => ⟨rfl, ?_⟩) rfl
  exact alone

theorem Requested.fail (requested : Requested c) {box after : Outbox} {reason : String}
    {outcomes : List (Sender × Outcome)} (outbox : c.outbox = some box)
    (failed : box.fail reason = some (after, outcomes)) :
    (∃ k, c.stage = .asking k none ∧
      ({ c with outbox := some after }.deliver outcomes).stage =
        .asking k (some (.error (.stream reason)))) ∧
    Requested ({ c with outbox := some after }.deliver outcomes) := by
  obtain ⟨job, rest, inHand, rfl, rfl⟩ := Outbox.fail_eq_some failed
  exact requested.settle outbox inHand (fun alone => ⟨closeBehind_eq_nil alone, rfl⟩) rfl

theorem First.deliver (first : First c) (box : Option Outbox) (outcomes : List (Sender × Outcome))
    (request : c.stage.phase? = some .verifying → Requested c →
      Requested ({ c with outbox := box }.deliver outcomes)) :
    First ({ c with outbox := box }.deliver outcomes) := by
  refine first.goesOn (sameShown_deliver _ _) ?_ (connections_deliver _ _) request
  rw [deliver_eq]
  exact (connection?_told _ _).1

theorem answer_lose (unanswered : c.answer = none) (verified : Bool) (failure : Failure) :
    (c.lose verified failure).answer = some (.error failure) := by
  rw [lose_of_unanswered unanswered, reply_eq]
  show some (c.answer.getD _) = _
  rw [unanswered]
  rfl

theorem not_held (unanswered : c.answer = none) : ¬c.held := by
  rw [held, unanswered]
  exact Bool.false_ne_true

theorem First.elapse (first : First c) (rest : c.atRest) (ms : Nat) :
    First { c with clock := c.clock + ms } := by
  obtain ⟨phase, shown, begun⟩ := phase?_of_atRest rest
  cases first with
  | idle idle => exact absurd (Option.some.inj (shown.symm.trans idle)) begun
  | dialing shown since connections dialled =>
    exact .dialing shown since connections ⟨dialled.dials, dialled.first⟩
  | session shown asked =>
    exact .session shown ⟨asked.connection, asked.since, asked.opened,
      ⟨asked.dialled.dials, asked.dialled.first⟩, asked.requested⟩
  | closing ending =>
    cases shown.symm.trans (Stage.phase?_eq_none_iff.2 (Option.isSome_of_mem ending))

/-! ## Every step -/

/-- A step after which the client still has not answered leaves it at its first attempt. -/
theorem First.of_happens (first : First c) (timed : Timed c) (on : ¬c.stopping)
    (waiting : c.answer = none) (h : Happens c a d)
    (unanswered : d.answer = none) : First d ∧ ¬d.stopping := by
  -- Steps that answer are out, and so are the calls of an application that holds no client yet.
  cases h with
  | start stage => exact ⟨first.dial timed stage, on⟩
  | heedAlone told | heed told => exact absurd told on
  | expireDial | refused => cases unanswered.symm.trans (answer_lose waiting _ _)
  | expireSession _ stage =>
    exact ⟨first.leave timed (Stage.session?_of_unverified? stage) _, on⟩
  | expirePause _ stage => exact absurd stage first.ne_pausing
  | @learn k stage =>
    have same : SameShown c { c with stage := .verifying k .empty } :=
      { SameShown.refl c with
        shown := (congrArg Stage.phase? stage).symm
        ending := (congrArg Stage.ending? stage).symm }
    refine ⟨first.goesOn same (congrArg Stage.connection? stage).symm rfl fun _ requested => ?_, on⟩
    exact requested.stays rfl (congrArg Stage.asks stage).symm
  | learnFailure stage =>
    exact ⟨first.leave timed (congrArg Stage.session? stage) _, on⟩
  | desert stage | hear _ stage => exact absurd stage (first.ne_running _ _)
  | halt stage =>
    refine ⟨first.deliver _ _ fun shown => ?_, by rwa [halt, deliver_eq]⟩
    rw [stage] at shown
    cases shown
  | @close k ending stage =>
    obtain ⟨failure, rfl⟩ := first.of_closing stage
    have closed : ({ c with outbox := none }.note (.closed k)).answer = none := waiting
    cases unanswered.symm.trans (answer_lose closed false failure)
  | take outbox taken =>
    refine ⟨first.goesOn { SameShown.refl c with } rfl rfl fun _ requested => ?_, on⟩
    exact requested.move outbox (.of_eq (Outbox.pending_take taken)) rfl rfl
  | advance outbox advanced =>
    refine ⟨first.goesOn { SameShown.refl c with } rfl rfl fun _ requested => ?_, on⟩
    exact requested.move outbox (Outbox.pending_advance advanced) rfl rfl
  | collect =>
    refine ⟨first.goesOn { SameShown.refl c with notes := ?_ } rfl rfl fun _ => id, on⟩
    exact notes_one rfl rfl
  | connected stage => exact ⟨first.begin timed stage, on⟩
  | @hearNothing k framer chunk _ stage =>
    have same : SameShown c
        { c.note (.heard k chunk) with stage := .verifying k (framer.push chunk).2 } :=
      { SameShown.refl c with
        shown := (congrArg Stage.phase? stage).symm
        ending := (congrArg Stage.ending? stage).symm
        notes := notes_one rfl rfl }
    refine ⟨first.goesOn same (congrArg Stage.connection? stage).symm rfl fun _ requested => ?_, on⟩
    exact requested.stays rfl (congrArg Stage.asks stage).symm
  | hearVersion =>
    rw [postAll_eq, reply_eq] at unanswered
    cases unanswered
  | ended reading | readFailed reading => exact ⟨first.quit timed reading _, on⟩
  | wrote outbox written =>
    refine ⟨first.goesOn { SameShown.refl c with notes := ?_ } rfl rfl fun _ requested => ?_, on⟩
    · exact notes_one rfl rfl
    · exact requested.move outbox (.of_eq (Outbox.pending_write written)) rfl rfl
  | flushed outbox done =>
    exact ⟨first.deliver _ _ fun _ requested => (requested.flush outbox done).2,
      by rwa [deliver_eq]⟩
  | writeFailed outbox failed =>
    exact ⟨first.deliver _ _ fun _ requested => (requested.fail outbox failed).2,
      by rwa [deliver_eq]⟩
  | send _ held | sendPacket _ held | build _ held | disconnect held | release held =>
    exact absurd held (not_held waiting)
  | elapse _ rest => exact ⟨first.elapse rest _, on⟩

/-- **A client that has not answered is at its first attempt**, and was not told to stop. -/
theorem Reachable.first (h : Reachable policy c) (unanswered : c.answer = none) :
    First c ∧ ¬c.stopping := by
  induction h with
  | start => exact ⟨.idle rfl rfl rfl, Bool.false_ne_true⟩
  | @step c d a before happened ih =>
    have waiting : c.answer = none := by
      by_contra answered
      obtain ⟨outcome, answered⟩ := Option.ne_none_iff_exists'.1 answered
      cases unanswered.symm.trans ((keeps_of_step? happened).answered answered)
    obtain ⟨first, on⟩ := ih waiting
    exact first.of_happens before.timed on waiting (happens_of_step? happened) unanswered

/-! ## Failures -/

/-- The failure to which the first attempt has come. -/
def doom? (c : Client) : Option Failure :=
  match c.answer with
  | some (.error failure) => some failure
  | some (.ok _) => none
  | none => c.stage.doom?

/-- The failure to which an action brings an attempt: the dial fails or takes too long, the request
for the version cannot be written, or the console hangs up, breaks off or keeps silent before it
has given its version. -/
def breach? (c : Client) : Action → Option Failure
  | .signal (.refused reason) => if c.stage = .dialing then some (.stream reason) else none
  | .move .expire => match c.stage with
    | .dialing => some .connectTimeout
    | .asking _ none | .verifying _ _ => some (.unverified c.policy.verifyTimeout)
    | _ => none
  | .signal (.writeFailed reason) => if c.stage.asks then some (.stream reason) else none
  | .signal .ended => match c.stage with
    | .verifying _ _ => some .connectionClosed
    | _ => none
  | .signal (.readFailed reason) => match c.stage with
    | .verifying _ _ => some (.stream reason)
    | _ => none
  | _ => none

theorem doom?_of_answer {outcome : Outcome} (answered : c.answer = some outcome)
    (still : d.answer = some outcome) : d.doom? = c.doom? := by
  rw [doom?, doom?, answered, still]
  cases outcome <;> rfl

theorem doom?_of_unanswered (unanswered : c.answer = none) : c.doom? = c.stage.doom? := by
  rw [doom?, unanswered]

/-- Once the attempt has failed, no action brings it to another failure. -/
theorem doom?_eq_none_of_breach? (unanswered : c.answer = none) {failure : Failure}
    (breach : c.breach? a = some failure) : c.doom? = none := by
  rw [doom?_of_unanswered unanswered]
  unfold breach? at breach
  cases stage : c.stage with
  | asking k told =>
    cases told with
    | none => rfl
    | some outcome => split at breach <;> simp_all [Stage.asks]
  | closing => split at breach <;> simp_all [Stage.asks]
  | idle | dialing | verifying | running | pausing | stopped => rfl

theorem First.verifying (first : First c) {k : Nat} (reading : c.reading = some k) :
    ∃ framer, c.stage = .verifying k framer := by
  obtain ⟨-, waiting, -⟩ := first.asked (session?_of_reading reading).1
  unfold Client.reading at reading
  split at reading
  · next framer stage =>
    cases reading
    exact ⟨framer, stage⟩
  · next stage =>
    rw [stage] at waiting
    cases waiting
  · cases reading

theorem asks_eq_false (shown : c.stage.phase? ≠ some .verifying) : c.stage.asks = false := by
  cases stage : c.stage with
  | asking => exact absurd (congrArg Stage.phase? stage) shown
  | idle | dialing | verifying | running | closing | pausing | stopped => rfl

theorem First.requested (first : First c) (shown : c.stage.phase? = some .verifying) :
    Requested c := by
  obtain ⟨k, waiting⟩ := Stage.phase?_eq_verifying_iff.1 shown
  obtain ⟨-, -, asked⟩ := first.asked (Stage.session?_of_unverified? waiting)
  exact asked.requested

/-! ## What becomes of the attempt -/

/-- An attempt of which nothing more is known goes on. -/
theorem doom?_same (unanswered : c.answer = none) (answer : d.answer = none)
    (stage : d.stage.doom? = c.stage.doom?) : d.doom? = c.doom?.or none := by
  rw [Option.or_none, doom?_of_unanswered unanswered, doom?_of_unanswered answer, stage]

theorem doom?_lose (unanswered : c.answer = none) (failure : Failure) :
    (c.lose false failure).doom? = some failure := by
  rw [doom?, answer_lose unanswered]

theorem doom?_leave (unanswered : c.answer = none) (k : Nat) (failure : Failure) :
    (c.leave k (.lost false failure)).doom? = some failure :=
  doom?_of_unanswered unanswered

theorem doom?_dial (unanswered : c.answer = none) (stage : c.stage = .dialing) {failure : Failure}
    (breach : c.breach? a = some failure) :
    (c.lose false failure).doom? = c.doom?.or (c.breach? a) := by
  rw [doom?_lose unanswered, doom?_of_unanswered unanswered, stage, breach]
  rfl

theorem doom?_expire (unanswered : c.answer = none) {k : Nat}
    (waiting : c.stage.unverified? = some k) (expired : c.expire = some d) :
    (c.leave k (.lost false (.unverified c.policy.verifyTimeout))).doom? =
      c.doom?.or (c.breach? (.move .expire)) := by
  rw [doom?_leave unanswered, doom?_of_unanswered unanswered]
  cases stage : c.stage with
  | asking l told =>
    cases told with
    | none =>
      rw [breach?, stage]
      rfl
    | some outcome =>
      -- What became of the request is learned before the deadline counts.
      rw [Client.expire, stage] at expired
      cases expired
  | verifying =>
    rw [breach?, stage]
    rfl
  | idle | dialing | running | closing | pausing | stopped =>
    rw [stage] at waiting
    cases waiting

/-- A session fails with what its stream comes to. -/
theorem First.doom?_quit (first : First c) (unanswered : c.answer = none) {k : Nat}
    (reading : c.reading = some k) {failure : Failure}
    (breach : ∀ framer, c.stage = .verifying k framer → c.breach? a = some failure) :
    (c.leave k (.lost c.verified failure)).doom? = c.doom?.or (c.breach? a) := by
  obtain ⟨framer, stage⟩ := first.verifying reading
  have verified : c.verified = false := by rw [Client.verified, stage]
  rw [verified, doom?_leave unanswered, doom?_of_unanswered unanswered, breach framer stage, stage]
  rfl

theorem First.doom?_close (first : First c) (unanswered : c.answer = none) {k : Nat}
    {ending : Ending} (stage : c.stage = .closing k ending) :
    (c.close k ending).doom? = c.doom?.or none := by
  obtain ⟨failure, rfl⟩ := first.of_closing stage
  have closed : ({ c with outbox := none }.note (.closed k)).answer = none := unanswered
  refine (doom?_lose closed failure).trans ?_
  rw [doom?_of_unanswered unanswered, stage]
  rfl

/-- Nothing of a frame is told to an attempt that does not wait for the version. -/
theorem doom?_deliver (unanswered : c.answer = none) (shown : c.stage.phase? ≠ some .verifying)
    (box : Option Outbox) (outcomes : List (Sender × Outcome)) :
    ({ c with outbox := box }.deliver outcomes).doom? = c.doom?.or none := by
  refine doom?_same unanswered ?_ (congrArg Stage.doom? (stage_deliver shown _ _))
  rwa [deliver_eq]

theorem First.doom?_flush (first : First c) (unanswered : c.answer = none) {box after : Outbox}
    {sender : Sender} (outbox : c.outbox = some box) (done : box.flush = some (after, sender)) :
    ({ c with outbox := some after }.deliver [(sender, .ok ())]).doom? = c.doom?.or none := by
  by_cases shown : c.stage.phase? = some .verifying
  · obtain ⟨⟨k, stage, told⟩, -⟩ := (first.requested shown).flush outbox done
    refine doom?_same unanswered (by rwa [deliver_eq]) ?_
    rw [told, stage]
    rfl
  · exact doom?_deliver unanswered shown _ _

theorem First.doom?_fail (first : First c) (unanswered : c.answer = none) {box after : Outbox}
    {reason : String} {outcomes : List (Sender × Outcome)} (outbox : c.outbox = some box)
    (failed : box.fail reason = some (after, outcomes)) :
    ({ c with outbox := some after }.deliver outcomes).doom? =
      c.doom?.or (c.breach? (.signal (.writeFailed reason))) := by
  by_cases shown : c.stage.phase? = some .verifying
  · obtain ⟨⟨k, stage, told⟩, -⟩ := (first.requested shown).fail outbox failed
    have answer : ({ c with outbox := some after }.deliver outcomes).answer = none := by
      rwa [deliver_eq]
    rw [doom?_of_unanswered answer, told, doom?_of_unanswered unanswered, stage, breach?, stage]
    rfl
  · rw [breach?, asks_eq_false shown]
    exact doom?_deliver unanswered shown _ _

theorem doom?_of_ok (answered : c.answer = some (.ok ())) : c.doom? = none := by
  rw [doom?, answered]

/-- **An attempt fails by one action, which decides the failure.** -/
theorem Reachable.doom_step (h : Reachable policy c) (unanswered : c.answer = none)
    (happened : c.step? a = some d) : d.doom? = c.doom?.or (c.breach? a) := by
  obtain ⟨first, on⟩ := h.first unanswered
  have still (answer : d.answer = none) (stage : d.stage.doom? = c.stage.doom?) :
      d.doom? = c.doom?.or none := doom?_same unanswered answer stage
  cases happens_of_step? happened with
  -- The dial.
  | start stage => exact still unanswered (congrArg Stage.doom? stage).symm
  | expireDial _ stage => exact doom?_dial unanswered stage (by rw [breach?, stage])
  | refused stage => exact doom?_dial unanswered stage (if_pos stage)
  | connected stage =>
    refine still ((arrives_begin c).2.trans unanswered) ?_
    obtain ⟨frame, -, begun⟩ := c.begin_eq
    rw [begun, stage]
    rfl
  -- The session, as long as it goes on.
  | learn stage | hearNothing _ stage => exact still unanswered (congrArg Stage.doom? stage).symm
  | take | advance | collect | wrote | elapse => exact still unanswered rfl
  | flushed outbox done => exact first.doom?_flush unanswered outbox done
  | writeFailed outbox failed => exact first.doom?_fail unanswered outbox failed
  -- The end of the session.
  | hearVersion _ stage =>
    rw [doom?_of_unanswered unanswered, stage, postAll_eq, reply_eq]
    refine doom?_of_ok ?_
    show some (c.answer.getD (.ok ())) = _
    rw [unanswered]
    rfl
  | expireSession _ waiting =>
    exact doom?_expire unanswered waiting (Option.ite_none_right_eq_some.1 happened).2
  | learnFailure stage =>
    rw [doom?_leave unanswered, doom?_of_unanswered unanswered, stage]
    rfl
  | ended reading | readFailed reading =>
    exact first.doom?_quit unanswered reading fun framer stage => by rw [breach?, stage]
  -- The connection is closed.
  | halt stage =>
    have closing : c.stage.phase? ≠ some .verifying := by
      rw [stage]
      intro shown
      cases shown
    exact doom?_deliver unanswered closing _ _
  | close stage => exact first.doom?_close unanswered stage
  -- At a first attempt, a client is neither told to stop nor called, nor has it a verified session.
  | heedAlone told | heed told => exact absurd told on
  | expirePause _ stage => exact absurd stage first.ne_pausing
  | desert stage | hear _ stage => exact absurd stage (first.ne_running _ _)
  | send _ held | sendPacket _ held | build _ held | disconnect held | release held =>
    exact absurd held (not_held unanswered)

end Client

end ClimateLink
