import ClimateLink.Proofs.Client.Progress
import ClimateLink.Proofs.Client.Settling

/-!
# Shutdown

A client can be told to stop at any time: while it dials, asks for the version, reads, writes,
closes a connection or pauses, and with calls waiting for places or for their frames.

**Theorem (`Reachable.shutdown_terminal`).** Whatever it was at, it stops without time passing: its
own moves bring it there, there are not many of them, and the clock stands still until it is there.
The call that told it to stop has returned then, and so has every call that handed in a frame. From
then on nothing happens but calls that return at once.

**The proof.** While a client that is to stop has not stopped, it has a move to make that acts on no
deadline (`exists_early_move`). Once it has stopped nothing leads out of that (`Stopped.stays`), and
of what a step may note only the entries are left that pass (`Stopped.passing`).
-/

namespace ClimateLink

/-- Whether an entry is about neither an event, nor a dial, nor a frame that is accepted. -/
def Occurrence.passing : Occurrence → Bool
  | .posted _ | .dialled | .accepted _ _ _ => false
  | _ => true

namespace Client

variable {c d : Client}

/-! ## Clients that have stopped -/

/-- The client has stopped because it was told to. -/
structure Stopped (c : Client) : Prop where
  stage : c.stage = .stopped
  phase : c.phase = .shutdown
  told : c.stopping
  live : c.live = none
  outbox : c.outbox = none
  leavers : c.leavers = []

/-- A client that has stopped shows it, and nobody waits for that any more. -/
def Shown (c : Client) : Prop := c.stage = .stopped → c.phase = .shutdown ∧ c.leavers = []

theorem shown_lose (c : Client) (verified : Bool) (failure : Failure) :
    Shown (c.lose verified failure) := by
  cases answer : c.answer with
  | some outcome =>
    rw [lose_of_answered (Option.isSome_of_mem answer)]
    intro stage
    cases stage
  | none =>
    rw [lose_of_unanswered answer, reply_eq]
    exact fun _ => ⟨rfl, rfl⟩

theorem shown_deliver (shown : Shown c) (box : Option Outbox)
    (outcomes : List (Sender × Outcome)) : Shown ({ c with outbox := box }.deliver outcomes) := by
  rw [deliver_eq]
  intro stage
  refine shown ?_
  rcases told_cases c.stage outcomes with same | ⟨k, before, after, -, told⟩
  · exact same.symm.trans stage
  · cases told.symm.trans stage

theorem shown_submit (shown : Shown c) (packet : Packet) : Shown (c.submit packet) := by
  rcases c.submit_cases packet with ⟨failure, refused⟩ | ⟨frame, k, box, after, -, -, -, -, taken⟩
  · rw [refused]
    exact shown
  · rw [taken]
    exact shown

theorem shown_of_happens {a : Action} (shown : Shown c) (h : Happens c a d) : Shown d := by
  cases h with
  | start | expirePause | heed | expireSession | learn | learnFailure | desert | ended | readFailed
  | hearNothing =>
    intro stage
    cases stage
  | heedAlone => exact fun _ => ⟨rfl, rfl⟩
  | expireDial | refused => exact shown_lose _ _ _
  | halt | flushed | writeFailed => exact shown_deliver shown _ _
  | @close k ending =>
    cases ending with
    | shutdown => exact fun _ => ⟨rfl, rfl⟩
    | lost => exact shown_lose _ _ _
  | connected =>
    obtain ⟨frame, -, begun⟩ := c.begin_eq
    rw [begun]
    intro stage
    cases stage
  | hearVersion =>
    rw [postAll_eq, reply_eq]
    intro stage
    cases stage
  | hear =>
    rw [postAll_eq]
    intro stage
    cases stage
  | take | advance | collect | wrote | build | release | elapse => exact shown
  | send payload =>
    have built : Shown (c.build payload).2 := shown
    exact shown_submit built _
  | sendPacket packet => exact shown_submit shown packet
  | disconnect =>
    rw [disconnect_eq]
    intro stage
    obtain ⟨phase, leavers⟩ := shown stage
    refine ⟨phase, ?_⟩
    dsimp only at stage ⊢
    rw [if_pos stage, leavers]

theorem Reachable.stopped {policy : Policy} (h : Reachable policy c) (stage : c.stage = .stopped)
    (told : c.stopping) : Stopped c := by
  obtain ⟨phase, leavers⟩ : c.phase = .shutdown ∧ c.leavers = [] := by
    refine h.induction (P := Shown) (fun stage => ?_) shown_of_happens stage
    cases stage
  have none : c.stage.connection? = none := by
    rw [stage]
    rfl
  refine ⟨stage, phase, told, ?_, (h.wired.unwired none).outbox, leavers⟩
  refine Option.eq_none_iff_forall_ne_some.2 fun k live => ?_
  have session := h.sound.live k live
  rw [stage] at session
  cases session

/-! ## The way there -/

/-- **A client that is to stop and has nothing more to do has stopped**, and every call has
returned. -/
theorem Reachable.stopped_of_atRest {policy : Policy} (h : Reachable policy c) (told : c.stopping)
    (rest : c.atRest) : Stopped c ∧ c.decided = [] := by
  have idle := atRest_iff.1 rest
  have stage : c.stage = .stopped := by
    have start := idle .start
    have heed := idle .heed
    have halt := idle .halt
    have close := idle .close
    cases stage : c.stage with
    | stopped => rfl
    | idle => simp [move?, stage] at start
    | dialing | asking | verifying | running | pausing =>
      simp [move?, Client.heed, told, stage] at heed
    | closing k ending =>
      cases writing : c.writing with
      | true => simp [move?, stage, writing] at halt
      | false => simp [move?, stage, writing] at close
  exact ⟨h.stopped stage told, decided_of_atRest rest⟩

/-- **As long as it is not at rest, a client that is to stop has a move to make that acts on no
deadline.** -/
theorem exists_early_move (told : c.stopping) (busy : ¬c.atRest) :
    ∃ m d, m ≠ .expire ∧ c.move? m = some d := by
  obtain ⟨m, d, moved⟩ := exists_move_of_not_atRest busy
  by_cases late : m = .expire
  · -- Where a deadline can be acted on, the client can heed that it is to stop.
    subst late
    obtain ⟨-, expired⟩ := Option.ite_none_right_eq_some.1 moved
    cases stage : c.stage with
    | idle | running | closing | stopped => simp [Client.expire, stage] at expired
    | dialing | asking | verifying | pausing =>
      have heeded : c.move? .heed = c.heed := if_pos told
      exact ⟨.heed, _, Move.noConfusion, by rw [heeded, Client.heed, stage]⟩
  · exact ⟨m, d, late, moved⟩

/-! ## The state behind it -/

/-- From `c` to `d` nothing is posted, dialled or accepted. -/
structure SameDeeds (c d : Client) : Prop where
  posted : d.journal.posted = c.journal.posted
  dials : d.journal.dials = c.journal.dials
  accepted : ∀ k, d.journal.accepted k = c.journal.accepted k

theorem SameDeeds.refl (c : Client) : SameDeeds c c := ⟨rfl, rfl, fun _ => rfl⟩

theorem SameDeeds.trans {e : Client} (first : SameDeeds c d) (second : SameDeeds d e) :
    SameDeeds c e where
  posted := second.posted.trans first.posted
  dials := second.dials.trans first.dials
  accepted k := (second.accepted k).trans (first.accepted k)

theorem sameDeeds_of_notes (notes : Notes (fun o => o.passing) c d) : SameDeeds c d where
  posted := by
    refine notes.collect fun o passing => ?_
    cases o with
    | posted => cases passing
    | _ => rfl
  dials := notes.dials Bool.false_ne_true
  accepted k := by
    refine notes.collect fun o passing => ?_
    cases o with
    | accepted => cases passing
    | _ => rfl

/-- All that is left to be noted of a client that has stopped passes. -/
theorem Stopped.passing {a : Action} {o : Occurrence} (stopped : Stopped c) (may : May c a o) :
    o.passing := by
  cases o with
  | posted => exact absurd stopped.stage may
  | dialled => rcases may with ⟨-, stage⟩ | ⟨-, stage⟩ <;> cases stopped.stage.symm.trans stage
  | accepted => cases stopped.live.symm.trans may.2.1
  | _ => rfl

theorem Stopped.deeds {a : Action} (stopped : Stopped c) (h : Happens c a d) : SameDeeds c d :=
  sameDeeds_of_notes ((notes_of_happens h).mono fun _ => stopped.passing)

theorem submit_of_told (told : c.stopping) (packet : Packet) :
    c.submit packet = c.note (.refused .shutdown) := if_pos told

/-- **Nothing leads out of that state**: calls come and return, and time passes. -/
theorem Stopped.stays {a : Action} (stopped : Stopped c) (h : Happens c a d) : Stopped d := by
  cases h with
  | start stage | expireDial _ stage | expirePause _ stage | learn stage | learnFailure stage
  | desert stage | halt stage | close stage | refused stage | connected stage
  | hearNothing _ stage | hearVersion _ stage | hear _ stage =>
    cases stopped.stage.symm.trans stage
  | heedAlone _ stage =>
    rcases stage with stage | stage <;> cases stopped.stage.symm.trans stage
  | heed _ session =>
    rw [stopped.stage] at session
    cases session
  | expireSession _ session =>
    rw [stopped.stage] at session
    cases session
  | ended reading | readFailed reading =>
    rw [Client.reading, stopped.stage] at reading
    cases reading
  | take outbox | advance outbox | wrote outbox | flushed outbox | writeFailed outbox =>
    cases stopped.outbox.symm.trans outbox
  | collect | build | elapse => exact { stopped with }
  | send payload =>
    have told : (c.build payload).2.stopping := stopped.told
    rw [submit_of_told told]
    exact { stopped with }
  | sendPacket packet =>
    rw [submit_of_told stopped.told]
    exact { stopped with }
  | disconnect =>
    rw [disconnect_eq]
    refine { stopped with told := rfl, leavers := ?_ }
    dsimp only
    rw [if_pos stopped.stage, stopped.leavers]
  | release => exact { stopped with told := rfl }

/-! ## Runs -/

/-- What goes on holding in the clients that can be reached holds at the end of a run. -/
theorem Reachable.run_induction {policy : Policy} {P : Client → Prop} {actions : List Action}
    (h : Reachable policy c) (start : P c)
    (step : ∀ {c d : Client} {a : Action}, Reachable policy c → c.step? a = some d → P c → P d)
    (run : c.run? actions = some d) : P d := by
  induction actions generalizing c with
  | nil =>
    cases run
    exact start
  | cons a actions ih =>
    obtain ⟨next, happened, run⟩ := Option.bind_eq_some_iff.1 run
    exact ih (h.step happened) (step h happened start) run

/-- The client has stopped, with all connections closed, and every call that handed in a frame has
returned. -/
structure Finished (c : Client) : Prop where
  stopped : Stopped c
  closed : ∀ k, c.journal.Opened k → ∃ t, (t, .closed k) ∈ c.journal
  returned : ∀ k t f, (t, f) ∈ c.journal.accepted k → ∃ o, (t, o) ∈ c.journal.returned

theorem Reachable.closed_of_stopped {policy : Policy} (h : Reachable policy c)
    (stage : c.stage = .stopped) {k : Nat} (opened : c.journal.Opened k) :
    ∃ t, (t, .closed k) ∈ c.journal := by
  refine opened.closed.resolve_left ?_
  rw [h.wired.unclosed, stage]
  exact List.not_mem_nil

theorem Reachable.finished {policy : Policy} (h : Reachable policy c) (told : c.stopping)
    (rest : c.atRest) : Finished c := by
  obtain ⟨stopped, decided⟩ := h.stopped_of_atRest told rest
  refine ⟨stopped, fun k => h.closed_of_stopped stopped.stage, fun k t f accepted => ?_⟩
  rcases h.settled.1 k t f accepted with pending | ⟨o, known⟩
  · rw [Client.pending, stopped.outbox] at pending
    cases pending
  · rw [outcomes, decided, List.nil_append] at known
    exact ⟨o, known⟩

theorem Finished.step {policy : Policy} {a : Action} (finished : Finished c)
    (h : Reachable policy c) (happened : c.step? a = some d) : SameDeeds c d ∧ Finished d := by
  have happens := happens_of_step? happened
  have same := finished.stopped.deeds happens
  have stopped := finished.stopped.stays happens
  refine ⟨same, stopped, fun k => (h.step happened).closed_of_stopped stopped.stage,
    fun k t f accepted => ?_⟩
  rw [same.accepted] at accepted
  obtain ⟨o, returned⟩ := finished.returned k t f accepted
  obtain ⟨s, entry⟩ := mem_returned.1 returned
  exact ⟨o, mem_returned.2 ⟨s, (keeps_of_happens happens).journal.subset entry⟩⟩

theorem Finished.run {policy : Policy} {actions : List Action} (finished : Finished c)
    (h : Reachable policy c) (run : c.run? actions = some d) : SameDeeds c d ∧ Finished d := by
  refine h.run_induction (P := fun e => SameDeeds c e ∧ Finished e)
    ⟨SameDeeds.refl c, finished⟩ ?_ run
  rintro b e a before happened ⟨same, finished⟩
  obtain ⟨next, finished⟩ := finished.step before happened
  exact ⟨same.trans next, finished⟩

/-- A client that was told to stop at the given time: it still is that time, or it has finished. -/
def Punctual (now : Nat) (c : Client) : Prop := c.stopping ∧ (c.clock = now ∨ Finished c)

/-- A call that waits for the client to stop has returned at the given time, or it still is that
time and the call is going to return. -/
def Awaits (now ticket : Nat) (c : Client) : Prop :=
  (now, .returned ticket (.ok ())) ∈ c.journal ∨
    c.clock = now ∧ (ticket ∈ c.leavers ∨ (ticket, .ok ()) ∈ c.decided)

theorem Punctual.step {policy : Policy} {a : Action} {now : Nat} (punctual : Punctual now c)
    (h : Reachable policy c) (happened : c.step? a = some d) : Punctual now d := by
  obtain ⟨told, time⟩ := punctual
  have keeps := keeps_of_step? happened
  refine ⟨keeps.stopping told, ?_⟩
  rcases time with same | finished
  · rcases keeps.clock with still | rest
    · exact .inl (still.trans same)
    · exact .inr ((h.finished told rest).step h happened).2
  · exact .inr (finished.step h happened).2

theorem Awaits.step {policy : Policy} {a : Action} {now ticket : Nat} (awaits : Awaits now ticket c)
    (told : c.stopping) (h : Reachable policy c) (happened : c.step? a = some d) :
    Awaits now ticket d := by
  have keeps := keeps_of_step? happened
  rcases awaits with returned | ⟨rfl, going⟩
  · exact .inl (keeps.journal.subset returned)
  · -- Time passes only once nobody waits any more.
    have still : d.clock = c.clock := by
      refine keeps.clock.resolve_right fun rest => ?_
      obtain ⟨stopped, decided⟩ := h.stopped_of_atRest told rest
      rw [stopped.leavers, decided] at going
      rcases going with waiting | known
      · cases waiting
      · cases known
    rcases going with waiting | known
    · exact .inr ⟨still, keeps.leavers ticket waiting⟩
    · rcases keeps.decided ticket _ known with known | returned
      · exact .inr ⟨still, .inr known⟩
      · exact .inl returned

/-! ## Shutdown -/

/-- What is so of `d`, which comes of a client `c` that has finished. -/
structure Terminal (c d : Client) : Prop where
  phase : d.phase = .shutdown
  unconnected : d.isConnected = false
  closed : ∀ k, d.journal.Opened k → ∃ t, (t, .closed k) ∈ d.journal
  returned : ∀ k t f, (t, f) ∈ d.journal.accepted k → ∃ o, (t, o) ∈ d.journal.returned
  dials : d.journal.dials = c.journal.dials
  posted : d.journal.posted = c.journal.posted
  event : ∀ n event, c.journal.posted[n]? = some event → d.nextEvent n = .event event
  ended : ∀ n, c.journal.posted.length ≤ n → d.nextEvent n = .ended
  send : d.held → ∀ payload, d.request? (.send payload) =
    some ((d.build payload).2.note (.refused .shutdown))
  sendPacket : d.held → ∀ packet, d.request? (.sendPacket packet) =
    some (d.note (.refused .shutdown))
  disconnect : d.held → ∃ asked, d.request? .disconnect = some asked ∧
    asked.move? (.collect d.tickets) = some { d with
      tickets := d.tickets + 1
      journal := (d.clock, .returned d.tickets (.ok ())) :: (d.clock, .left d.tickets) ::
        d.journal }

theorem Stopped.disconnect (stopped : Stopped c) (ticketed : Ticketed c) (held : c.held) :
    ∃ asked, c.request? .disconnect = some asked ∧
      asked.move? (.collect c.tickets) = some { c with
        tickets := c.tickets + 1
        journal := (c.clock, .returned c.tickets (.ok ())) :: (c.clock, .left c.tickets) ::
          c.journal } := by
  have fresh (known : Nat × Outcome) (mem : known ∈ c.decided) : ¬(known.1 == c.tickets) := by
    have older : known.1 < c.tickets :=
      ticketed.fates_lt (mem_fates.2 (.inl (List.mem_append_left _ mem)))
    simpa using Nat.ne_of_lt older
  have found : (c.decided ++ [(c.tickets, (.ok () : Outcome))]).find? (fun d => d.1 == c.tickets) =
      some (c.tickets, .ok ()) := by
    rw [List.find?_append, List.find?_eq_none.2 fresh]
    simp
  have erased : (c.decided ++ [(c.tickets, (.ok () : Outcome))]).eraseP
      (fun d => d.1 == c.tickets) = c.decided := by
    rw [List.eraseP_append_right _ fresh]
    simp
  refine ⟨c.disconnect, if_pos held, ?_⟩
  show (c.disconnect.decided.find? _).map _ = _
  rw [disconnect_eq]
  simp only [if_pos stopped.stage, found, erased, Option.map_some, note, stopped.told]

theorem Finished.terminal {policy : Policy} (finished : Finished d) (h : Reachable policy d)
    (same : SameDeeds c d) : Terminal c d where
  phase := finished.stopped.phase
  unconnected := by
    rw [isConnected, finished.stopped.live]
    rfl
  closed := finished.closed
  returned := finished.returned
  dials := same.dials
  posted := same.posted
  event n event queued := by
    rw [nextEvent, same.posted, queued]
  ended n all := by
    rw [nextEvent, same.posted, List.getElem?_eq_none all]
    exact if_pos finished.stopped.stage
  send held payload := by
    have told : (d.build payload).2.stopping := finished.stopped.told
    rw [request?, if_pos held, ← submit_of_told told]
  sendPacket held packet := by
    rw [request?, if_pos held, ← submit_of_told finished.stopped.told]
  disconnect held := finished.stopped.disconnect h.booked.ticketed held

/-- A client that is told to stop knows it, and no time passes with that. -/
theorem told_of_request {r : Request} (ends : r = .disconnect ∨ r = .release)
    (asked : c.request? r = some d) : d.stopping ∧ d.clock = c.clock ∧
      (r = .disconnect → Awaits c.clock c.tickets d) := by
  obtain ⟨-, asked⟩ := Option.ite_none_right_eq_some.1 asked
  rcases ends with rfl | rfl
  · cases asked
    rw [disconnect_eq]
    refine ⟨rfl, rfl, fun _ => .inr ⟨rfl, ?_⟩⟩
    dsimp only
    by_cases stopped : c.stage = .stopped
    · refine .inr ?_
      rw [if_pos stopped]
      exact List.mem_append_right _ (List.mem_singleton_self _)
    · refine .inl ?_
      rw [if_neg stopped]
      exact List.mem_append_right _ (List.mem_singleton_self _)
  · cases asked
    refine ⟨rfl, rfl, fun same => ?_⟩
    cases same

/-- **Shutdown is final, from everywhere.**

Let the application ask a client to stop, or let go of it, and let anything happen from then on.
The client can come to rest at once by its own moves, and can make only so many of them, deadlines
of no time at all apart. Once it is at rest or time has passed, it has finished: the call that asked
it to stop has returned at the time at which it was made, and from there on, whatever comes next,
the client is shut down and not connected, its connections are closed, every call that handed in a
frame has returned, nothing is dialled or posted any more, the stream of events ends behind those
that were posted, and every further call returns at once, with nothing changed. -/
theorem Reachable.shutdown_terminal {policy : Policy} {r : Request} (h : Reachable policy c)
    (ends : r = .disconnect ∨ r = .release) (asked : c.request? r = some d)
    {actions : List Action} {e : Client} (run : d.run? actions = some e) :
    (∃ (moves : List Move) (f : Client), .expire ∉ moves ∧ e.run? (moves.map .move) = some f ∧
      f.atRest ∧ f.clock = e.clock) ∧
    (∀ (moves : List Move) (f : Client), e.run? (moves.map .move) = some f →
      .expire ∉ moves ∨ e.policy.Patient → moves.length ≤ e.work) ∧
    (e.atRest ∨ e.clock ≠ c.clock →
      (r = .disconnect → (c.clock, .returned c.tickets (.ok ())) ∈ e.journal) ∧
      ∀ later g, e.run? later = some g → Terminal e g) := by
  obtain ⟨told, same, awaits⟩ := told_of_request ends asked
  have after : Reachable policy d := h.step (a := .request r) asked
  have reached : Reachable policy e := after.run? run
  obtain ⟨⟨told, time⟩, awaits⟩ :
      Punctual c.clock e ∧ (r = .disconnect → Awaits c.clock c.tickets e) := by
    -- No time has passed since the client was told to stop, or it has finished.
    refine after.run_induction
      (P := fun b => Punctual c.clock b ∧ (r = .disconnect → Awaits c.clock c.tickets b))
      ⟨⟨told, .inl same⟩, awaits⟩ ?_ run
    rintro b f a before happened ⟨punctual, awaits⟩
    exact ⟨punctual.step before happened,
      fun asks => (awaits asks).step punctual.1 before happened⟩
  refine ⟨?_, fun moves f run patient => ?_, fun gone => ⟨fun asks => ?_, fun later g run => ?_⟩⟩
  · refine exists_rest (P := fun b => Reachable policy b ∧ b.stopping) ?_ ⟨reached, told⟩
    rintro b ⟨before, told⟩ busy
    obtain ⟨m, f, early, moved⟩ := exists_early_move told busy
    exact ⟨m, f, early, moved, before.step (a := .move m) moved,
      (keeps_of_happens (happens_of_move? moved)).stopping told⟩
  · exact Nat.le_of_add_right_le (length_moves_le run patient)
  · refine (awaits asks).resolve_right ?_
    rintro ⟨still, going⟩
    obtain ⟨stopped, decided⟩ :=
      reached.stopped_of_atRest told (gone.resolve_right (not_not_intro still))
    rw [stopped.leavers, decided] at going
    rcases going with waiting | known
    · cases waiting
    · cases known
  · have finished : Finished e := by
      rcases gone with rest | late
      · exact reached.finished told rest
      · exact time.resolve_left late
    obtain ⟨same, finished⟩ := finished.run reached run
    exact finished.terminal (reached.run? run) same

/-- What a client does that is told to stop while its session is verified. -/
def goodbye : List Action := [.move .heed, .move .halt, .move .close, .move (.collect 0)]

/-- A client with a verified session is told to stop. -/
theorem shutdown_terminal_goodbye :
    ∃ c d e, (Client.start { failFast := false }).run? verification = some c ∧
      c.phase = .connected ∧ c.request? .disconnect = some d ∧ d.run? goodbye = some e ∧
      e.atRest ∧ (c.clock, .returned c.tickets (.ok ())) ∈ e.journal ∧ Terminal e e := by
  have run : ((Client.start { failFast := false }).run? verification).bind (fun c =>
      (c.request? .disconnect).bind fun d => (d.run? goodbye).map fun e =>
        (c.phase, e.atRest)) = some (.connected, true) := by decide +kernel
  obtain ⟨c, verified, run⟩ := Option.bind_eq_some_iff.1 run
  obtain ⟨d, asked, run⟩ := Option.bind_eq_some_iff.1 run
  obtain ⟨e, run, views⟩ := Option.map_eq_some_iff.1 run
  obtain ⟨phase, rest⟩ := Prod.mk.inj views
  obtain ⟨-, -, gone⟩ := (Reachable.start.run? verified).shutdown_terminal (.inl rfl) asked run
  obtain ⟨returned, terminal⟩ := gone (.inl rest)
  exact ⟨c, d, e, verified, phase, asked, run, rest, returned rfl, terminal [] e rfl⟩

end Client

end ClimateLink
