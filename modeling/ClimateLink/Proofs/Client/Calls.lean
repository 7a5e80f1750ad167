import ClimateLink.Proofs.Client.Settling
import ClimateLink.Proofs.Client.Spans
import ClimateLink.Proofs.Client.Serial
import ClimateLink.Proofs.Client.Shutdown
import ClimateLink.Proofs.Client.Views

/-!
# No call outlives its session

When a session ends, the frame of a call may be in the queue, in hand with some of its bytes
written, or still without a place. Whoever handed it in waits, and has to be told.

**Theorem (`calls_return`).** Whenever a client has nothing more to do without time passing and
shows that it is not connected, no call has a frame pending, and every call that was ever made has
returned exactly once. A call whose frame was pending when the writer ended has returned that the
stream failed, if its own frame was being written when that happened, and that the connection is
closed in every other case.

**The proof.** A frame is accepted only on a connection on which the version came in
(`Reachable.heardVersion_of_accepted`), so none is pending while a new session is not verified. And
there are two ways only in which a pending frame is done with (`Reachable.goes_on`): its last byte
is passed on, or the writer ends.
-/

namespace ClimateLink

open Framer Journal

/-! ## Views of the journal -/

theorem Journal.HeardVersion.mono {older newer : Journal} {k : Nat} (heard : older.HeardVersion k)
    (grown : older <:+ newer) : newer.HeardVersion k := by
  obtain ⟨p, among, version⟩ := heard
  obtain ⟨more, rfl⟩ := grown
  refine ⟨p, ?_, version⟩
  rw [heard_append, push_append]
  exact List.mem_append_left _ among

/-- The failures with which calls returned at once. -/
def Journal.refusals : Journal → List Failure :=
  collect fun
    | .refused failure => some failure
    | _ => none

@[simp] theorem Journal.refusals_cons (t : Nat) (o : Occurrence) (j : Journal) :
    refusals ((t, o) :: j) = refusals j ++ (match o with
      | .refused failure => some failure
      | _ => none).toList :=
  collect_cons _ t o j

/-! ## The frame in hand -/

/-- Where nobody has two frames, the stream failed for the frame in hand alone. -/
theorem Outbox.told_fail {box after : Outbox} {reason : String}
    {outcomes : List (Sender × Outcome)} (failed : box.fail reason = some (after, outcomes))
    (once : (box.pending.map Job.sender).Nodup) {job : Job} (listed : job ∈ box.pending)
    {o : Outcome} (told : (job.sender, o) ∈ outcomes) :
    o = .error
      (if box.inHand.map Prod.fst = some job then .stream reason else .connectionClosed) := by
  obtain ⟨first, rest, inHand, rfl, -⟩ := fail_eq_some failed
  have own {other : Job} (among : other ∈ box.pending) (same : other.sender = job.sender) :
      other = job := List.inj_on_of_nodup_map once among listed same
  rw [pending_eq_cons inHand] at once own
  rw [inHand, Option.map_some]
  rcases List.mem_cons.1 told with front | behind
  · obtain ⟨same, rfl⟩ := Prod.mk.inj front
    rw [own List.mem_cons_self same.symm, if_pos rfl]
  · obtain ⟨other, among, same⟩ := List.mem_map.1 behind
    obtain ⟨sender, rfl⟩ := Prod.mk.inj same
    refine congrArg Except.error (if_neg fun front => ?_).symm
    cases front
    have twice : other ∈ box.queue ++ box.waiting :=
      List.mem_append.2 (List.mem_append.1 among).symm
    rw [List.map_cons, List.nodup_cons, ← sender] at once
    exact once.1 (List.mem_map_of_mem twice)

namespace Client

variable {c d : Client} {policy : Policy}

/-! ## Where frames are accepted -/

/-- **Frames are accepted only once the version has come in.** -/
theorem Reachable.heardVersion_of_accepted (h : Reachable policy c) {k t : Nat} {f : Bytes}
    (mem : (t, f) ∈ c.journal.accepted k) : c.journal.HeardVersion k := by
  induction h with
  | start => cases mem
  | @step c d a before happened ih =>
    refine HeardVersion.mono ?_ (keeps_of_step? happened).journal
    rcases (adds_of_handles (handles_of_happens (happens_of_step? happened))).accepted k with
      same | ⟨-, -, -, -, -, -, live, -⟩
    · exact ih (same ▸ mem)
    · -- Only the connection of a verified session takes frames.
      refine (before.heardVersion_iff (before.sound.live k live)).2 ?_
      have taking : c.stage.taking? = some k := before.displayed.live.symm.trans live
      cases stage : c.stage with
      | running => rfl
      | idle | dialing | asking | verifying | closing | pausing | stopped =>
        rw [stage] at taking
        cases taking

/-- A call whose frame is pending waits for a writer that is at work. -/
theorem Reachable.of_pending (h : Reachable policy c) {t : Nat} {f : Bytes}
    (mem : ⟨.call t, f⟩ ∈ c.pending) : ∃ box, c.outbox = some box ∧ box.failure = none ∧
      ⟨.call t, f⟩ ∈ box.pending ∧ (∃ g, (t, g) ∈ c.journal.accepted box.connection) ∧
      ∀ o, (t, o) ∉ c.outcomes := by
  cases outbox : c.outbox with
  | none =>
    rw [pending, outbox] at mem
    cases mem
  | some box =>
    rw [pending_of_outbox outbox] at mem
    have working : box.failure = none := by
      by_contra failed
      rw [h.settled.2 box outbox failed] at mem
      cases mem
    have sender : .call t ∈ box.pending.map Job.sender := List.mem_map.2 ⟨_, mem, rfl⟩
    exact ⟨box, rfl, working, mem, h.booked.fresh h.sound outbox working sender⟩

/-- **No call has a frame pending at rest**, unless the client shows that it is connected. -/
theorem Reachable.not_pending_of_atRest (h : Reachable policy c) (rest : c.atRest)
    (offline : c.phase ≠ .connected) (t : Nat) (f : Bytes) : ⟨.call t, f⟩ ∉ c.pending := by
  intro mem
  obtain ⟨box, outbox, -, -, ⟨g, accepted⟩, -⟩ := h.of_pending mem
  obtain ⟨phase, shown, -⟩ := phase?_of_atRest rest
  have held := h.wired.outbox box outbox
  have heard := h.heardVersion_of_accepted accepted
  cases stage : c.stage with
  | idle | dialing | pausing | stopped =>
    rw [stage] at held
    cases held
  | closing =>
    rw [stage] at shown
    cases shown
  | running =>
    rw [stage] at shown
    cases shown
    exact offline (h.displayed.phase _ (congrArg Stage.phase? stage))
  | asking k told | verifying k framer =>
    rw [stage] at held
    cases held
    have verified := (h.heardVersion_iff (congrArg Stage.session? stage)).1 heard
    rw [stage] at verified
    cases verified

/-! ## What a call is told -/

/-- The frame that is being written, and what is still to be written of it. -/
def hand (c : Client) : Option (Job × Bytes) := c.outbox.bind Outbox.inHand

/-- What a call is told whose frame is pending when an action ends the writer. -/
def parting (c : Client) (a : Action) (job : Job) : Failure :=
  match a with
  | .signal (.writeFailed reason) =>
    if c.hand.map Prod.fst = some job then .stream reason else .connectionClosed
  | _ => .connectionClosed

/-- On the way from `c` to `d` it is decided what becomes of a call with a pending frame. -/
inductive Decides (c : Client) (a : Action) (d : Client) (job : Job) : Outcome → Prop where
  /-- All bytes of the frame were written, and now they are passed on. -/
  | sent (passedOn : a = .signal .flushed) (inHand : c.hand = some (job, []))
    (working : d.writing) : Decides c a d job (.ok ())
  /-- The writer ends. -/
  | ended (working : c.writing) (finished : ¬d.writing) :
    Decides c a d job (.error (c.parting a job))

theorem hand_of_outbox {box : Outbox} (outbox : c.outbox = some box) : c.hand = box.inHand := by
  rw [hand, outbox, Option.bind_some]

/-- What becomes known of a call whose frame was pending is what its frame or its writer came
to. -/
theorem Reachable.decides (h : Reachable policy c) {a : Action} (happened : c.step? a = some d)
    {t : Nat} {f : Bytes} {o : Outcome} (mem : ⟨.call t, f⟩ ∈ c.pending)
    (known : (t, o) ∈ d.outcomes) : Decides c a d ⟨.call t, f⟩ o := by
  obtain ⟨box, outbox, working, listed, ⟨g, accepted⟩, fresh⟩ := h.of_pending mem
  have writing : c.writing := by
    rw [Client.writing, outbox, Option.any_some, working, Option.isNone_none]
  obtain ⟨lineup, sent, part, order, ledger, -, -, -⟩ := h.booked.own h.sound outbox working
  have once := ledger.nodup_pending (h.booked.ticketed.once order)
  -- Nobody has two frames pending.
  have own {job : Job} (other : job ∈ box.pending) (sender : job.sender = .call t) :
      job = ⟨.call t, f⟩ := List.inj_on_of_nodup_map once other listed sender
  have undecided {b : Client} (frames : SameFrames c b) : (t, o) ∉ b.outcomes := by
    intro known
    rcases frames.mem_outcomes known with known | ⟨left, -⟩
    · exact fresh o known
    · exact h.booked.ticketed.leavers_apart left accepted
  cases handles_of_happens (happens_of_step? happened) with
  | nothing frames => exact absurd known (undecided frames)
  | opens stage =>
    cases (h.wired.unwired (congrArg Stage.connection? stage)).outbox.symm.trans outbox
  | joins =>
    have older : t ≠ c.tickets := Nat.ne_of_lt (h.booked.ticketed.accepted_lt accepted)
    rw [disconnect_eq] at known
    refine absurd ?_ (fresh o)
    by_cases stopped : c.stage = .stopped <;> simpa [outcomes, stopped, older] using known
  | moves => exact absurd known (fresh o)
  | writes => exact absurd (by simpa [note, outcomes] using known) (fresh o)
  | @finishes _ after sender same done =>
    cases outbox.symm.trans same
    obtain ⟨job, inHand, rfl, rfl⟩ := Outbox.flush_eq_some done
    have new := ((mem_outcomes_deliver _ _).1 known).resolve_left (fresh o)
    obtain ⟨sender, rfl⟩ := Prod.mk.inj (List.mem_singleton.1 new)
    have first : job ∈ box.pending := Outbox.pending_eq_cons inHand ▸ List.mem_cons_self
    refine .sent rfl ?_ ?_
    · rw [hand_of_outbox outbox, inHand, own first sender.symm]
    · rw [writing_deliver, Client.writing, Option.any_some, working, Option.isNone_none]
  | @fails reason _ after outcomes same failed =>
    cases outbox.symm.trans same
    have new := ((mem_outcomes_deliver _ _).1 known).resolve_left (fresh o)
    have told : o = .error (c.parting (.signal (.writeFailed reason)) ⟨.call t, f⟩) := by
      rw [parting, hand_of_outbox outbox]
      exact Outbox.told_fail failed once listed new
    rw [told]
    refine .ended writing ?_
    obtain ⟨job, rest, -, -, rfl⟩ := Outbox.fail_eq_some failed
    rw [writing_deliver]
    exact Bool.false_ne_true
  | halts gone same working =>
    cases outbox.symm.trans same
    have new := ((mem_outcomes_deliver _ _).1 known).resolve_left (fresh o)
    rw [Outbox.closed_of_mem_abandon new]
    refine .ended writing ?_
    rw [writing_deliver]
    exact Bool.false_ne_true
  | @accepts b r packet k frame _ after frames same sends encoded live queue queued =>
    refine absurd ?_ (undecided frames)
    simpa [note, outcomes] using known

/-- A frame that is pending goes on to be pending, or it is decided what becomes of its call. -/
theorem Reachable.goes_on (h : Reachable policy c) {a : Action} (happened : c.step? a = some d)
    {t : Nat} {f : Bytes} (mem : ⟨.call t, f⟩ ∈ c.pending) : ⟨.call t, f⟩ ∈ d.pending ∨
      ∃ o, Decides c a d ⟨.call t, f⟩ o ∧ (t, o) ∈ d.outcomes := by
  have happens := happens_of_step? happened
  refine (pending_of_happens h.wired h.settled.2 happens mem).imp_right ?_
  rintro ⟨o, decided⟩
  have known : (t, o) ∈ d.outcomes := List.mem_append_left _ decided
  exact ⟨o, h.decides happened mem known, known⟩

/-- **A writer that ends leaves nobody waiting**, and nobody is told that a frame is sent. -/
theorem Reachable.told_of_ended (h : Reachable policy c) {a : Action}
    (happened : c.step? a = some d) (finished : ¬d.writing) {t : Nat} {f : Bytes}
    (mem : ⟨.call t, f⟩ ∈ c.pending) : (t, .error (c.parting a ⟨.call t, f⟩)) ∈ d.outcomes := by
  rcases h.goes_on happened mem with still | ⟨o, decides, known⟩
  · rw [(h.step happened).settled.2.nothing finished] at still
    cases still
  · cases decides with
    | sent _ _ working => exact absurd working finished
    | ended => exact known

/-! ## Sessions that are left -/

/-- The call whose frame is this one waits for a writer, or knows that its connection is closed. -/
def Closing (c : Client) (t : Nat) (f : Bytes) : Prop :=
  ⟨.call t, f⟩ ∈ c.pending ∨ (t, .error .connectionClosed) ∈ c.outcomes

theorem session?_of_settled {a : Action} (h : Happens c a d)
    (settles : a = .signal .flushed ∨ ∃ reason, a = .signal (.writeFailed reason)) :
    d.stage.session? = c.stage.session? := by
  cases h with
  | flushed | writeFailed =>
    rw [deliver_eq]
    exact session?_told _ _
  | _ => simp at settles

/-- A session is left before anyone is told that the connection is closed. -/
theorem Reachable.closing_of_left (h : Reachable policy c) {a : Action}
    (happened : c.step? a = some d) (session : c.stage.session?.isSome)
    (gone : d.stage.session? = none) {t : Nat} {f : Bytes} (mem : ⟨.call t, f⟩ ∈ c.pending) :
    Closing d t f := by
  have still (settles : a = .signal .flushed ∨ ∃ reason, a = .signal (.writeFailed reason)) :
      False := by
    rw [← session?_of_settled (happens_of_step? happened) settles, gone] at session
    cases session
  refine (h.goes_on happened mem).imp_right ?_
  rintro ⟨o, decides, known⟩
  cases decides with
  | sent passedOn => exact (still (.inl passedOn)).elim
  | ended =>
    unfold parting at known
    split at known
    · exact (still (.inr ⟨_, rfl⟩)).elim
    · exact known

/-- By its own moves a client begins no session, and tells calls nothing but that their connection
is closed. -/
theorem Reachable.closing_of_move (h : Reachable policy c) {m : Move} (moved : c.move? m = some d)
    (alone : c.stage.session? = none) {t : Nat} {f : Bytes} (closing : Closing c t f) :
    d.stage.session? = none ∧ Closing d t f := by
  have happened : c.step? (.move m) = some d := moved
  constructor
  · cases handles_of_happens (happens_of_move? moved) with
    | nothing frames =>
      rcases frames.session with gone | ⟨same, -⟩
      · exact gone
      · exact same.trans alone
    | moves => exact alone
    | halts =>
      rw [deliver_eq]
      exact (session?_told _ _).trans alone
  · rcases closing with mem | known
    · refine (h.goes_on happened mem).imp_right ?_
      rintro ⟨o, decides, known⟩
      cases decides with
      | sent passedOn => cases passedOn
      | ended => exact known
    · exact .inr ((keeps_of_step? happened).outcomes known)

theorem Reachable.closing_of_moves (h : Reachable policy c) {moves : List Move}
    (run : c.run? (moves.map .move) = some d) (alone : c.stage.session? = none) {t : Nat}
    {f : Bytes} (closing : Closing c t f) : d.stage.session? = none ∧ Closing d t f := by
  induction moves generalizing c with
  | nil =>
    cases run
    exact ⟨alone, closing⟩
  | cons m moves ih =>
    obtain ⟨next, moved, run⟩ := Option.bind_eq_some_iff.1 run
    obtain ⟨alone, closing⟩ := h.closing_of_move moved alone closing
    exact ih (h.step (a := .move m) moved) run alone closing

/-- **A session that is left leaves nobody waiting**, even if nobody but the client does anything
from then on. -/
theorem Reachable.told_of_left (h : Reachable policy c) {a : Action} (happened : c.step? a = some d)
    (session : c.stage.session?.isSome) (gone : d.stage.session? = none) {moves : List Move}
    {e : Client} (run : d.run? (moves.map .move) = some e) (rest : e.atRest) {t : Nat} {f : Bytes}
    (mem : ⟨.call t, f⟩ ∈ c.pending) : (t, .error .connectionClosed) ∈ e.outcomes := by
  have after := h.step happened
  obtain ⟨alone, closing⟩ :=
    after.closing_of_moves run gone (h.closing_of_left happened session gone mem)
  have reached := after.run? run
  refine closing.resolve_left (reached.not_pending_of_atRest rest (fun connected => ?_) t f)
  obtain ⟨phase, shown, -⟩ := phase?_of_atRest rest
  rw [reached.displayed.phase phase shown] at connected
  obtain ⟨k, framer, stage⟩ := Stage.phase?_eq_connected_iff.1 (connected ▸ shown)
  rw [stage] at alone
  cases alone

/-! ## Calls that are made -/

/-- What a call gets by the step from `c` to `d` in which it is made: it is refused and returns, or
it has a ticket. -/
inductive Gets (c d : Client) : Option Nat → Prop where
  | refusal {failure : Failure} (told : d.journal.refusals = c.journal.refusals ++ [failure])
    (tickets : d.tickets = c.tickets) : Gets c d none
  | ticket {k : Nat} {frame : Bytes} (untold : d.journal.refusals = c.journal.refusals)
    (accepted : d.journal.accepted k = c.journal.accepted k ++ [(c.tickets, frame)])
    (tickets : d.tickets = c.tickets + 1) : Gets c d (some c.tickets)

theorem gets_submit (c : Client) (packet : Packet) : ∃ ticket, Gets c (c.submit packet) ticket := by
  rcases c.submit_cases packet with ⟨failure, refused⟩ | ⟨frame, k, box, after, -, -, -, -, taken⟩
  · rw [refused]
    have told : (c.note (.refused failure)).journal.refusals = c.journal.refusals ++ [failure] := by
      simp [note]
    exact ⟨none, .refusal told rfl⟩
  · rw [taken]
    refine ⟨some c.tickets, .ticket ?_ (?_ : Journal.accepted k _ = _ ++ [(_, frame)]) rfl⟩
    · simp [note]
    · simp [note]

theorem gets_of_request {r : Request} (h : Happens c (.request r) d) {packet : Packet}
    (sends : c.outgoing r = some packet) : ∃ ticket, Gets c d ticket := by
  cases h with
  | send payload =>
    -- To number a packet refuses nothing and gives no ticket.
    have built : (c.build payload).2.journal.refusals = c.journal.refusals ∧
        ∀ k, (c.build payload).2.journal.accepted k = c.journal.accepted k := by
      simp [build, note]
    obtain ⟨ticket, gets⟩ := gets_submit (c.build payload).2 (c.build payload).1
    refine ⟨ticket, ?_⟩
    cases gets with
    | refusal told tickets => exact .refusal (built.1 ▸ told) tickets
    | ticket untold accepted tickets =>
      exact .ticket (untold.trans built.1) (built.2 _ ▸ accepted) tickets
  | sendPacket packet => exact gets_submit c packet
  | build | disconnect | release => cases sends

/-! ## Calls that have returned -/

/-- The call with the ticket has returned once, and with this outcome. -/
def Returned (c : Client) (ticket : Nat) (outcome : Outcome) : Prop :=
  (c.journal.returned.map Prod.fst).count ticket = 1 ∧ (ticket, outcome) ∈ c.journal.returned

theorem Reachable.returned (h : Reachable policy c) (rest : c.atRest) {t : Nat} {o : Outcome}
    (known : (t, o) ∈ c.outcomes) : c.Returned t o := by
  rw [outcomes, decided_of_atRest rest, List.nil_append] at known
  have once : (c.journal.returned.map Prod.fst).Nodup := by
    refine h.booked.ticketed.fates_once.sublist (List.Sublist.map _ ?_)
    exact (List.sublist_append_right ..).trans (List.sublist_append_left ..)
  exact ⟨List.count_eq_one_of_mem once (List.mem_map_of_mem known), known⟩

theorem Reachable.outcomes_run (h : Reachable policy c) {actions : List Action}
    (run : c.run? actions = some d) {t : Nat} {o : Outcome} (known : (t, o) ∈ c.outcomes) :
    (t, o) ∈ d.outcomes :=
  h.run_induction (P := fun e => (t, o) ∈ e.outcomes) known
    (fun _ happened known => (keeps_of_step? happened).outcomes known) run

theorem Reachable.accepted_run (h : Reachable policy c) {actions : List Action}
    (run : c.run? actions = some d) {k t : Nat} {f : Bytes} (mem : (t, f) ∈ c.journal.accepted k) :
    (t, f) ∈ d.journal.accepted k :=
  h.run_induction (P := fun e => (t, f) ∈ e.journal.accepted k) mem
    (fun _ happened mem => (keeps_of_step? happened).accepted mem) run

/-- A run goes from `x` to `y` by the action `a` and then through `after` to `c`: what calls have
come to in `c`. -/
structure Resolves (c x : Client) (a : Action) (y : Client) (after : List Action) : Prop where
  /-- A call that is made here is refused, or it has a ticket and has returned. -/
  made : ∀ r packet, a = .request r → x.outgoing r = some packet →
    ∃ ticket, Gets x y ticket ∧ ∀ t, ticket = some t → ∃ o, c.Returned t o
  /-- A frame that is pending stays so, or its call has returned with what is decided here. -/
  goesOn : ∀ t f, ⟨.call t, f⟩ ∈ x.pending → ⟨.call t, f⟩ ∈ y.pending ∨
    ∃ o, Decides x a y ⟨.call t, f⟩ o ∧ c.Returned t o
  /-- If the writer ends here, every call with a pending frame has returned that it failed. -/
  ended : ¬y.writing → ∀ t f, ⟨.call t, f⟩ ∈ x.pending →
    c.Returned t (.error (x.parting a ⟨.call t, f⟩))
  /-- If the session is left here and the client goes on by itself until it rests, every call with
  a pending frame has returned that the connection is closed. -/
  left : x.stage.session?.isSome → y.stage.session? = none → ∀ (moves : List Move) z later,
    after = moves.map .move ++ later → y.run? (moves.map .move) = some z → z.atRest →
      ∀ t f, ⟨.call t, f⟩ ∈ x.pending → c.Returned t (.error .connectionClosed)

/-- **No call outlives its session.**

Let a client have nothing more to do without time passing, after any run, and show that it is not
connected. Then no call has a frame pending or waits to return. Every call that was made in the run
was refused when it was made, or it got a ticket of its own and has returned exactly once. It has
returned well only if its frame was written and passed on. A call whose frame was in the queue, in
line for a place or in hand when the writer ended has returned that the stream failed, if the write
of its own frame did, and otherwise that the connection is closed. -/
theorem calls_return {actions : List Action} (run : (Client.start policy).run? actions = some c)
    (rest : c.atRest) (offline : c.phase ≠ .connected) :
    (∀ t f, ⟨.call t, f⟩ ∉ c.pending) ∧ c.decided = [] ∧
    ∀ before a after x y, actions = before ++ a :: after →
      (Client.start policy).run? before = some x → x.step? a = some y →
        Resolves c x a y after := by
  have reached : Reachable policy c := Reachable.start.run? run
  have nobody := reached.not_pending_of_atRest rest offline
  refine ⟨nobody, decided_of_atRest rest, ?_⟩
  rintro before a after x y rfl early happened
  have h : Reachable policy x := Reachable.start.run? early
  have next : Reachable policy y := h.step happened
  rw [run?_append, early, Option.bind_some] at run
  have onward : y.run? after = some c := by
    obtain ⟨_, same, onward⟩ := Option.bind_eq_some_iff.1 run
    cases happened.symm.trans same
    exact onward
  -- In each part an outcome becomes known in the run; at rest all that is known has been returned.
  have returned {t : Nat} {o : Outcome} (known : (t, o) ∈ y.outcomes) : c.Returned t o :=
    reached.returned rest (next.outcomes_run onward known)
  refine ⟨?_, fun t f mem => ?_, fun finished t f mem => ?_, ?_⟩
  · rintro r packet rfl sends
    obtain ⟨ticket, gets⟩ := gets_of_request (happens_of_step? happened) sends
    refine ⟨ticket, gets, ?_⟩
    rintro t rfl
    cases gets with
    | @ticket k frame untold accepted tickets =>
      have mem : (x.tickets, frame) ∈ y.journal.accepted k := by
        rw [accepted]
        exact List.mem_append_right _ (List.mem_singleton_self _)
      obtain ⟨o, known⟩ :=
        (reached.settled.1 k _ _ (next.accepted_run onward mem)).resolve_left (nobody _ _)
      exact ⟨o, reached.returned rest known⟩
  · refine (h.goes_on happened mem).imp_right ?_
    rintro ⟨o, decides, known⟩
    exact ⟨o, decides, returned known⟩
  · exact returned (h.told_of_ended happened finished mem)
  · rintro session gone moves z later rfl moved still t f mem
    have known := h.told_of_left happened session gone moved still mem
    rw [run?_append, moved, Option.bind_some] at onward
    exact reached.returned rest ((next.run? moved).outcomes_run onward known)

/-- With one place in the queue, a frame is in hand and written in part, another one has the place,
and a third one waits for it. -/
def crowded : List Action := verification ++
  [.request (.send (.acErrorRequest 0)), .move .take, .request (.send (.acErrorRequest 1)),
    .request (.send (.acErrorRequest 2)), .signal (.wrote 9)]

/-- What a client does behind a failed write. -/
def aftermath : List Action :=
  [.move .desert, .move .close, .move (.collect 2), .move (.collect 0), .move (.collect 1)]

theorem calls_return_crowded :
    ∃ x y c, (Client.start { failFast := false, queueCapacity := 1 }).run? crowded = some x ∧
      x.step? (.signal (.writeFailed "reset")) = some y ∧ y.run? aftermath = some c ∧
      c.atRest ∧ c.phase = .disconnected ∧
      c.journal.returned = [(2, .error .connectionClosed), (0, .error (.stream "reset")),
        (1, .error .connectionClosed)] ∧
      (∀ t f, ⟨.call t, f⟩ ∉ c.pending) ∧ c.decided = [] ∧
      Resolves c x (.signal (.writeFailed "reset")) y aftermath := by
  have runs : ((Client.start { failFast := false, queueCapacity := 1 }).run? crowded).bind (fun x =>
      (x.step? (.signal (.writeFailed "reset"))).bind fun y => (y.run? aftermath).map fun c =>
        (c.atRest, c.phase, c.journal.returned)) = some (true, .disconnected,
          [(2, .error .connectionClosed), (0, .error (.stream "reset")),
            (1, .error .connectionClosed)]) := by decide +kernel
  obtain ⟨x, before, runs⟩ := Option.bind_eq_some_iff.1 runs
  obtain ⟨y, happened, runs⟩ := Option.bind_eq_some_iff.1 runs
  obtain ⟨c, after, views⟩ := Option.map_eq_some_iff.1 runs
  obtain ⟨rest, views⟩ := Prod.mk.inj views
  obtain ⟨phase, returned⟩ := Prod.mk.inj views
  have whole : (Client.start { failFast := false, queueCapacity := 1 }).run?
      (crowded ++ .signal (.writeFailed "reset") :: aftermath) = some c := by
    rw [run?_append, before]
    show ((x.step? (.signal (.writeFailed "reset"))).bind fun y => y.run? aftermath) = some c
    rw [happened]
    exact after
  have offline : c.phase ≠ .connected := by
    rw [phase]
    exact Phase.noConfusion
  obtain ⟨nobody, decided, steps⟩ := calls_return whole rest offline
  exact ⟨x, y, c, before, happened, after, rest, phase, returned, nobody, decided,
    steps crowded _ aftermath x y rfl before happened⟩

end Client

end ClimateLink
