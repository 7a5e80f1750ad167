import ClimateLink.Proofs.Client.Connections
import ClimateLink.Proofs.Client.Delivery
import ClimateLink.Proofs.Client.Progress

/-!
# What is seen of a client at rest

What others see of a client is kept in several places: the state that is shown, the connection that
takes frames, the events that are posted, and the connections themselves. No step changes all of
them, and while a session is being closed they say different things.

**Theorem (`Reachable.views_agree`).** Whenever a client has nothing more to do without time
passing, they say the same: which state is shown decides whether frames are taken, what was posted
last about sessions, whether a connection is open and whether the version has come in on it.

**The proof.** The stage decides everything that is seen, except while a connection is being closed
(`Displayed`), and a client at rest is not closing one (`phase?_of_atRest`). What was posted, what
came in and what is open follows the stage in every run.
-/

namespace ClimateLink

open Framer Journal

/-! ## What the stage says -/

/-- The state that is shown in a stage. While a connection is being closed, that is still the one
from before. -/
def Stage.phase? : Stage → Option Phase
  | .idle => some .idle
  | .dialing => some .connecting
  | .asking _ _ | .verifying _ _ => some .verifying
  | .running _ _ => some .connected
  | .closing _ _ => none
  | .pausing => some .disconnected
  | .stopped => some .shutdown

/-- The connection that takes frames in a stage. -/
def Stage.taking? : Stage → Option Nat
  | .running k _ => some k
  | _ => none

namespace Stage

variable {s : Stage}

theorem isSome_taking?_iff : s.taking?.isSome ↔ s.phase? = some .connected := by
  cases s <;> simp [taking?, phase?]

theorem phase?_eq_connected_iff :
    s.phase? = some .connected ↔ ∃ k framer, s = .running k framer := by
  cases s <;> simp [phase?]

theorem phase?_eq_verifying_iff : s.phase? = some .verifying ↔ ∃ k, s.unverified? = some k := by
  cases s <;> simp [phase?, unverified?]

theorem phase?_eq_connecting_iff : s.phase? = some .connecting ↔ s = .dialing := by
  cases s <;> simp [phase?]

theorem phase?_eq_disconnected_iff : s.phase? = some .disconnected ↔ s = .pausing := by
  cases s <;> simp [phase?]

theorem phase?_eq_shutdown_iff : s.phase? = some .shutdown ↔ s = .stopped := by
  cases s <;> simp [phase?]

theorem connection?_eq_none {phase : Phase}
    (without : phase = .connecting ∨ phase = .disconnected ∨ phase = .shutdown)
    (shown : s.phase? = some phase) : s.connection? = none := by
  rcases without with rfl | rfl | rfl
  · rw [phase?_eq_connecting_iff.1 shown]
    rfl
  · rw [phase?_eq_disconnected_iff.1 shown]
    rfl
  · rw [phase?_eq_shutdown_iff.1 shown]
    rfl

/-- Every loss is reported while the client goes on without a verified session. -/
theorem telling_eq_silent {phase : Phase}
    (unverified : phase = .connecting ∨ phase = .verifying ∨ phase = .disconnected)
    (shown : s.phase? = some phase) : s.telling = .silent := by
  rcases unverified with rfl | rfl | rfl
  · rw [phase?_eq_connecting_iff.1 shown]
    rfl
  · obtain ⟨k, waiting⟩ := phase?_eq_verifying_iff.1 shown
    exact Client.telling_of_unverified? waiting
  · rw [phase?_eq_disconnected_iff.1 shown]
    rfl

theorem views_told (stage : Stage) (outcomes : List (Sender × Outcome)) :
    (Client.told stage outcomes).phase? = stage.phase? ∧
      (Client.told stage outcomes).taking? = stage.taking? := by
  rcases Client.told_cases stage outcomes with same | ⟨k, before, after, rfl, told⟩
  · rw [same]
    exact ⟨rfl, rfl⟩
  · rw [told]
    exact ⟨rfl, rfl⟩

end Stage

/-! ## What was posted about sessions -/

/-- Whether an event says that a session begins or ends. -/
def Event.turns : Event → Bool
  | .connected | .disconnected => true
  | .packet _ => false

/-- The last event that says that a session begins or ends. -/
def Journal.lastTurn? (j : Journal) : Option Event := (j.posted.filter Event.turns).getLast?

theorem filter_turns_packets (ps : List Packet) :
    (ps.map Event.packet).filter Event.turns = [] := by
  refine List.filter_eq_nil_iff.2 fun event among => ?_
  obtain ⟨packet, -, rfl⟩ := List.mem_map.1 among
  exact Bool.false_ne_true

/-- In a verified session, the last of these events is that it is verified. -/
theorem Told.getLast?_of_talking {events : List Event} (told : Told events .talking) :
    (events.filter Event.turns).getLast? = some .connected := by
  obtain ⟨past, ps, rfl⟩ := told
  rw [List.filter_append, List.filter_cons_of_pos rfl, filter_turns_packets]
  exact List.getLast?_concat

/-- Outside a verified session, the last of these events, if there is one, is a loss. -/
theorem Told.getLast?_of_silent {events : List Event} (told : Told events .silent) {last : Event}
    (found : (events.filter Event.turns).getLast? = some last) : last = .disconnected := by
  obtain ⟨past, rfl⟩ := told
  rcases List.eq_nil_or_concat past with rfl | ⟨earlier, ps, rfl⟩
  · cases found
  · rw [List.concat_eq_append, sessions_concat, ← List.cons_append, ← List.append_assoc,
      List.filter_append] at found
    exact (Option.some.inj (List.getLast?_concat.symm.trans found)).symm

/-! ## What came in -/

/-- The version of the console is among the packets that came in on a connection. -/
def Journal.HeardVersion (j : Journal) (k : Nat) : Prop :=
  ∃ p ∈ (empty.push (j.heard k)).1, p.payload.isVersion

theorem Split.exists_isVersion {packets before after : List Packet} {version : Packet}
    (split : Split packets before version after) : ∃ p ∈ packets, p.payload.isVersion := by
  refine ⟨version, ?_, split.isVersion⟩
  rw [split.parts]
  exact List.mem_append_right _ List.mem_cons_self

namespace Client

variable {c d : Client}

/-! ## What follows the stage -/

/-- What others see of a client goes with its stage. -/
structure Displayed (c : Client) : Prop where
  phase : ∀ phase, c.stage.phase? = some phase → c.phase = phase
  live : c.live = c.stage.taking?

theorem displayed_start (policy : Policy) : Displayed (.start policy) where
  phase _ h := Option.some.inj h
  live := rfl

theorem Displayed.same (shown : Displayed c) (phase : d.phase = c.phase) (live : d.live = c.live)
    (stage : d.stage.phase? = c.stage.phase? ∧ d.stage.taking? = c.stage.taking?) :
    Displayed d where
  phase p h := phase.trans (shown.phase p (stage.1.symm.trans h))
  live := live.trans (shown.live.trans stage.2.symm)

theorem displayed_leave (c : Client) (k : Nat) (ending : Ending) :
    Displayed (c.leave k ending) where
  phase _ h := nomatch h
  live := rfl

theorem displayed_stop (c : Client) : Displayed c.stop where
  phase _ h := Option.some.inj h
  live := rfl

theorem displayed_lose (quiet : c.live = none) (verified : Bool) (failure : Failure) :
    Displayed (c.lose verified failure) := by
  cases answer : c.answer with
  | some outcome =>
    rw [lose_of_answered (Option.isSome_of_mem answer)]
    cases verified <;> exact ⟨fun p h => Option.some.inj h, quiet⟩
  | none =>
    rw [lose_of_unanswered answer, reply_eq]
    exact (displayed_stop c).same rfl rfl ⟨rfl, rfl⟩

theorem displayed_submit (shown : Displayed c) (packet : Packet) :
    Displayed (c.submit packet) := by
  rcases c.submit_cases packet with ⟨failure, refused⟩ | ⟨frame, k, box, after, -, -, -, -, taken⟩
  · rw [refused]
    exact shown.same rfl rfl ⟨rfl, rfl⟩
  · rw [taken]
    exact shown.same rfl rfl ⟨rfl, rfl⟩

theorem displayed_deliver (shown : Displayed c) (box : Option Outbox)
    (outcomes : List (Sender × Outcome)) :
    Displayed ({ c with outbox := box }.deliver outcomes) := by
  rw [deliver_eq]
  exact shown.same rfl rfl (Stage.views_told c.stage outcomes)

theorem displayed_of_happens {a : Action} (shown : Displayed c) (h : Happens c a d) :
    Displayed d := by
  have quiet (untaken : c.stage.taking? = none) : c.live = none := shown.live.trans untaken
  cases h with
  | start stage | expirePause _ stage =>
    exact ⟨fun p h => Option.some.inj h, quiet (congrArg Stage.taking? stage)⟩
  | heedAlone => exact displayed_stop c
  | heed | expireSession | learnFailure | desert | ended | readFailed => exact displayed_leave c _ _
  | expireDial _ stage | refused stage =>
    exact displayed_lose (quiet (congrArg Stage.taking? stage)) _ _
  | learn stage =>
    exact shown.same rfl rfl
      ⟨(congrArg Stage.phase? stage).symm, (congrArg Stage.taking? stage).symm⟩
  | halt | flushed | writeFailed => exact displayed_deliver shown _ _
  | @close k ending stage =>
    cases ending with
    | shutdown => exact displayed_stop _
    | lost verified failure =>
      have closed : ({ c with outbox := none }.note (.closed k)).live = none :=
        quiet (congrArg Stage.taking? stage)
      exact displayed_lose closed verified failure
  | take | advance | collect | wrote | build | release | elapse =>
    exact shown.same rfl rfl ⟨rfl, rfl⟩
  | connected stage =>
    obtain ⟨frame, -, begun⟩ := c.begin_eq
    rw [begun]
    exact ⟨fun p h => Option.some.inj h, quiet (congrArg Stage.taking? stage)⟩
  | hearNothing _ stage =>
    exact shown.same rfl rfl
      ⟨(congrArg Stage.phase? stage).symm, (congrArg Stage.taking? stage).symm⟩
  | hearVersion =>
    rw [postAll_eq, reply_eq]
    exact ⟨fun p h => Option.some.inj h, rfl⟩
  | hear _ stage =>
    rw [postAll_eq]
    exact shown.same rfl rfl
      ⟨(congrArg Stage.phase? stage).symm, (congrArg Stage.taking? stage).symm⟩
  | send payload =>
    have built : Displayed (c.build payload).2 := shown.same rfl rfl ⟨rfl, rfl⟩
    exact displayed_submit built _
  | sendPacket packet => exact displayed_submit shown packet
  | disconnect =>
    rw [disconnect_eq]
    exact shown.same rfl rfl ⟨rfl, rfl⟩

theorem Reachable.displayed {policy : Policy} (h : Reachable policy c) : Displayed c :=
  h.induction (displayed_start policy) displayed_of_happens

/-! ## Rest -/

theorem phase?_of_atRest (rest : c.atRest) :
    ∃ phase, c.stage.phase? = some phase ∧ phase ≠ .idle := by
  have idle := atRest_iff.1 rest
  cases stage : c.stage with
  | idle =>
    have start := idle .start
    simp [move?, stage] at start
  | closing k ending =>
    have halt := idle .halt
    have close := idle .close
    cases writing : c.writing <;> simp [move?, stage, writing] at halt close
  | dialing | asking | verifying | running | pausing | stopped => exact ⟨_, rfl, Phase.noConfusion⟩

/-- No deadline has come for a client at rest: it acts on every one. -/
theorem not_due_of_atRest (rest : c.atRest) : c.due = false := by
  have idle := atRest_iff.1 rest
  have expire := idle .expire
  by_contra due
  rw [Bool.not_eq_false] at due
  simp only [move?, due, if_true] at expire
  cases stage : c.stage with
  | asking k told =>
    cases told with
    | none => simp [Client.expire, stage] at expire
    | some outcome =>
      -- What became of the request is learned first.
      have learn := idle .learn
      cases outcome <;> simp [move?, Client.learn, stage] at learn
  | dialing | verifying | pausing => simp [Client.expire, stage] at expire
  | idle | running | closing | stopped => simp [Client.due, deadline, stage] at due

/-! ## The connection of the session -/

/-- The connection of the session is the latest one, and open. -/
theorem Reachable.connection_open {policy : Policy} (h : Reachable policy c) {k : Nat}
    (held : c.stage.connection? = some k) :
    c.journal.latest = some k ∧ c.journal.unclosed = [k] := by
  have faithful := faithful_of_reachable h
  refine ⟨(faithful.latest k).2 (faithful.connection k held), ?_⟩
  rw [h.wired.unclosed, held, Option.toList_some]

/-- The version has come in on the connection of a session exactly if the session is verified. -/
theorem Reachable.heardVersion_iff {policy : Policy} (h : Reachable policy c) {k : Nat}
    (session : c.stage.session? = some k) :
    c.journal.HeardVersion k ↔ c.stage.unverified? = none := by
  have faithful := faithful_of_reachable h
  have latest := faithful.connection k (Stage.connection?_of_session? session)
  obtain ⟨course, account, agrees, -⟩ := faithful.account k (by omega)
  have course := (agrees latest).course session
  by_cases unverified : c.stage.unverified?.isSome
  · rw [if_pos unverified] at course
    subst course
    cases account with
    | unverified passed =>
      refine iff_of_false ?_ (Option.isSome_iff_ne_none.1 unverified)
      rintro ⟨p, among, version⟩
      have := passed p among
      rw [version] at this
      cases this
  · rw [if_neg unverified] at course
    subst course
    cases account with
    | talking split =>
      exact iff_of_true split.exists_isVersion (Option.not_isSome_iff_eq_none.1 unverified)

/-! ## The views -/

/-- **At rest, all views of a client agree.**

A client that has nothing more to do without time passing shows one of five states. It takes frames
exactly if it shows that it is connected. Then the latest connection is open, the version has come
in on it, and what was posted last about sessions is that one is verified. While it verifies, the
latest connection is open and the version has not come in. While it connects, a dial is in flight;
while it is disconnected, it waits for the next dial; then, and when it is shut down, no connection
is open. As long as it goes on without a verified session, what was posted last about sessions is a
loss, if anything was. -/
theorem Reachable.views_agree {policy : Policy} (h : Reachable policy c) (rest : c.atRest) :
    c.phase ≠ .idle ∧
    (c.isConnected ↔ c.phase = .connected) ∧
    (c.phase = .connected → ∃ k, c.live = some k ∧ c.journal.latest = some k ∧
      c.journal.unclosed = [k] ∧ c.journal.HeardVersion k ∧
      c.journal.lastTurn? = some .connected) ∧
    (c.phase = .verifying → ∃ k, c.journal.latest = some k ∧ c.journal.unclosed = [k] ∧
      ¬c.journal.HeardVersion k) ∧
    (c.phase = .connecting → c.journal.dialing = 1) ∧
    (c.phase = .disconnected → c.stage = .pausing ∧ c.due = false) ∧
    (c.phase = .connecting ∨ c.phase = .disconnected ∨ c.phase = .shutdown →
      c.journal.unclosed = []) ∧
    (c.phase = .connecting ∨ c.phase = .verifying ∨ c.phase = .disconnected →
      ∀ last, c.journal.lastTurn? = some last → last = .disconnected) := by
  obtain ⟨told, -⟩ := h.told
  obtain ⟨phase, shown, begun⟩ := phase?_of_atRest rest
  obtain rfl := h.displayed.phase phase shown
  have taking : c.isConnected ↔ c.phase = .connected := by
    rw [isConnected, h.displayed.live, Stage.isSome_taking?_iff, shown, Option.some.injEq]
  refine ⟨begun, taking, fun connected => ?_, fun verifying => ?_, fun connecting => ?_,
    fun disconnected => ?_, fun without => ?_, fun unverified => ?_⟩
  · rw [connected] at shown
    obtain ⟨k, framer, stage⟩ := Stage.phase?_eq_connected_iff.1 shown
    obtain ⟨latest, unclosed⟩ := h.connection_open (congrArg Stage.connection? stage)
    have heard := (h.heardVersion_iff (congrArg Stage.session? stage)).2
      (congrArg Stage.unverified? stage)
    rw [stage] at told
    exact ⟨k, h.displayed.live.trans (congrArg Stage.taking? stage), latest, unclosed, heard,
      told.getLast?_of_talking⟩
  · rw [verifying] at shown
    obtain ⟨k, waiting⟩ := Stage.phase?_eq_verifying_iff.1 shown
    have session := Stage.session?_of_unverified? waiting
    obtain ⟨latest, unclosed⟩ := h.connection_open (Stage.connection?_of_session? session)
    refine ⟨k, latest, unclosed, fun heard => ?_⟩
    cases waiting.symm.trans ((h.heardVersion_iff session).1 heard)
  · rw [connecting] at shown
    rw [h.wired.dialing, if_pos (Stage.phase?_eq_connecting_iff.1 shown)]
  · rw [disconnected] at shown
    have stage := Stage.phase?_eq_disconnected_iff.1 shown
    exact ⟨stage, not_due_of_atRest rest⟩
  · rw [h.wired.unclosed, Stage.connection?_eq_none without shown]
    rfl
  · rw [Stage.telling_eq_silent unverified shown] at told
    exact fun last found => told.getLast?_of_silent found

/-- A client with a verified session, and the same client when the session is lost. -/
theorem views_agree_lostSession :
    ∃ c d, (Client.start { failFast := false }).run? verification = some c ∧ c.atRest ∧
      c.phase = .connected ∧ c.isConnected ∧ c.journal.lastTurn? = some .connected ∧
      (Client.start { failFast := false }).run? lostSession = some d ∧ d.atRest ∧
      d.phase = .disconnected ∧ ¬d.isConnected ∧ d.journal.unclosed = [] ∧
      d.journal.lastTurn? = some .disconnected := by
  have verified : ((Client.start { failFast := false }).run? verification).map
      (fun c => (c.atRest, c.phase)) = some (true, .connected) := by decide +kernel
  have lost : ((Client.start { failFast := false }).run? lostSession).map
      (fun d => (d.atRest, d.phase, d.journal.lastTurn?)) =
        some (true, .disconnected, some .disconnected) := by decide +kernel
  obtain ⟨c, hc, views⟩ := Option.map_eq_some_iff.1 verified
  obtain ⟨d, hd, views'⟩ := Option.map_eq_some_iff.1 lost
  obtain ⟨rest, phase⟩ := Prod.mk.inj views
  obtain ⟨rest', views'⟩ := Prod.mk.inj views'
  obtain ⟨phase', last'⟩ := Prod.mk.inj views'
  obtain ⟨-, taking, connected, -⟩ := (Reachable.start.run? hc).views_agree rest
  obtain ⟨-, taking', -, -, -, -, without, -⟩ := (Reachable.start.run? hd).views_agree rest'
  obtain ⟨k, -, -, -, -, last⟩ := connected phase
  refine ⟨c, d, hc, rest, phase, taking.2 phase, last, hd, rest', phase', ?_,
    without (.inr (.inl phase')), last'⟩
  rw [taking', phase']
  exact Phase.noConfusion

end Client

end ClimateLink
