import ClimateLink.Proofs.Client.Views

/-!
# How a client goes from one state to the next

A client shows one of a few states, and most of what happens to it does not change which. Here the
steps of a client are told apart by that alone.

**Theorem (`turns_of_happens`).** Every step either goes on in the state that is shown
(`SameShown`), leaves a session whose state is shown until its connection is closed (`Leaves`),
arrives in a state (`Arrives`), which may be the next dial, a connection, a verified session, a
pause or the end, or lets time pass.
-/

namespace ClimateLink

/-! ## Views of the journal and of stages -/

/-- Whether an entry is neither about a state that is shown nor about a dial. -/
def Occurrence.plain : Occurrence → Bool
  | .entered _ | .dialled => false
  | _ => true

namespace Journal

/-- The state that was shown last, and when it was entered. -/
def lastPhase? : Journal → Option (Nat × Phase)
  | [] => none
  | (t, .entered phase) :: _ => some (t, phase)
  | _ :: j => lastPhase? j

theorem dials_cons (t : Nat) (o : Occurrence) (j : Journal) :
    dials ((t, o) :: j) = dials j + if o = .dialled then 1 else 0 := by
  rw [dials, List.countP_cons, ← dials]
  simp only [beq_iff_eq]

/-- Entries about other things do not change which state was shown last. -/
theorem lastPhase?_append {entries : Journal} (plain : ∀ e ∈ entries, e.2.plain) (j : Journal) :
    lastPhase? (entries ++ j) = lastPhase? j := by
  induction entries with
  | nil => rfl
  | cons e entries ih =>
    obtain ⟨t, o⟩ := e
    obtain ⟨first, later⟩ := List.forall_mem_cons.1 plain
    refine Eq.trans ?_ (ih later)
    cases o with
    | entered | dialled => cases first
    | _ => rfl

end Journal

/-- Why the session is over whose connection is still to be closed. -/
def Stage.ending? : Stage → Option Ending
  | .closing _ ending => some ending
  | _ => none

theorem Stage.ending?_told (stage : Stage) (outcomes : List (Sender × Outcome)) :
    (Client.told stage outcomes).ending? = stage.ending? := by
  rcases Client.told_cases stage outcomes with same | ⟨k, before, after, rfl, told⟩
  · rw [same]
  · rw [told]
    rfl

/-- What a session ends with is known exactly while its connection is being closed. -/
theorem Stage.phase?_eq_none_iff {s : Stage} : s.phase? = none ↔ s.ending?.isSome := by
  cases s <;> simp [phase?, ending?]

theorem Stage.exists_closing {s : Stage} {ending : Ending} (ends : s.ending? = some ending) :
    ∃ k, s = .closing k ending := by
  cases s with
  | closing k ended => exact ⟨k, congrArg (Stage.closing k) (Option.some.inj ends)⟩
  | idle | dialing | asking | verifying | running | pausing | stopped => cases ends

namespace Client

variable {c d : Client}

/-! ## The kinds of steps -/

/-- From `c` to `d` the same state is shown, since the same time. -/
structure SameShown (c d : Client) : Prop where
  policy : d.policy = c.policy
  clock : d.clock = c.clock
  since : d.since = c.since
  phase : d.phase = c.phase
  answer : d.answer = c.answer
  shown : d.stage.phase? = c.stage.phase?
  ending : d.stage.ending? = c.stage.ending?
  notes : Notes (fun o => o.plain) c d

/-- From `c` to `d` a session ends, whose connection is still to be closed. -/
structure Leaves (c d : Client) (ending : Ending) : Prop where
  policy : d.policy = c.policy
  clock : d.clock = c.clock
  since : d.since = c.clock
  phase : d.phase = c.phase
  answer : d.answer = c.answer
  ending : d.stage.ending? = some ending
  lastPhase : d.journal.lastPhase? = c.journal.lastPhase?
  dials : d.journal.dials = c.journal.dials

/-- From `c` to `d` a state is entered. -/
structure Arrives (c d : Client) (next : Phase) : Prop where
  policy : d.policy = c.policy
  clock : d.clock = c.clock
  since : d.since = c.clock
  phase : d.phase = next
  shown : d.stage.phase? = some next
  lastPhase : d.journal.lastPhase? = some (c.clock, next)
  dials : d.journal.dials = c.journal.dials + if next = .connecting then 1 else 0

/-- There is nothing to be closed for an attempt or a session that is lost. -/
def Bereft (c : Client) : Prop :=
  c.stage = .dialing ∨ ∃ verified failure, c.stage.ending? = some (.lost verified failure)

/-- What a step from `c` does with the state that is shown. -/
inductive Turns (c : Client) : Client → Prop where
  | goesOn {d : Client} (same : SameShown c d) : Turns c d
  | leaves {d : Client} {ending : Ending} (session : c.stage.session?.isSome)
    (told : ending = .shutdown → c.stopping) (leaves : Leaves c d ending) : Turns c d
  | redials {d : Client} (ready : c.stage = .idle ∨ c.stage = .pausing ∧ c.due)
    (arrives : Arrives c d .connecting) (answer : d.answer = c.answer) : Turns c d
  | opens {d : Client} (stage : c.stage = .dialing) (arrives : Arrives c d .verifying)
    (answer : d.answer = c.answer) : Turns c d
  | verifies {d : Client} (session : c.stage.unverified?.isSome)
    (arrives : Arrives c d .connected) (answer : d.answer = some (c.answer.getD (.ok ()))) :
    Turns c d
  | pauses {d : Client} (bereft : Bereft c) (answered : c.answer.isSome)
    (arrives : Arrives c d .disconnected) (answer : d.answer = c.answer) : Turns c d
  /-- A first attempt that fails is reported. -/
  | gives {d : Client} (failure : Failure) (bereft : Bereft c) (unanswered : c.answer = none)
    (arrives : Arrives c d .shutdown) (answer : d.answer = some (.error failure)) : Turns c d
  | stops {d : Client} (told : c.stopping ∧ (c.stage = .dialing ∨ c.stage = .pausing) ∨
      c.stage.ending? = some .shutdown)
    (arrives : Arrives c d .shutdown) (answer : d.answer = c.answer) : Turns c d
  | waits {ms : Nat} (rest : c.atRest) (soon : c.deadline.all (c.clock + ms ≤ ·)) :
    Turns c { c with clock := c.clock + ms }

/-! ## Changes that go on in the same state -/

theorem SameShown.refl (c : Client) : SameShown c c :=
  ⟨rfl, rfl, rfl, rfl, rfl, rfl, rfl, notes_nothing rfl⟩

theorem SameShown.trans {e : Client} (first : SameShown c d) (second : SameShown d e) :
    SameShown c e where
  policy := second.policy.trans first.policy
  clock := second.clock.trans first.clock
  since := second.since.trans first.since
  phase := second.phase.trans first.phase
  answer := second.answer.trans first.answer
  shown := second.shown.trans first.shown
  ending := second.ending.trans first.ending
  notes := first.notes.trans second.notes

theorem SameShown.lastPhase (same : SameShown c d) :
    d.journal.lastPhase? = c.journal.lastPhase? := by
  obtain ⟨new, journal, plain⟩ := same.notes
  rw [journal, Journal.lastPhase?_append plain]

theorem SameShown.dials (same : SameShown c d) : d.journal.dials = c.journal.dials :=
  same.notes.dials Bool.false_ne_true

theorem sameShown_deliver (box : Option Outbox) (outcomes : List (Sender × Outcome)) :
    SameShown c ({ c with outbox := box }.deliver outcomes) := by
  rw [deliver_eq]
  exact { SameShown.refl c with
    shown := (Stage.views_told c.stage outcomes).1
    ending := Stage.ending?_told c.stage outcomes }

theorem stage_deliver (shown : c.stage.phase? ≠ some .verifying) (box : Option Outbox)
    (outcomes : List (Sender × Outcome)) :
    ({ c with outbox := box }.deliver outcomes).stage = c.stage := by
  rw [deliver_eq]
  refine (told_cases _ _).resolve_right ?_
  rintro ⟨k, before, after, stage, -⟩
  exact shown (congrArg Stage.phase? stage)

theorem sameShown_submit (c : Client) (packet : Packet) : SameShown c (c.submit packet) := by
  have notes : Notes (fun o => o.plain) c (c.submit packet) :=
    notes_submit c packet (fun _ => rfl) fun _ _ _ _ => rfl
  rcases c.submit_cases packet with
    ⟨failure, same⟩ | ⟨frame, k, box, after, -, -, -, -, same⟩ <;>
    rw [same] at notes ⊢ <;> exact { SameShown.refl c with notes := notes }

/-! ## Changes that enter a state -/

theorem arrives_dial (c : Client) : Arrives c c.dial .connecting := by
  refine ⟨rfl, rfl, rfl, rfl, rfl, rfl, ?_⟩
  show Journal.dials ((c.clock, .dialled) :: (c.clock, .entered .connecting) :: c.journal) = _
  rw [Journal.dials_cons, Journal.dials_cons]
  rfl

theorem arrives_begin (c : Client) : Arrives c c.begin .verifying ∧ c.begin.answer = c.answer := by
  obtain ⟨frame, -, begun⟩ := c.begin_eq
  rw [begun]
  refine ⟨⟨rfl, rfl, rfl, rfl, rfl, rfl, ?_⟩, rfl⟩
  show Journal.dials ((c.clock, .built _) :: (c.clock, .entered .verifying) ::
    (c.clock, .opened _) :: c.journal) = _
  rw [Journal.dials_cons, Journal.dials_cons, Journal.dials_cons]
  rfl

/-- A loss that leaves nothing to be closed is followed by a pause, unless it is to be reported. -/
theorem turns_lose {b : Client} (bereft : Bereft c) (policy : b.policy = c.policy)
    (clock : b.clock = c.clock) (answer : b.answer = c.answer) {verified : Bool}
    {failure : Failure} (dials : (b.lose verified failure).journal.dials = c.journal.dials) :
    Turns c (b.lose verified failure) := by
  have now (phase : Phase) : some (b.clock, phase) = some (c.clock, phase) := by rw [clock]
  cases known : b.answer with
  | some outcome =>
    have answered : c.answer.isSome := Option.isSome_of_mem (answer.symm.trans known)
    rw [lose_eq, known] at dials ⊢
    refine .pauses bereft answered ⟨policy, clock, clock, rfl, rfl, ?_, dials⟩ ?_
    · cases verified <;> exact now .disconnected
    · exact known.symm.trans answer
  | none =>
    rw [lose_eq, known] at dials ⊢
    exact .gives failure bereft (answer.symm.trans known)
      ⟨policy, clock, clock, rfl, rfl, now .shutdown, dials⟩ rfl

/-- **Every step is of one of these kinds.** -/
theorem turns_of_happens {a : Action} (h : Happens c a d) : Turns c d := by
  have session {k : Nat} (held : c.stage.session? = some k) : c.stage.session?.isSome :=
    Option.isSome_of_mem held
  have leaving (k : Nat) (ending : Ending) : Leaves c (c.leave k ending) ending :=
    ⟨rfl, rfl, rfl, rfl, rfl, rfl, rfl, rfl⟩
  have undialled (other : ¬May c a .dialled) : d.journal.dials = c.journal.dials :=
    (notes_of_happens h).dials other
  cases h with
  | start stage => exact .redials (.inl stage) (arrives_dial c) rfl
  | heedAlone told stage =>
    exact .stops (.inl ⟨told, stage⟩)
      ⟨rfl, rfl, rfl, rfl, rfl, rfl, undialled (by simp [May])⟩ rfl
  | heed told held => exact .leaves (session held) (fun _ => told) (leaving _ _)
  | expireDial _ stage =>
    exact turns_lose (.inl stage) rfl rfl rfl (undialled (by simp [May, stage]))
  | refused stage => exact turns_lose (.inl stage) rfl rfl rfl (undialled (by simp [May]))
  | expireSession _ held =>
    exact .leaves (session (Stage.session?_of_unverified? held)) Ending.noConfusion (leaving _ _)
  | expirePause due stage => exact .redials (.inr ⟨stage, due⟩) (arrives_dial c) rfl
  | learn stage =>
    exact .goesOn { SameShown.refl c with
      shown := (congrArg Stage.phase? stage).symm
      ending := (congrArg Stage.ending? stage).symm }
  | learnFailure stage | desert stage =>
    exact .leaves (session (congrArg Stage.session? stage)) Ending.noConfusion (leaving _ _)
  | halt | flushed | writeFailed => exact .goesOn (sameShown_deliver _ _)
  | @close k ending stage =>
    have ended := congrArg Stage.ending? stage
    have dials := undialled (by simp [May])
    cases ending with
    | shutdown => exact .stops (.inr ended) ⟨rfl, rfl, rfl, rfl, rfl, rfl, dials⟩ rfl
    | lost verified failure =>
      show Turns c (({ c with outbox := none }.note (.closed k)).lose verified failure)
      refine turns_lose (.inr ⟨verified, failure, ended⟩) ?_ ?_ ?_ dials <;> rfl
  | take | advance | release => exact .goesOn { SameShown.refl c with }
  | collect | wrote => exact .goesOn { SameShown.refl c with notes := notes_one rfl rfl }
  | connected stage => exact .opens stage (arrives_begin c).1 (arrives_begin c).2
  | hearNothing _ stage =>
    exact .goesOn { SameShown.refl c with
      shown := (congrArg Stage.phase? stage).symm
      ending := (congrArg Stage.ending? stage).symm
      notes := notes_one rfl rfl }
  | hearVersion _ stage =>
    have dials := undialled (by simp [May])
    rw [postAll_eq, reply_eq] at dials ⊢
    refine .verifies (Option.isSome_of_mem (congrArg Stage.unverified? stage))
      ⟨rfl, rfl, rfl, rfl, rfl, ?_, dials⟩ rfl
    -- What was shown last lies behind the packets and the answer.
    rw [Journal.lastPhase?_append ((Journal.forall_mem_packets _).2 fun _ _ => rfl),
      Journal.lastPhase?_append ((Journal.forall_mem_answer _ _ _).2 fun _ => rfl)]
    rfl
  | @hear k framer chunk _ stage =>
    have heard : SameShown c (c.note (.heard k chunk)) :=
      { SameShown.refl c with notes := notes_one rfl rfl }
    have posted : Notes (fun o => o.plain) (c.note (.heard k chunk))
        ((c.note (.heard k chunk)).postAll (framer.push chunk).1) := by
      rw [postAll_eq]
      exact ⟨_, rfl, (Journal.forall_mem_packets _).2 fun _ _ => rfl⟩
    rw [postAll_eq] at posted ⊢
    exact .goesOn { heard with
      shown := (congrArg Stage.phase? stage).symm
      ending := (congrArg Stage.ending? stage).symm
      notes := heard.notes.trans posted }
  | ended reading | readFailed reading =>
    exact .leaves (session (session?_of_reading reading).1) Ending.noConfusion (leaving _ _)
  | send payload =>
    have built : SameShown c (c.build payload).2 :=
      { SameShown.refl c with notes := notes_one rfl rfl }
    exact .goesOn (built.trans (sameShown_submit _ _))
  | sendPacket packet => exact .goesOn (sameShown_submit c packet)
  | build payload => exact .goesOn { SameShown.refl c with notes := notes_one rfl rfl }
  | disconnect =>
    rw [disconnect_eq]
    exact .goesOn { SameShown.refl c with notes := notes_one rfl rfl }
  | elapse _ rest soon => exact .waits rest soon

end Client

end ClimateLink
