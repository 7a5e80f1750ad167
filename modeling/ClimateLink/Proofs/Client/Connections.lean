import ClimateLink.Proofs.Client.Account
import ClimateLink.Proofs.Client.Sound

/-!
# One connection at a time

A console serves one client at a time, so a client must not dial while it still has a connection.
Whether it ever does can be read off its journal: a dial is in flight until it gives a connection or
the client shows that it is without one, and a connection is open until the client closes it.

**Theorem (`Reachable.one_at_a_time`).** At every moment of every run, at most one dial is in flight
or one connection is open. When a dial is started, every connection so far is closed, its writer is
gone, and nothing happens on it any more.

**The invariant (`Wired`).** The journal is in order: every entry about a dial or a connection comes
when the entries before it allow it. And it says of dials and connections what the stage says.
-/

namespace ClimateLink

/-- The connection on which something happened. -/
def Occurrence.on? : Occurrence → Option Nat
  | .opened k | .closed k | .heard k _ | .wrote k _ | .accepted _ k _ => some k
  | _ => none

/-- Whether a dial begins or ends, or a connection. -/
def Occurrence.turns : Occurrence → Bool
  | .dialled | .opened _ | .closed _ | .entered .disconnected | .entered .shutdown => true
  | _ => false

/-- With an entry no dial or connection begins or ends, and what happens on a connection happens on
the one that is held. -/
def Occurrence.KeepsConnections (held : Option Nat) (o : Occurrence) : Prop :=
  o.turns = false ∧ (o.on? = none ∨ o.on? = held)

/-- The actions with which a dial or a connection begins or ends. -/
def Action.turns : Action → Bool
  | .move .start | .move .heed | .move .expire | .move .close | .signal .connected
  | .signal (.refused _) => true
  | _ => false

theorem Action.turns_of_loses {a : Action} (loses : a.loses) : a.turns := by
  rcases loses with rfl | rfl | ⟨reason, rfl⟩ <;> rfl

theorem Stage.ne_dialing {s : Stage} {k : Nat} (held : s.connection? = some k) : s ≠ .dialing := by
  rintro rfl
  cases held

namespace Journal

/-! ## Dials and connections -/

/-- The number of dials in flight. A dial is over with the connection that it gives, or when the
client shows that it has none and dials later or never. -/
def dialing : Journal → Nat
  | [] => 0
  | (_, .dialled) :: j => dialing j + 1
  | (_, .opened _) :: j | (_, .entered .disconnected) :: j | (_, .entered .shutdown) :: j =>
    dialing j - 1
  | _ :: j => dialing j

/-- The connections that are open, the latest one first. -/
def unclosed : Journal → List Nat
  | [] => []
  | (_, .opened k) :: j => k :: unclosed j
  | (_, .closed k) :: j => (unclosed j).erase k
  | _ :: j => unclosed j

/-- The connection has been opened. -/
def Opened (j : Journal) (k : Nat) : Prop := ∃ t, (t, .opened k) ∈ j

/-- What an entry needs of the entries before it: a dial, that there is neither a dial nor a
connection; a connection, that there is a dial and that its number is new; and whatever happens on
a connection, that this one is open. -/
def Fits (j : Journal) : Occurrence → Prop
  | .dialled => j.dialing = 0 ∧ j.unclosed = []
  | .opened k => j.dialing = 1 ∧ j.unclosed = [] ∧ ∀ l, j.Opened l → l < k
  | .closed k | .heard k _ | .wrote k _ | .accepted _ k _ => j.dialing = 0 ∧ j.unclosed = [k]
  | _ => True

/-- Every entry has what it needs of those before it. -/
def Orderly : Journal → Prop
  | [] => True
  | (_, o) :: j => Fits j o ∧ Orderly j

theorem opened_cons {t : Nat} {o : Occurrence} {j : Journal} {k : Nat} :
    Opened ((t, o) :: j) k ↔ o = .opened k ∨ j.Opened k := by
  simp only [Opened, List.mem_cons, Prod.mk.injEq]
  constructor
  · rintro ⟨s, ⟨-, same⟩ | before⟩
    · exact .inl same.symm
    · exact .inr ⟨s, before⟩
  · rintro (same | ⟨s, before⟩)
    · exact ⟨t, .inl ⟨rfl, same.symm⟩⟩
    · exact ⟨s, .inr before⟩

/-! ## Journals in order -/

/-- An entry that turns nothing leaves dials and connections as they were. -/
theorem views_of_not_turns {o : Occurrence} (minor : o.turns = false) (t : Nat) (j : Journal) :
    dialing ((t, o) :: j) = j.dialing ∧ unclosed ((t, o) :: j) = j.unclosed ∧
      ∀ k, Opened ((t, o) :: j) k ↔ j.Opened k := by
  have same (k : Nat) : o ≠ .opened k := by
    rintro rfl
    cases minor
  refine ⟨?_, ?_, fun k => opened_cons.trans (or_iff_right (same k))⟩
  · cases o with
    | entered phase => cases phase <;> first | rfl | cases minor
    | dialled | opened => cases minor
    | _ => rfl
  · cases o with
    | opened | closed => cases minor
    | _ => rfl

/-- At most one dial or one connection, if the entries are in order. -/
theorem Orderly.alone {j : Journal} (orderly : j.Orderly) :
    j.dialing + j.unclosed.length ≤ 1 := by
  induction j with
  | nil => exact Nat.zero_le 1
  | cons e j ih =>
    obtain ⟨t, o⟩ := e
    obtain ⟨fits, before⟩ := orderly
    have le := ih before
    by_cases turns : o.turns
    · cases o with
      | dialled =>
        obtain ⟨none, closed⟩ := fits
        simp only [dialing, unclosed, none, closed, List.length_nil]
        omega
      | opened k =>
        obtain ⟨one, closed, -⟩ := fits
        simp only [dialing, unclosed, one, closed, List.length_cons, List.length_nil]
        omega
      | closed k =>
        obtain ⟨none, held⟩ := fits
        simp only [dialing, unclosed, none, held, List.erase_cons_head, List.length_nil]
        omega
      | entered phase =>
        cases phase with
        | disconnected | shutdown =>
          simp only [dialing, unclosed]
          omega
        | idle | connecting | verifying | connected => cases turns
      | built | wrote | heard | posted | answered | accepted | refused | left | returned =>
        cases turns
    · obtain ⟨dials, held, -⟩ := views_of_not_turns (Bool.not_eq_true _ ▸ turns) t j
      rw [dials, held]
      exact le

theorem Orderly.of_append {newer older : Journal} (orderly : Orderly (newer ++ older)) :
    older.Orderly := by
  induction newer with
  | nil => exact orderly
  | cons e newer ih => exact ih orderly.2

theorem Opened.closed {j : Journal} {k : Nat} (opened : j.Opened k) :
    k ∈ j.unclosed ∨ ∃ t, (t, .closed k) ∈ j := by
  induction j with
  | nil =>
    obtain ⟨t, none⟩ := opened
    cases none
  | cons e j ih =>
    obtain ⟨t, o⟩ := e
    have older (h : Opened j k) (still : k ∈ unclosed j → k ∈ unclosed ((t, o) :: j)) :
        k ∈ unclosed ((t, o) :: j) ∨ ∃ s, (s, .closed k) ∈ (t, o) :: j := by
      rcases ih h with held | ⟨s, closed⟩
      · exact .inl (still held)
      · exact .inr ⟨s, List.mem_cons_of_mem _ closed⟩
    rcases opened_cons.1 opened with rfl | before
    · exact .inl List.mem_cons_self
    · cases o with
      | opened l => exact older before (List.mem_cons_of_mem l)
      | closed l =>
        by_cases same : k = l
        · exact .inr ⟨t, same ▸ List.mem_cons_self⟩
        · exact older before (List.mem_erase_of_ne same).2
      | _ => exact older before id

theorem opened_of_mem_unclosed {j : Journal} {k : Nat} (held : k ∈ j.unclosed) : j.Opened k := by
  induction j with
  | nil => cases held
  | cons e j ih =>
    obtain ⟨t, o⟩ := e
    refine opened_cons.2 ?_
    cases o with
    | opened l =>
      rcases List.mem_cons.1 held with rfl | before
      · exact .inl rfl
      · exact .inr (ih before)
    | closed l => exact .inr (ih (List.mem_of_mem_erase held))
    | _ => exact .inr (ih held)

/-- **Nothing happens on a connection that is not open and was opened before**: it does not come
back either. -/
theorem Orderly.silent {newer older : Journal} {k : Nat} (orderly : Orderly (newer ++ older))
    (opened : older.Opened k) (closed : k ∉ older.unclosed) :
    (∀ e ∈ newer, e.2.on? ≠ some k) ∧ (newer ++ older).Opened k ∧
      k ∉ unclosed (newer ++ older) := by
  induction newer with
  | nil =>
    refine ⟨fun e among => ?_, opened, closed⟩
    cases among
  | cons e newer ih =>
    obtain ⟨t, o⟩ := e
    obtain ⟨fits, before⟩ := orderly
    obtain ⟨silent, opened, closed⟩ := ih before
    have later : Opened ((t, o) :: (newer ++ older)) k := opened_cons.2 (.inr opened)
    have away : o.on? ≠ some k ∧ k ∉ unclosed ((t, o) :: (newer ++ older)) := by
      -- What happens on another connection leaves this one closed.
      have other {l : Nat} (held : unclosed (newer ++ older) = [l]) : l ≠ k := by
        rintro rfl
        exact closed (held ▸ List.mem_cons_self)
      cases o with
      | opened l =>
        have new : k < l := fits.2.2 k opened
        refine ⟨fun same => absurd (Option.some.inj same) (Nat.ne_of_gt new), fun held => ?_⟩
        rcases List.mem_cons.1 held with same | held
        · exact Nat.ne_of_lt new same
        · exact closed held
      | closed l =>
        refine ⟨fun same => other fits.2 (Option.some.inj same), fun held => ?_⟩
        exact closed (List.mem_of_mem_erase held)
      | heard l | wrote l | accepted _ l =>
        exact ⟨fun same => other fits.2 (Option.some.inj same), closed⟩
      | entered | dialled | built | posted | answered | refused | left | returned =>
        refine ⟨fun same => ?_, closed⟩
        cases same
    refine ⟨fun e among => ?_, later, away.2⟩
    rcases List.mem_cons.1 among with rfl | among
    · exact away.1
    · exact silent e among

/-- Such entries keep the order, and change nothing about dials and connections. -/
theorem Orderly.append {entries j : Journal} {held : Option Nat} (orderly : j.Orderly)
    (keeps : ∀ e ∈ entries, e.2.KeepsConnections held)
    (alone : ∀ k, held = some k → j.dialing = 0 ∧ j.unclosed = [k]) :
    Orderly (entries ++ j) ∧ dialing (entries ++ j) = j.dialing ∧
      unclosed (entries ++ j) = j.unclosed ∧ ∀ k, Opened (entries ++ j) k ↔ j.Opened k := by
  induction entries with
  | nil => exact ⟨orderly, rfl, rfl, fun _ => Iff.rfl⟩
  | cons e entries ih =>
    obtain ⟨t, o⟩ := e
    obtain ⟨⟨first, on⟩, later⟩ := List.forall_mem_cons.1 keeps
    obtain ⟨before, dials, unclosed, opened⟩ := ih later
    obtain ⟨dials', unclosed', opened'⟩ := views_of_not_turns first t (entries ++ j)
    refine ⟨⟨?_, before⟩, dials'.trans dials, unclosed'.trans unclosed,
      fun k => (opened' k).trans (opened k)⟩
    have fits {k : Nat} (same : o.on? = some k) :
        dialing (entries ++ j) = 0 ∧ Journal.unclosed (entries ++ j) = [k] := by
      rw [dials, unclosed]
      rcases on with none | held
      · cases none.symm.trans same
      · exact alone k (held.symm.trans same)
    cases o with
    | dialled | opened | closed => cases first
    | heard | wrote | accepted => exact fits rfl
    | entered | built | posted | answered | refused | left | returned => trivial

end Journal

namespace Client

open Journal

/-! ## The invariant -/

/-- The journal of a client is in order and says what the stage says: a dial is in flight while the
client dials, and the connection of the session is open until it is closed. An outbox belongs to
that connection. -/
structure Wired (c : Client) : Prop where
  orderly : c.journal.Orderly
  dialing : c.journal.dialing = if c.stage = .dialing then 1 else 0
  unclosed : c.journal.unclosed = c.stage.connection?.toList
  opened : ∀ k, c.journal.Opened k ↔ k < c.connections
  outbox : ∀ box, c.outbox = some box → c.stage.connection? = some box.connection

/-- A client that has no connection, and a dial at most. -/
structure Unwired (c : Client) : Prop where
  orderly : c.journal.Orderly
  dialing : c.journal.dialing ≤ 1
  unclosed : c.journal.unclosed = []
  opened : ∀ k, c.journal.Opened k ↔ k < c.connections
  outbox : c.outbox = none

variable {c d : Client}

theorem wired_start (policy : Policy) : Wired (.start policy) where
  orderly := trivial
  dialing := rfl
  unclosed := rfl
  opened k := by
    refine iff_of_false ?_ (Nat.not_lt_zero k)
    rintro ⟨t, none⟩
    cases none
  outbox box h := by cases h

/-- A connection that is held is open, and no dial is in flight. -/
theorem Wired.holding (wired : Wired c) {k : Nat} (held : c.stage.connection? = some k) :
    c.journal.dialing = 0 ∧ c.journal.unclosed = [k] := by
  rw [wired.dialing, if_neg (Stage.ne_dialing held), wired.unclosed, held]
  exact ⟨rfl, rfl⟩

theorem Wired.unwired (wired : Wired c) (none : c.stage.connection? = none) : Unwired c where
  orderly := wired.orderly
  dialing := by
    rw [wired.dialing]
    split <;> decide
  unclosed := by rw [wired.unclosed, none, Option.toList_none]
  opened := wired.opened
  outbox := by
    refine Option.eq_none_iff_forall_ne_some.2 fun box h => ?_
    cases none.symm.trans (wired.outbox box h)

/-- The connection is kept, and with it all that is noted about connections. -/
theorem Wired.keeps (wired : Wired c)
    (notes : Notes (Occurrence.KeepsConnections c.stage.connection?) c d)
    (stage : d.stage.connection? = c.stage.connection?)
    (dialing : d.stage = .dialing ↔ c.stage = .dialing)
    (connections : d.connections = c.connections)
    (outbox : ∀ box, d.outbox = some box → c.stage.connection? = some box.connection) :
    Wired d := by
  obtain ⟨new, journal, keeps⟩ := notes
  obtain ⟨orderly, dials, unclosed, opened⟩ :=
    wired.orderly.append keeps fun k held => wired.holding held
  refine ⟨journal ▸ orderly, ?_, ?_, fun k => ?_, fun box h => ?_⟩
  · simp only [journal, dials, wired.dialing, dialing]
  · rw [journal, unclosed, wired.unclosed, stage]
  · rw [journal, opened, wired.opened, connections]
  · rw [stage]
    exact outbox box h

/-- Whatever happens on a connection happens on the one that is held, unless the action begins or
ends a dial or a connection. -/
theorem Wired.keepsConnections {a : Action} {o : Occurrence} (wired : Wired c) (sound : Sound c)
    (may : May c a o) (still : a.turns = false) : o.KeepsConnections c.stage.connection? := by
  cases o with
  | entered phase =>
    refine ⟨?_, .inl rfl⟩
    have lasts (loses : a.loses) : False := by
      cases (Action.turns_of_loses loses).symm.trans still
    cases phase with
    | idle | connecting | verifying | connected => rfl
    | disconnected => exact (lasts may.2).elim
    | shutdown =>
      rcases may.2 with rfl | loses
      · cases still
      · exact (lasts loses).elim
  | dialled => rcases may with ⟨rfl, -⟩ | ⟨rfl, -⟩ <;> cases still
  | opened =>
    obtain ⟨rfl, -⟩ := may
    cases still
  | closed =>
    obtain ⟨rfl, -⟩ := may
    cases still
  | wrote =>
    obtain ⟨n, box, after, rfl, outbox, written, rfl⟩ := may
    obtain ⟨job, rest, -, -, -, -, rfl⟩ := Outbox.write_eq_some written
    exact ⟨rfl, .inr (wired.outbox box outbox).symm⟩
  | heard =>
    obtain ⟨-, reading⟩ := may
    have held := Stage.connection?_of_session? (session?_of_reading reading).1
    exact ⟨rfl, .inr held.symm⟩
  | accepted =>
    obtain ⟨-, live, -⟩ := may
    have held := Stage.connection?_of_session? (sound.live _ live)
    exact ⟨rfl, .inr held.symm⟩
  | built | posted | answered | refused | left | returned => exact ⟨rfl, .inl rfl⟩

/-! ## The changes of a client -/

theorem connection?_told (stage : Stage) (outcomes : List (Sender × Outcome)) :
    (told stage outcomes).connection? = stage.connection? ∧
      (told stage outcomes = .dialing ↔ stage = .dialing) := by
  rcases told_cases stage outcomes with same | ⟨k, before, after, rfl, told⟩
  · rw [same]
    exact ⟨rfl, Iff.rfl⟩
  · rw [told]
    exact ⟨rfl, by simp only [reduceCtorEq]⟩

theorem wired_deliver (wired : Wired c) {box : Option Outbox}
    (same : ∀ next, box = some next → c.stage.connection? = some next.connection)
    (outcomes : List (Sender × Outcome)) : Wired ({ c with outbox := box }.deliver outcomes) := by
  obtain ⟨held, dialing⟩ := connection?_told c.stage outcomes
  rw [deliver_eq]
  exact wired.keeps (notes_nothing rfl) held dialing rfl same

theorem wired_leave (wired : Wired c) {k : Nat} (held : c.stage.connection? = some k)
    (ending : Ending) : Wired (c.leave k ending) := by
  refine wired.keeps (notes_nothing rfl) held.symm (iff_of_false ?_ ?_) rfl wired.outbox
  · exact Stage.noConfusion
  · exact Stage.ne_dialing held

theorem Unwired.dial (unwired : Unwired c) (none : c.journal.dialing = 0) : Wired c.dial where
  orderly := ⟨⟨none, unwired.unclosed⟩, trivial, unwired.orderly⟩
  dialing := by
    show c.journal.dialing + 1 = 1
    rw [none]
  unclosed := unwired.unclosed
  opened k := by
    refine Iff.trans ?_ (unwired.opened k)
    simp only [Client.dial, Client.note, enter, goTo, opened_cons, reduceCtorEq, false_or]
  outbox box h := by cases unwired.outbox.symm.trans h

/-- Whoever stops or pauses without a connection has no dial in flight. -/
theorem Unwired.rests (unwired : Unwired c) {phase : Phase} {t : Nat} (more : Journal)
    (ended : phase = .disconnected ∨ phase = .shutdown)
    (keeps : ∀ e ∈ more, e.2.KeepsConnections none)
    (journal : d.journal = more ++ (t, .entered phase) :: c.journal)
    (stage : d.stage = .pausing ∨ d.stage = .stopped) (connections : d.connections = c.connections)
    (outbox : d.outbox = c.outbox) : Wired d := by
  have shown : Orderly ((t, .entered phase) :: c.journal) ∧
      Journal.dialing ((t, .entered phase) :: c.journal) = 0 ∧
      Journal.unclosed ((t, .entered phase) :: c.journal) = [] ∧
      ∀ k, Opened ((t, .entered phase) :: c.journal) k ↔ k < c.connections := by
    have none : c.journal.dialing - 1 = 0 := Nat.sub_eq_zero_of_le unwired.dialing
    refine ⟨⟨trivial, unwired.orderly⟩, ?_, unwired.unclosed, fun k => ?_⟩
    · rcases ended with rfl | rfl <;> exact none
    · rw [opened_cons, unwired.opened]
      simp only [reduceCtorEq, false_or]
  obtain ⟨orderly, dialing, unclosed, opened⟩ := shown
  obtain ⟨orderly, dials, held, known⟩ := orderly.append keeps fun k none => by cases none
  have away : d.stage ≠ .dialing ∧ d.stage.connection? = none := by
    rcases stage with same | same <;> rw [same] <;> exact ⟨Stage.noConfusion, rfl⟩
  refine ⟨journal ▸ orderly, ?_, ?_, fun k => ?_, fun box h => ?_⟩
  · rw [journal, dials, dialing, if_neg away.1]
  · rw [journal, held, unclosed, away.2, Option.toList_none]
  · rw [journal, known, opened, connections]
  · rw [outbox, unwired.outbox] at h
    cases h

theorem Unwired.stop (unwired : Unwired c) : Wired c.stop :=
  unwired.rests [] (.inr rfl) (List.forall_mem_nil _) rfl (.inr rfl) rfl rfl

theorem Unwired.lose (unwired : Unwired c) (verified : Bool) (failure : Failure) :
    Wired (c.lose verified failure) := by
  cases answer : c.answer with
  | some outcome =>
    rw [lose_of_answered (Option.isSome_of_mem answer)]
    cases verified with
    | false => exact unwired.rests [] (.inl rfl) (List.forall_mem_nil _) rfl (.inl rfl) rfl rfl
    | true =>
      have posted : Unwired (c.post .disconnected) := by
        refine ⟨⟨trivial, unwired.orderly⟩, unwired.dialing, unwired.unclosed, fun k => ?_,
          unwired.outbox⟩
        refine Iff.trans ?_ (unwired.opened k)
        simp only [post, Client.note, opened_cons, reduceCtorEq, false_or]
      exact posted.rests [] (.inl rfl) (List.forall_mem_nil _) rfl (.inl rfl) rfl rfl
  | none =>
    rw [lose_of_unanswered answer, reply_eq]
    refine unwired.rests _ (.inr rfl) ((forall_mem_answer _ _ _).2 fun _ => ?_) rfl (.inr rfl)
      rfl rfl
    exact ⟨rfl, .inl rfl⟩

/-- A connection that is closed is the one that was held. -/
theorem wired_close (wired : Wired c) {k : Nat} {ending : Ending}
    (stage : c.stage = .closing k ending) : Wired (c.close k ending) := by
  obtain ⟨quiet, held⟩ := wired.holding (congrArg Stage.connection? stage)
  have closed : Unwired ({ c with outbox := none }.note (.closed k)) := by
    refine ⟨⟨⟨quiet, held⟩, wired.orderly⟩, ?_, ?_, fun l => ?_, rfl⟩
    · show c.journal.dialing ≤ 1
      rw [quiet]
      exact Nat.zero_le 1
    · show c.journal.unclosed.erase k = []
      rw [held, List.erase_cons_head]
    · refine Iff.trans ?_ (wired.opened l)
      simp only [Client.note, opened_cons, reduceCtorEq, false_or]
  cases ending with
  | shutdown => exact closed.stop
  | lost verified failure => exact closed.lose verified failure

theorem wired_begin (wired : Wired c) (stage : c.stage = .dialing) : Wired c.begin := by
  have one : c.journal.dialing = 1 := by rw [wired.dialing, if_pos stage]
  have none : c.journal.unclosed = [] := by rw [wired.unclosed, stage]; rfl
  obtain ⟨frame, -, begun⟩ := c.begin_eq
  rw [begun]
  refine ⟨⟨trivial, trivial, ⟨one, none, fun k => (wired.opened k).1⟩, wired.orderly⟩, ?_, ?_,
    fun k => ?_, fun box h => ?_⟩
  · show c.journal.dialing - 1 = 0
    rw [one]
  · show c.connections :: c.journal.unclosed = [c.connections]
    rw [none]
  · simp only [opened_cons, wired.opened, Occurrence.opened.injEq, reduceCtorEq, false_or]
    omega
  · cases h
    rfl

theorem wired_submit (wired : Wired c) {b : Client} (packet : Packet)
    (notes : Notes (Occurrence.KeepsConnections c.stage.connection?) c (b.submit packet))
    (stage : b.stage = c.stage) (connections : b.connections = c.connections)
    (outbox : b.outbox = c.outbox) : Wired (b.submit packet) := by
  rcases b.submit_cases packet with
    ⟨failure, refused⟩ | ⟨frame, k, box, after, -, -, queue, queued, accepted⟩
  · rw [refused] at notes ⊢
    exact wired.keeps notes (congrArg Stage.connection? stage) (iff_of_eq (congrArg (· = _) stage))
      connections (outbox ▸ wired.outbox)
  · rw [accepted] at notes ⊢
    have same : after.connection = box.connection := by
      obtain ⟨-, ⟨-, rfl⟩ | rfl⟩ := Outbox.submit_eq_some queued <;> rfl
    refine wired.keeps notes (congrArg Stage.connection? stage)
      (iff_of_eq (congrArg (· = _) stage)) connections fun next h => ?_
    cases h
    rw [same]
    exact wired.outbox box (outbox.symm.trans queue)

/-! ## Every step -/

theorem wired_of_happens {a : Action} (wired : Wired c) (sound : Sound c) (h : Happens c a d) :
    Wired d := by
  have notes (still : a.turns = false) :
      Notes (Occurrence.KeepsConnections c.stage.connection?) c d :=
    (notes_of_happens h).mono fun _ may => wired.keepsConnections sound may still
  -- What comes in leaves the session on its connection, and that alone matters here.
  have hears {k : Nat} (still : a.turns = false) (held : c.stage.connection? = some k)
      (goes : d.stage.connection? = some k) (connections : d.connections = c.connections)
      (outbox : d.outbox = c.outbox) : Wired d :=
    wired.keeps (notes still) (goes.trans held.symm)
      (iff_of_false (Stage.ne_dialing goes) (Stage.ne_dialing held)) connections
      (outbox ▸ wired.outbox)
  cases h with
  | start stage | expirePause _ stage =>
    refine (wired.unwired (congrArg Stage.connection? stage)).dial ?_
    rw [wired.dialing, stage]
    rfl
  | heedAlone _ stage =>
    have none : c.stage.connection? = none := by
      rcases stage with stage | stage <;> rw [stage] <;> rfl
    exact (wired.unwired none).stop
  | expireDial _ stage | refused stage =>
    exact (wired.unwired (congrArg Stage.connection? stage)).lose _ _
  | heed _ session => exact wired_leave wired (Stage.connection?_of_session? session) _
  | expireSession _ unverified =>
    have session := Stage.session?_of_unverified? unverified
    exact wired_leave wired (Stage.connection?_of_session? session) _
  | learnFailure stage | desert stage =>
    exact wired_leave wired (congrArg Stage.connection? stage) _
  | ended reading | readFailed reading =>
    exact wired_leave wired (Stage.connection?_of_session? (session?_of_reading reading).1) _
  | close stage => exact wired_close wired stage
  | connected stage => exact wired_begin wired stage
  | learn stage => exact hears rfl (congrArg Stage.connection? stage) rfl rfl rfl
  | hearNothing _ stage => exact hears rfl (congrArg Stage.connection? stage) rfl rfl rfl
  | hearVersion _ stage =>
    refine hears rfl (congrArg Stage.connection? stage) ?_ ?_ ?_ <;>
      rw [postAll_eq, reply_eq] <;> rfl
  | hear _ stage =>
    refine hears rfl (congrArg Stage.connection? stage) ?_ ?_ ?_ <;> rw [postAll_eq] <;> rfl
  | halt => exact wired_deliver wired (fun next h => by cases h) _
  | @take box after outbox taken =>
    obtain ⟨-, -, job, rest, -, rfl⟩ := Outbox.take_eq_some taken
    refine wired.keeps (notes rfl) rfl Iff.rfl rfl fun next h => ?_
    cases h
    exact wired.outbox box outbox
  | @advance i box after outbox advanced =>
    obtain ⟨job, before, behind, -, -, -, rfl⟩ := Outbox.advance_eq_some advanced
    refine wired.keeps (notes rfl) rfl Iff.rfl rfl fun next h => ?_
    cases h
    exact wired.outbox box outbox
  | @wrote n box after bytes outbox written =>
    obtain ⟨job, rest, -, -, -, -, rfl⟩ := Outbox.write_eq_some written
    refine wired.keeps (notes rfl) rfl Iff.rfl rfl fun next h => ?_
    cases h
    exact wired.outbox box outbox
  | @flushed box after sender outbox done =>
    obtain ⟨job, -, -, rfl⟩ := Outbox.flush_eq_some done
    refine wired_deliver wired (fun next h => ?_) _
    cases h
    exact wired.outbox box outbox
  | @writeFailed reason box after outcomes outbox failed =>
    obtain ⟨job, rest, -, -, rfl⟩ := Outbox.fail_eq_some failed
    refine wired_deliver wired (fun next h => ?_) _
    cases h
    exact wired.outbox box outbox
  | send payload => exact wired_submit wired _ (notes rfl) rfl rfl rfl
  | sendPacket packet => exact wired_submit wired packet (notes rfl) rfl rfl rfl
  | collect | build | release | elapse =>
    exact wired.keeps (notes rfl) rfl Iff.rfl rfl wired.outbox
  | disconnect =>
    have notes := notes rfl
    rw [disconnect_eq] at notes ⊢
    exact wired.keeps notes rfl Iff.rfl rfl wired.outbox

/-! ## Runs -/

theorem Reachable.wired {policy : Policy} (h : Reachable policy c) : Wired c := by
  refine (h.induction (P := fun c => Sound c ∧ Wired c) ⟨sound_start policy, wired_start policy⟩
    ?_).2
  rintro c d a ⟨sound, wired⟩ happened
  exact ⟨sound_of_handles sound (handles_of_happens happened),
    wired_of_happens wired sound happened⟩

/-- **Never a dial beside a connection, and never two of either.**

At every moment of a run, at most one dial is in flight or one connection is open; which, if any,
the stage says. When a dial is started, every connection so far is closed, and as long as it is in
flight nothing is read or written. On a connection that is closed nothing happens any more. -/
theorem Reachable.one_at_a_time {policy : Policy} (h : Reachable policy c) :
    (∀ past : Journal, past <:+ c.journal → past.dialing + past.unclosed.length ≤ 1) ∧
    (c.journal.dialing = 1 ↔ c.stage = .dialing) ∧
    c.journal.unclosed = c.stage.connection?.toList ∧
    (∀ newer t (older : Journal), c.journal = newer ++ (t, .dialled) :: older →
      ∀ k, older.Opened k → ∃ s, (s, .closed k) ∈ older) ∧
    (c.journal.dialing = 1 → c.reading = none ∧ c.outbox = none) ∧
    ∀ newer t k (older : Journal), c.journal = newer ++ (t, .closed k) :: older →
      ∀ e ∈ newer, e.2.on? ≠ some k := by
  have wired := h.wired
  have dialing : c.journal.dialing = 1 ↔ c.stage = .dialing := by
    rw [wired.dialing]
    split <;> simp_all
  refine ⟨?_, dialing, wired.unclosed, ?_, fun one => ?_, ?_⟩
  · rintro past ⟨newer, whole⟩
    have orderly : Orderly (newer ++ past) := whole ▸ wired.orderly
    exact orderly.of_append.alone
  · intro newer t older whole k opened
    have orderly : Orderly (newer ++ (t, .dialled) :: older) := whole ▸ wired.orderly
    obtain ⟨⟨-, none⟩, -⟩ := orderly.of_append
    refine opened.closed.resolve_left ?_
    rw [none]
    exact List.not_mem_nil
  · have stage := dialing.1 one
    exact ⟨by rw [reading, stage], (wired.unwired (congrArg Stage.connection? stage)).outbox⟩
  · intro newer t k older whole
    have orderly : Orderly (newer ++ (t, .closed k) :: older) := whole ▸ wired.orderly
    obtain ⟨⟨-, held⟩, -⟩ := Orderly.of_append orderly
    refine (Orderly.silent orderly (opened_cons.2 (.inr ?_)) ?_).1
    · exact opened_of_mem_unclosed (held ▸ List.mem_cons_self)
    · show k ∉ (Journal.unclosed older).erase k
      rw [held, List.erase_cons_head]
      exact List.not_mem_nil

/-- A console gives its version and hangs up, and the client dials again. -/
def secondDial : List Action :=
  verification ++ [.signal .ended, .move .halt, .move .close, .elapse 5000, .move .expire]

theorem one_at_a_time_secondDial :
    ∃ c, (Client.start { failFast := false }).run? secondDial = some c ∧
      c.journal.dials = 2 ∧ c.journal.dialing = 1 ∧ c.reading = none ∧ c.outbox = none ∧
      ∀ past : Journal, past <:+ c.journal → past.dialing + past.unclosed.length ≤ 1 := by
  have run : ((Client.start { failFast := false }).run? secondDial).map
      (fun c => (c.journal.dials, c.journal.dialing)) = some (2, 1) := by decide +kernel
  obtain ⟨c, hrun, views⟩ := Option.map_eq_some_iff.1 run
  obtain ⟨dials, dialing⟩ := Prod.mk.inj views
  obtain ⟨alone, -, -, -, idle, -⟩ := (Reachable.start.run? hrun).one_at_a_time
  obtain ⟨reading, outbox⟩ := idle dialing
  exact ⟨c, hrun, dials, dialing, reading, outbox, alone⟩

end Client

end ClimateLink
