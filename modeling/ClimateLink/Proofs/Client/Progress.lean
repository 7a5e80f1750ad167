import ClimateLink.Proofs.Client.Account
import ClimateLink.Proofs.Client.Notes
import ClimateLink.Proofs.Client.Pending

/-!
# A client comes to rest

What a client does of its own accord it does without time passing. So it must not go on with that
forever: time could not pass, and nobody else would be heard.

**The measure (`work`).** Every move takes a frame or a call one step further, or brings the client
to a stage from which fewer moves are left.

**Theorem (`length_moves_le`).** A client makes no more moves in a row than its work, unless neither
a dial nor a pause may take any time; then it can go from one to the other and back, but only by
moves that act on a deadline.
-/

namespace ClimateLink

/-- A dial or a pause may take some time. -/
def Policy.Patient (policy : Policy) : Prop :=
  0 < policy.connectTimeout ∨ 0 < policy.reconnectDelay

/-- How far the frames in an outbox are from being in hand, and one more for each of them. -/
def Outbox.load (box : Outbox) : Nat :=
  box.inHand.toList.length + 2 * box.queue.length + 3 * box.waiting.length

namespace Client

variable {c d : Client}

/-! ## Rest -/

/-- **A client is at rest if it can make no move at all.** -/
theorem atRest_iff : c.atRest ↔ ∀ m, c.move? m = none := by
  rw [atRest, List.all_eq_true]
  constructor
  · intro rest m
    by_cases listed : m ∈ c.moves
    · exact Option.isNone_iff_eq_none.1 (rest m listed)
    · -- The moves that are not listed are those for calls that do not wait for them.
      cases m with
      | collect ticket =>
        refine Option.map_eq_none_iff.2 (List.find?_eq_none.2 fun known mem same => listed ?_)
        cases beq_iff_eq.1 same
        exact List.mem_append_right _ (List.mem_map.2 ⟨known, mem, rfl⟩)
      | advance i =>
        refine Option.map_eq_none_iff.2 (Option.bind_eq_none_iff.2 fun box outbox => ?_)
        refine Option.eq_none_iff_forall_ne_some.2 fun after advanced => listed ?_
        obtain ⟨job, before, behind, waiting, rfl, -, -⟩ := Outbox.advance_eq_some advanced
        have inside : before.length < box.waiting.length := by
          rw [waiting, List.length_append, List.length_cons]
          omega
        refine List.mem_append_left _ (List.mem_append_right _ (List.mem_map.2 ⟨_, ?_, rfl⟩))
        rw [outbox, Option.map_some, Option.getD_some]
        exact List.mem_range.2 inside
      | _ =>
        exact absurd (List.mem_append_left _ (List.mem_append_left _ (by decide))) listed
  · intro none m _
    exact Option.isNone_iff_eq_none.2 (none m)

theorem decided_of_atRest (rest : c.atRest) : c.decided = [] := by
  refine List.eq_nil_iff_forall_not_mem.2 fun known mem => ?_
  have collect : c.collect known.1 = none := atRest_iff.1 rest (.collect known.1)
  have missing := List.find?_eq_none.1 (Option.map_eq_none_iff.1 collect) known mem
  exact missing (beq_self_eq_true known.1)

theorem exists_move_of_not_atRest (busy : ¬c.atRest) : ∃ m d, c.move? m = some d := by
  by_contra stuck
  refine busy (atRest_iff.2 fun m => Option.eq_none_iff_forall_ne_some.2 fun d moved => ?_)
  exact stuck ⟨m, d, moved⟩

/-! ## The measure -/

/-- How many changes of stage a client can still make before it waits for others. Which of a dial
and a pause comes first is a matter of which may take time. -/
def rank (c : Client) : Nat :=
  match c.stage with
  | .stopped => 0
  | .dialing => if c.due then (if 0 < c.policy.connectTimeout then 3 else 2) else 1
  | .pausing => if c.due then (if 0 < c.policy.connectTimeout then 2 else 3) else 1
  | .idle => 4
  | .closing _ _ => if c.writing then 5 else 4
  | .verifying _ _ | .running _ _ => 6
  | .asking _ _ => 7

/-- The frames and calls that a client is not done with, as far as they are from that. -/
def load (c : Client) : Nat :=
  (c.outbox.map Outbox.load).getD 0 + (c.decided.length + c.leavers.length)

/-- What a client can still do without anyone else. -/
def work (c : Client) : Nat :=
  c.rank + c.load

/-! ## Changes of stage and of load -/

/-- A dial that has just begun, and what may be left of the round. -/
theorem rank_of_dialing (stage : c.stage = .dialing) (since : c.since = c.clock) :
    c.rank ≤ 2 ∧ (0 < c.policy.connectTimeout → c.rank ≤ 1) := by
  have due : c.due = decide (c.policy.connectTimeout = 0) := by
    simp only [Client.due, deadline, stage, since, Option.any_some]
    exact decide_eq_decide.2 (by omega)
  simp only [rank, stage, due, decide_eq_true_eq]
  split_ifs <;> omega

/-- A pause that has just begun, and what may be left of the round. -/
theorem rank_of_pausing (stage : c.stage = .pausing) (since : c.since = c.clock) :
    c.rank ≤ 3 ∧ (0 < c.policy.connectTimeout → c.rank ≤ 2) ∧
      (0 < c.policy.reconnectDelay → c.rank ≤ 1) := by
  have due : c.due = decide (c.policy.reconnectDelay = 0) := by
    simp only [Client.due, deadline, stage, since, Option.any_some]
    exact decide_eq_decide.2 (by omega)
  simp only [rank, stage, due, decide_eq_true_eq]
  split_ifs <;> omega

theorem rank_lose (c : Client) (verified : Bool) (failure : Failure) :
    (c.lose verified failure).rank ≤ 3 ∧
      (0 < c.policy.connectTimeout → (c.lose verified failure).rank ≤ 2) ∧
      (0 < c.policy.reconnectDelay → (c.lose verified failure).rank ≤ 1) := by
  cases answer : c.answer with
  | some outcome =>
    rw [lose_of_answered (Option.isSome_of_mem answer)]
    cases verified <;> exact rank_of_pausing rfl rfl
  | none =>
    have stopped : (c.lose verified failure).rank = 0 := by
      rw [lose_of_unanswered answer, reply_eq]
      rfl
    rw [stopped]
    exact ⟨Nat.zero_le _, fun _ => Nat.zero_le _, fun _ => Nat.zero_le _⟩

theorem load_stop (c : Client) : c.stop.load = c.load := by
  have calls : (c.decided ++ c.leavers.map fun t => (t, (.ok () : Outcome))).length + 0 =
      c.decided.length + c.leavers.length := by
    rw [List.length_append, List.length_map, Nat.add_zero]
  exact congrArg ((c.outbox.map Outbox.load).getD 0 + ·) calls

theorem load_lose (c : Client) (verified : Bool) (failure : Failure) :
    (c.lose verified failure).load = c.load := by
  cases answer : c.answer with
  | some outcome =>
    rw [lose_of_answered (Option.isSome_of_mem answer)]
    cases verified <;> rfl
  | none =>
    rw [lose_of_unanswered answer, reply_eq]
    exact load_stop c

theorem load_halt {box : Outbox} (outbox : c.outbox = some box) : c.halt.load ≤ c.load := by
  have told : (callOutcomes box.abandon).length ≤ box.load := by
    refine Nat.le_trans (List.length_filterMap_le _ _) ?_
    have behind : box.closeBehind.length = box.waiting.length + box.queue.length := by
      rw [Outbox.closeBehind, Outbox.behind, List.length_map, List.length_append]
    rw [Outbox.abandon, Outbox.load, List.length_append, behind]
    cases box.inHand <;> simp only [Option.map_none, Option.map_some, Option.toList_none,
      Option.toList_some, List.length_nil, List.length_singleton] <;> omega
  have halted : c.halt = { c with outbox := none }.deliver box.abandon := by
    rw [halt, outbox]
    rfl
  rw [halted, deliver_eq, load, load, outbox]
  simp only [Option.map_none, Option.map_some, Option.getD_none, Option.getD_some,
    List.length_append]
  omega

theorem rank_leave {k : Nat} (session : c.stage.session? = some k) (ending : Ending) :
    (c.leave k ending).rank < c.rank := by
  have after : (c.leave k ending).rank ≤ 5 := by
    show (if _ then 5 else 4) ≤ 5
    split <;> decide
  refine Nat.lt_of_le_of_lt after ?_
  cases stage : c.stage with
  | idle | dialing | closing | pausing | stopped =>
    rw [stage] at session
    cases session
  | asking | verifying | running => simp [rank, stage]

theorem rank_stop (stage : c.stage = .dialing ∨ c.stage = .pausing) : c.stop.rank < c.rank := by
  have after : c.stop.rank = 0 := rfl
  rw [after]
  rcases stage with stage | stage <;> simp only [rank, stage] <;> split_ifs <;> decide

theorem rank_dial (stage : c.stage = .idle ∨ c.stage = .pausing ∧ c.due) :
    c.dial.rank < c.rank := by
  obtain ⟨low, lower⟩ := rank_of_dialing (c := c.dial) rfl rfl
  rcases stage with stage | ⟨stage, due⟩
  · have before : c.rank = 4 := by simp only [rank, stage]
    omega
  · have same : c.dial.policy.connectTimeout = c.policy.connectTimeout := rfl
    have before : c.rank = if 0 < c.policy.connectTimeout then 2 else 3 := by
      simp only [rank, stage, due, if_true]
    rw [same] at lower
    rw [before]
    split_ifs with some
    · exact Nat.lt_succ_of_le (lower some)
    · exact Nat.lt_succ_of_le low

/-- To give up a dial whose time is over comes before the pause, if either may take some time. -/
theorem rank_expireDial (stage : c.stage = .dialing) (due : c.due) (patient : c.policy.Patient)
    (failure : Failure) : (c.lose false failure).rank < c.rank := by
  obtain ⟨-, low, lower⟩ := rank_lose c false failure
  have before : c.rank = if 0 < c.policy.connectTimeout then 3 else 2 := by
    simp only [rank, stage, due, if_true]
  rw [before]
  split_ifs with some
  · exact Nat.lt_succ_of_le (low some)
  · exact Nat.lt_succ_of_le (lower (patient.resolve_left some))

theorem rank_outbox {box after : Outbox} (outbox : c.outbox = some box)
    (failure : after.failure = box.failure) : { c with outbox := some after }.rank = c.rank := by
  have same : { c with outbox := some after }.writing = c.writing := by
    simp only [writing, outbox, Option.any_some, failure]
  simp only [rank, same]
  rfl

theorem rank_halt {k : Nat} {ending : Ending} (stage : c.stage = .closing k ending)
    (writing : c.writing) : c.halt.rank < c.rank := by
  have still : c.halt.stage = c.stage := by
    rw [halt, deliver_eq]
    refine (told_cases _ _).resolve_right ?_
    rintro ⟨l, before, after, asking, -⟩
    cases stage.symm.trans asking
  have finished : c.halt.writing = false := by
    rw [Client.writing, halt, outbox_deliver]
    rfl
  have before : c.rank = 5 := by simp only [rank, stage, writing, if_true]
  have after : c.halt.rank = 4 := by
    simp only [rank, still, stage, finished, Bool.false_eq_true, if_false]
  rw [before, after]
  decide

theorem rank_close {k : Nat} {ending : Ending} (stage : c.stage = .closing k ending)
    (finished : ¬c.writing) : (c.close k ending).rank < c.rank := by
  have before : c.rank = 4 := by simp only [rank, stage, if_neg finished]
  rw [before]
  cases ending with
  | shutdown => exact Nat.succ_pos 3
  | lost verified failure => exact Nat.lt_succ_of_le (rank_lose _ verified failure).1

theorem load_close (c : Client) (k : Nat) (ending : Ending) : (c.close k ending).load ≤ c.load := by
  have cleared : ({ c with outbox := none }.note (.closed k)).load ≤ c.load :=
    Nat.add_le_add_right (Nat.zero_le _) _
  cases ending with
  | shutdown => exact Nat.le_trans (Nat.le_of_eq (load_stop _)) cleared
  | lost verified failure => exact Nat.le_trans (Nat.le_of_eq (load_lose _ _ _)) cleared

/-- A frame that moves up in the outbox is nearer to being done with. -/
theorem work_outbox {box after : Outbox} (outbox : c.outbox = some box)
    (failure : after.failure = box.failure) (lighter : after.load < box.load) :
    { c with outbox := some after }.work < c.work := by
  have rank := rank_outbox outbox failure
  have load : { c with outbox := some after }.load < c.load := by
    simp only [load, outbox, Option.map_some, Option.getD_some]
    omega
  exact Nat.add_lt_add_of_le_of_lt (Nat.le_of_eq rank) load

/-! ## Every move -/

/-- **Every move leaves less work**, unless it acts on a deadline where neither a dial nor a pause
may take any time. -/
theorem work_lt {m : Move} (h : Happens c (.move m) d)
    (patient : m ≠ .expire ∨ c.policy.Patient) : d.work < c.work := by
  have lighter (rank : d.rank < c.rank) (load : d.load ≤ c.load) : d.work < c.work :=
    Nat.add_lt_add_of_lt_of_le rank load
  -- A move takes the client on its way, or leaves it there with less to do.
  cases h with
  | start stage => exact lighter (rank_dial (.inl stage)) (Nat.le_refl _)
  | heedAlone told stage => exact lighter (rank_stop stage) (Nat.le_of_eq (load_stop c))
  | heed told session => exact lighter (rank_leave session _) (Nat.le_refl _)
  | expireDial due stage =>
    have patient := patient.resolve_left (not_not_intro rfl)
    exact lighter (rank_expireDial stage due patient _) (Nat.le_of_eq (load_lose c _ _))
  | expireSession due unverified =>
    exact lighter (rank_leave (Stage.session?_of_unverified? unverified) _) (Nat.le_refl _)
  | expirePause due stage => exact lighter (rank_dial (.inr ⟨stage, due⟩)) (Nat.le_refl _)
  | learn stage =>
    have before : c.rank = 7 := by simp only [rank, stage]
    exact lighter (before ▸ Nat.lt_succ_self 6) (Nat.le_refl _)
  | learnFailure stage | desert stage =>
    exact lighter (rank_leave (congrArg Stage.session? stage) _) (Nat.le_refl _)
  | halt stage writing =>
    obtain ⟨box, outbox, -⟩ := (Option.any_eq_true _ _).1 writing
    exact lighter (rank_halt stage writing) (load_halt outbox)
  | close stage finished => exact lighter (rank_close stage finished) (load_close c _ _)
  | take outbox taken =>
    obtain ⟨-, inHand, job, rest, queue, rfl⟩ := Outbox.take_eq_some taken
    refine work_outbox outbox rfl ?_
    simp only [Outbox.load, inHand, queue, Option.toList_none, Option.toList_some,
      List.length_nil, List.length_cons]
    omega
  | advance outbox advanced =>
    obtain ⟨job, before, behind, waiting, -, -, rfl⟩ := Outbox.advance_eq_some advanced
    refine work_outbox outbox rfl ?_
    simp only [Outbox.load, waiting, List.length_append, List.length_cons, List.length_nil]
    omega
  | @collect ticket outcome known =>
    have fewer : (c.decided.eraseP fun d => d.1 == ticket).length < c.decided.length := by
      rw [List.length_eraseP_of_mem (List.mem_of_find?_eq_some known) (beq_self_eq_true ticket)]
      exact Nat.sub_one_lt_of_lt (List.length_pos_of_mem (List.mem_of_find?_eq_some known))
    show c.rank + ((c.outbox.map Outbox.load).getD 0 +
      ((c.decided.eraseP fun d => d.1 == ticket).length + c.leavers.length)) < c.work
    unfold work load
    omega

/-! ## Runs of moves -/

/-- **A client makes no more moves in a row than its work.** -/
theorem length_moves_le {moves : List Move} (run : c.run? (moves.map .move) = some d)
    (patient : .expire ∉ moves ∨ c.policy.Patient) : moves.length + d.work ≤ c.work := by
  induction moves generalizing c with
  | nil =>
    cases run
    exact Nat.le_of_eq (Nat.zero_add _)
  | cons m moves ih =>
    obtain ⟨next, moved, run⟩ := Option.bind_eq_some_iff.1 run
    have happened := happens_of_step? moved
    have less : next.work < c.work := by
      refine work_lt happened (patient.imp_left fun away same => away ?_)
      exact same ▸ List.mem_cons_self
    have rest : moves.length + d.work ≤ next.work := by
      refine ih run (patient.imp (fun away mem => away (List.mem_cons_of_mem _ mem)) ?_)
      rw [(keeps_of_happens happened).policy]
      exact id
    rw [List.length_cons]
    omega

/-- Whoever can make a move that acts on no deadline, as long as it is not at rest, comes to rest by
such moves, without time passing, and is then as it was after each of them. -/
theorem exists_rest_keeping {P : Client → Prop}
    (going : ∀ c, P c → ¬c.atRest → ∃ m d, m ≠ .expire ∧ c.move? m = some d ∧ P d) (start : P c) :
    ∃ (moves : List Move) (d : Client), .expire ∉ moves ∧ c.run? (moves.map .move) = some d ∧
      d.atRest ∧ d.clock = c.clock ∧ P d := by
  induction left : c.work using Nat.strong_induction_on generalizing c with
  | h n ih =>
    by_cases rest : c.atRest
    · exact ⟨[], c, List.not_mem_nil, rfl, rest, rfl, start⟩
    · obtain ⟨m, next, early, moved, holds⟩ := going c start rest
      have happened := happens_of_move? moved
      have less := work_lt happened (.inl early)
      have soon : next.clock = c.clock := (keeps_of_happens happened).clock.resolve_right rest
      obtain ⟨moves, d, none, run, rest, still, holds⟩ := ih next.work (left ▸ less) holds rfl
      refine ⟨m :: moves, d, ?_, Option.bind_eq_some_iff.2 ⟨next, moved, run⟩, rest,
        still.trans soon, holds⟩
      rw [List.mem_cons, not_or]
      exact ⟨Ne.symm early, none⟩

/-- Whoever can make a move that acts on no deadline, as long as it is not at rest, comes to rest by
such moves, without time passing. -/
theorem exists_rest {P : Client → Prop}
    (going : ∀ c, P c → ¬c.atRest → ∃ m d, m ≠ .expire ∧ c.move? m = some d ∧ P d) (start : P c) :
    ∃ (moves : List Move) (d : Client), .expire ∉ moves ∧ c.run? (moves.map .move) = some d ∧
      d.atRest ∧ d.clock = c.clock := by
  obtain ⟨moves, d, early, run, rest, still, -⟩ := exists_rest_keeping going start
  exact ⟨moves, d, early, run, rest, still⟩

end Client

end ClimateLink
