import ClimateLink.Proofs.Client.Notes
import ClimateLink.Proofs.Client.Spans
import ClimateLink.Rehearsal.Snapshot

/-!
# Rehearsals are runs

A play moves many things, but its client moves only by `Client.step?`. So what is proved of every
run holds of whatever a rehearsal shows, however the turns fall and whatever the consoles do.

**Theorem (`rehearse_shows`).** Every snapshot of a rehearsal is of a client that has come of the
one before by a run. The first of them has come of a new client.

**Theorem (`Shows.reachable`, `Shows.events`).** So each of these clients can be reached, and the
events of all snapshots, one after another, are those that the client has posted: an observer misses
none and sees none twice.

The proof goes through the functions of a play from the bottom up. Each of them either leaves the
client alone or acts for it (`continues_act`), and none of them touches what was seen before.
-/

namespace ClimateLink.Rehearsal

open Journal

namespace Play

variable {p q r : Play}

/-! ## Plays that go on -/

/-- On the way from `p` to `q` nobody looks, and the client goes on by a run. -/
structure Continues (p q : Play) : Prop where
  run : ∃ actions, p.client.run? actions = some q.client
  seen : q.seen = p.seen

theorem continues_of_client (client : q.client = p.client) (seen : q.seen = p.seen) :
    Continues p q := by
  refine ⟨⟨[], ?_⟩, seen⟩
  rw [client]
  rfl

theorem Continues.refl (p : Play) : Continues p p := continues_of_client rfl rfl

theorem Continues.trans (first : Continues p q) (second : Continues q r) : Continues p r := by
  obtain ⟨before, middle⟩ := first.run
  obtain ⟨after, last⟩ := second.run
  refine ⟨⟨before ++ after, ?_⟩, second.seen.trans first.seen⟩
  rw [Client.run?_append, middle]
  exact last

/-! ## Around the client -/

theorem continues_joinAll (p : Play) (actors : List Actor) : Continues p (p.joinAll actors) :=
  continues_of_client rfl rfl

theorem continues_perform (p : Play) (k : Nat) (deed : Console.Deed) :
    Continues p (p.perform k deed) :=
  continues_of_client rfl rfl

theorem continues_setProgress (p : Play) (number : Nat) (progress : Progress) :
    Continues p (p.setProgress number progress) :=
  continues_of_client rfl rfl

theorem continues_followStreams (p : Play) (before : Client) (action : Action) :
    Continues p (p.followStreams before action) := by
  unfold followStreams
  split
  · split <;> exact continues_of_client rfl rfl
  · split <;> exact continues_of_client rfl rfl
  · split <;> exact continues_of_client rfl rfl
  · split <;> exact continues_of_client rfl rfl
  · exact Continues.refl p

theorem continues_dialNext (p : Play) : Continues p p.dialNext := by
  unfold dialNext
  split <;> exact continues_of_client rfl rfl

theorem continues_followDial (p : Play) (before : Client) : Continues p (p.followDial before) := by
  unfold followDial
  split
  · exact Continues.refl p
  · exact continues_dialNext p
  · exact continues_of_client rfl rfl
  · exact Continues.refl p

/-- **An action of a play is an action of its client**, or nothing at all. -/
theorem continues_act (p : Play) (action : Action) : Continues p (p.act action) := by
  unfold act
  split
  · next after happened =>
    have acted : Continues p { p with client := after } :=
      ⟨⟨[action], Option.bind_eq_some_iff.2 ⟨after, happened, rfl⟩⟩, rfl⟩
    have streams := acted.trans (continues_followStreams _ p.client action)
    exact (streams.trans (continues_joinAll _ _)).trans (continues_followDial _ _)
  · exact Continues.refl p

/-! ## Calls -/

theorem continues_letGo (p : Play) : Continues p p.letGo := by
  unfold letGo
  split
  · exact continues_act p _
  · exact Continues.refl p

theorem continues_finish (p : Play) (number : Nat) (result : Result) :
    Continues p (p.finish number result) := by
  have noted : Continues p { p with
      done := p.done ++ ((p.calls[number]?.map fun call => call.step).toList).map (·, result) } :=
    continues_of_client rfl rfl
  exact (noted.trans (continues_setProgress _ _ _)).trans (continues_letGo _)

theorem continues_make (p : Play) (number : Nat) (request : Request) :
    Continues p (p.make number request) := by
  have asked := continues_act p (.request request)
  unfold make
  dsimp only
  split
  · exact asked.trans (continues_setProgress _ _ _)
  · exact asked.trans (continues_setProgress _ _ _)
  · exact asked.trans (continues_finish _ _ _)
  · exact asked.trans (continues_finish _ _ _)

theorem continues_callNext {number : Nat} (next : p.callNext number = some q) :
    Continues p q := by
  unfold callNext at next
  split at next
  · cases next
    exact continues_make p _ _
  · split at next
    · cases next
      exact (continues_act p _).trans (continues_finish _ _ _)
    · obtain ⟨i, -, rfl⟩ := Option.map_eq_some_iff.1 next
      exact continues_act p _
  · cases next

/-! ## Turns -/

/-- **A deed of anyone** is nothing to the client, or an action of the client. -/
theorem continues_deed? {strength effort : Nat} {actor : Actor}
    (deed : p.deed? strength actor = some (q, effort)) : Continues p q := by
  cases actor with
  | starter => cases deed
  | client | writer =>
    obtain ⟨action, -, same⟩ := Option.map_eq_some_iff.1 deed
    cases same
    exact continues_act p action
  | reader k =>
    obtain ⟨done, -, same⟩ := Option.map_eq_some_iff.1 deed
    cases same
    exact continues_perform p k done
  | hand k h =>
    obtain ⟨-, deed⟩ := Option.ite_none_left_eq_some.1 deed
    obtain ⟨done, -, same⟩ := Option.map_eq_some_iff.1 deed
    cases same
    exact continues_perform p k done
  | call number =>
    obtain ⟨after, next, same⟩ := Option.map_eq_some_iff.1 deed
    cases same
    exact continues_callNext next

/-- **Turns are taken by deeds alone**, however many there are. -/
theorem continues_settle (fuel : Nat) (turn : Option (Actor × Nat)) (p : Play) :
    Continues p (settle fuel turn p) := by
  have turns (p : Play) (turns : Turns Actor) : Continues p { p with turns := turns } :=
    continues_of_client rfl rfl
  -- Either the next in line begins its turn, or the one whose turn it is does one more deed.
  fun_induction settle fuel turn p with
  | case1 | case3 => exact Continues.refl _
  | case2 fuel p actor line next ih => exact (turns p line).trans ih
  | case4 fuel p actor strength q effort deed ih => exact (continues_deed? deed).trans ih
  | case5 fuel p actor strength none tired ih => exact (turns _ _).trans ih
  | case6 fuel p actor strength none fresh ih => exact ih

/-! ## Time -/

theorem continues_elapse (p : Play) (ms : Nat) : Continues p (p.elapse ms) :=
  (continues_act p _).trans (continues_joinAll _ _)

theorem continues_runUntil (target fuel : Nat) (p : Play) :
    Continues p (runUntil target fuel p) := by
  induction fuel generalizing p with
  | zero => exact Continues.refl p
  | succ fuel ih =>
    have settled := continues_settle deedLimit none p
    unfold runUntil
    dsimp only
    split
    · exact settled
    · exact (settled.trans (continues_elapse _ _)).trans (ih _)

theorem continues_pass (p : Play) (ms : Nat) : Continues p (p.pass ms) :=
  continues_runUntil _ _ p

/-! ## Steps -/

theorem continues_callWith {α : Type} {make : α → Play → Play}
    (makes : ∀ a p, Continues p (make a p)) (p : Play) (step : Nat) (argument : Option α) :
    Continues p (p.callWith step argument make) := by
  unfold callWith
  split
  · exact continues_of_client rfl rfl
  · split
    · exact makes _ p
    · exact continues_of_client rfl rfl

theorem continues_onNamed (p : Play) (console : Option Nat) (change : Console → Console)
    (stirs : Console → List Console.Stirred) : Continues p (p.onNamed console change stirs) := by
  unfold onNamed
  dsimp only
  split
  · split
    · exact Continues.refl p
    · exact continues_of_client rfl rfl
  · exact Continues.refl p

/-- **Whatever the application and the consoles are told to do**, the client goes on by a run. -/
theorem continues_doStep (p : Play) (number : Nat) (step : Step) :
    Continues p (p.doStep number step) := by
  have calls (request : Request) (p : Play) : Continues p (p.call number request) :=
    continues_of_client rfl rfl
  unfold doStep
  cases step with
  | wait ms => exact continues_pass p ms
  | write console | close console | read console => exact continues_onNamed p console _ _
  | send payloads =>
    dsimp only
    induction payloads generalizing p with
    | nil => exact Continues.refl p
    | cons payload payloads ih =>
      exact (continues_callWith (fun a => calls (.send a)) p number payload).trans (ih _)
  | sendPacket packet => exact continues_callWith (fun a => calls (.sendPacket a)) p number packet
  | request payload =>
    refine continues_callWith ?_ p number payload
    exact fun a p => (continues_act p (.request (.build a))).trans (calls _ _)
  | disconnect => exact continues_callWith (fun _ => calls .disconnect) p number (some ())
  | drop =>
    have releases : Continues p { p with releasing := true } := continues_of_client rfl rfl
    dsimp only
    split
    · exact releases.trans (continues_letGo _)
    · exact Continues.refl p

/-! ## Observations -/

/-- The snapshots show clients that come of `c` one after another, and of each the events that it
has posted since the one before. -/
inductive Shows : Client → List Snapshot → Prop where
  | nil (c : Client) : Shows c []
  | cons {c : Client} {p : Play} {snapshots : List Snapshot}
    (run : ∃ actions, c.run? actions = some p.client)
    (news : p.client.journal.posted = c.journal.posted ++ p.snapshot.events)
    (later : Shows p.client snapshots) : Shows c (p.snapshot :: snapshots)

/-- A snapshot holds the events since the last one. -/
theorem events_snapshot {older newer : Journal} (journal : p.client.journal = newer ++ older)
    (seen : p.seen = older.length) : p.snapshot.events = newer.posted := by
  show posted (p.client.journal.take (p.client.journal.length - p.seen)) = _
  rw [journal, seen, List.length_append, Nat.add_sub_cancel, List.take_left]

/-- Whoever has seen all that happened so far sees in a snapshot what comes next. -/
theorem shows_cons (continues : Continues p q) (seen : p.seen = p.client.journal.length)
    {snapshots : List Snapshot} (later : Shows q.client snapshots) :
    Shows p.client (q.snapshot :: snapshots) := by
  obtain ⟨actions, run⟩ := continues.run
  obtain ⟨newer, journal⟩ := Client.suffix_of_run? run
  refine .cons ⟨actions, run⟩ ?_ later
  rw [events_snapshot journal.symm (continues.seen.trans seen), ← journal, posted_append]

theorem shows_observations (number : Nat) (steps : List Step) (p : Play)
    (seen : p.seen = p.client.journal.length) : Shows p.client (observations number steps p) := by
  induction steps generalizing number p with
  | nil => exact .nil _
  | cons step steps ih =>
    exact shows_cons ((continues_doStep p number step).trans (continues_pass _ 1)) seen
      (ih _ (p.doStep number step).observe.2 rfl)

/-- **The clients of which there are snapshots can be reached.** -/
theorem Shows.reachable {policy : Policy} {c : Client} {snapshots : List Snapshot}
    (shows : Shows c snapshots) (h : Client.Reachable policy c) :
    ∀ snapshot ∈ snapshots,
      ∃ p : Play, Client.Reachable policy p.client ∧ snapshot = p.snapshot := by
  induction shows with
  | nil => exact List.forall_mem_nil _
  | cons run _ _ ih =>
    obtain ⟨actions, run⟩ := run
    exact List.forall_mem_cons.2 ⟨⟨_, h.run? run, rfl⟩, ih (h.run? run)⟩

/-- **The events of all snapshots are those that were posted**, none of them twice. -/
theorem Shows.events {c : Client} {snapshots : List Snapshot} (shows : Shows c snapshots) :
    ∃ actions d, c.run? actions = some d ∧
      d.journal.posted = c.journal.posted ++ snapshots.flatMap Snapshot.events := by
  induction shows with
  | nil c => exact ⟨[], c, rfl, (List.append_nil _).symm⟩
  | cons run news _ ih =>
    obtain ⟨before, run⟩ := run
    obtain ⟨after, d, onward, posted⟩ := ih
    refine ⟨before ++ after, d, ?_, ?_⟩
    · rw [Client.run?_append, run]
      exact onward
    · rw [posted, news, List.flatMap_cons, List.append_assoc]

end Play

/-- **A rehearsal shows a run**: of every snapshot the client has come of the one before, and the
first has come of a new client. -/
theorem rehearse_shows (policy : Policy) (attempts : List Attempt) (steps : List Play.Step) :
    Play.Shows (.start policy) (rehearse policy attempts steps) :=
  Play.shows_cons (Play.continues_pass (.new policy attempts) 1) rfl
    (Play.shows_observations 1 steps (Play.new policy attempts).observe.2 rfl)

end ClimateLink.Rehearsal
