import ClimateLink.Proofs.Client.Cases

/-!
# What a step notes and keeps

A step adds to the journal and takes nothing away. What it can add depends on the action and on
little else: `May` has a line for every kind of entry. So a view of the journal changes only by the
actions that are meant to change it, and whoever asks what a step leaves as it was has to go through
the lines of `May`, not through all that can happen.

- `Notes`: on the way from one client to another, only entries of some kind are noted.
- `Notes.collect`: a view that sees no entry of that kind stays as it was.

**Theorem (`notes_of_happens`).** Every step notes only what it may note.

**Theorem (`keeps_of_happens`).** Every step keeps the settings, the time unless nothing is left to
be done, an answer that was given and what is known of calls (`Keeps`).
-/

namespace ClimateLink

/-- The payload that an action has numbered: the request for the version of a new connection, what
a call sends, and what the application has built. -/
def Action.numbered? : Action → Option Payload
  | .signal .connected => some .versionRequest
  | .request (.send payload) | .request (.build payload) => some payload
  | _ => none

/-- The actions by which a dial that is in flight, or a session that is over, is lost. -/
def Action.loses (a : Action) : Prop :=
  a = .move .expire ∨ a = .move .close ∨ ∃ reason, a = .signal (.refused reason)

/-- The actions by which a state is shown. -/
def Action.enters (a : Action) : Phase → Prop
  | .idle => False
  | .connecting => a = .move .start ∨ a = .move .expire
  | .verifying => a = .signal .connected
  | .connected => ∃ chunk, a = .signal (.received chunk)
  | .disconnected => a.loses
  | .shutdown => a = .move .heed ∨ a.loses

theorem Stage.ne_stopped {s : Stage} {k : Nat} (held : s.session? = some k) : s ≠ .stopped := by
  rintro rfl
  cases held

namespace Journal

theorem collect_eq_nil {α : Type} {view : Occurrence → Option α} {entries : Journal}
    (unseen : ∀ e ∈ entries, view e.2 = none) : collect view entries = [] := by
  refine List.filterMap_eq_nil_iff.2 fun o among => ?_
  obtain ⟨e, inside, rfl⟩ := List.mem_map.1 (List.mem_reverse.1 among)
  exact unseen e inside

end Journal

namespace Client

variable {c d e : Client} {a : Action} {allowed wider : Occurrence → Prop}

/-! ## Journals that grow -/

/-- On the way from `c` to `d` only what is allowed is noted, and nothing is taken back. -/
def Notes (allowed : Occurrence → Prop) (c d : Client) : Prop :=
  ∃ new : Journal, d.journal = new ++ c.journal ∧ ∀ e ∈ new, allowed e.2

theorem notes_nothing (journal : d.journal = c.journal) : Notes allowed c d :=
  ⟨[], journal, List.forall_mem_nil _⟩

theorem notes_one {t : Nat} {o : Occurrence} (journal : d.journal = (t, o) :: c.journal)
    (may : allowed o) : Notes allowed c d :=
  ⟨[(t, o)], journal, List.forall_mem_singleton.2 may⟩

theorem Notes.trans (first : Notes allowed c d) (second : Notes allowed d e) :
    Notes allowed c e := by
  obtain ⟨older, hd, olders⟩ := first
  obtain ⟨newer, he, newers⟩ := second
  refine ⟨newer ++ older, ?_, List.forall_mem_append.2 ⟨newers, olders⟩⟩
  rw [he, hd, List.append_assoc]

theorem Notes.mono (notes : Notes allowed c d) (wide : ∀ o, allowed o → wider o) :
    Notes wider c d := by
  obtain ⟨new, journal, all⟩ := notes
  exact ⟨new, journal, fun e among => wide e.2 (all e among)⟩

theorem Notes.suffix (notes : Notes allowed c d) : c.journal <:+ d.journal := by
  obtain ⟨new, journal, -⟩ := notes
  exact ⟨new, journal.symm⟩

/-- **A view that does not see what is noted stays as it was.** -/
theorem Notes.collect {α : Type} {view : Occurrence → Option α} (notes : Notes allowed c d)
    (unseen : ∀ o, allowed o → view o = none) :
    Journal.collect view d.journal = Journal.collect view c.journal := by
  obtain ⟨new, journal, all⟩ := notes
  have nothing := Journal.collect_eq_nil fun e among => unseen e.2 (all e among)
  rw [journal, Journal.collect_append, nothing, List.append_nil]

theorem Notes.dials (notes : Notes allowed c d) (none : ¬allowed .dialled) :
    d.journal.dials = c.journal.dials := by
  obtain ⟨new, journal, all⟩ := notes
  have nothing : Journal.dials new = 0 := by
    refine List.countP_eq_zero.2 fun e among dialled => none ?_
    exact beq_iff_eq.1 dialled ▸ all e among
  rw [journal, Journal.dials, List.countP_append, ← Journal.dials, ← Journal.dials, nothing,
    Nat.zero_add]

/-! ## What a step may note -/

/-- The packet that a request sends. -/
def outgoing (c : Client) : Request → Option Packet
  | .send payload => some (c.build payload).1
  | .sendPacket packet => some packet
  | .build _ | .disconnect | .release => none

/-- The request sends this packet. -/
def Sends (c : Client) (a : Action) (packet : Packet) : Prop :=
  ∃ r, a = .request r ∧ c.outgoing r = some packet

/-- What a client may note because of an action. -/
def May (c : Client) (a : Action) : Occurrence → Prop
  | .entered phase => c.stage ≠ .stopped ∧ a.enters phase
  | .dialled => a = .move .start ∧ c.stage = .idle ∨ a = .move .expire ∧ c.stage = .pausing
  | .opened k => a = .signal .connected ∧ c.stage = .dialing ∧ k = c.connections
  | .closed k => a = .move .close ∧ ∃ ending, c.stage = .closing k ending
  | .built packet => ∃ payload, a.numbered? = some payload ∧
      packet = (c.numbering.stamp payload).1
  | .wrote k bytes => ∃ n box after, a = .signal (.wrote n) ∧ c.outbox = some box ∧
      box.write n = some (after, bytes) ∧ k = after.connection
  | .heard k chunk => a = .signal (.received chunk) ∧ c.reading = some k
  | .posted _ => c.stage ≠ .stopped
  | .answered _ => c.answer = none
  | .accepted ticket k frame => ticket = c.tickets ∧ c.live = some k ∧
      ∃ packet, c.Sends a packet ∧ Frame.encode packet = .ok frame
  | .refused _ => ∃ packet, c.Sends a packet
  | .left ticket => a = .request .disconnect ∧ ticket = c.tickets
  | .returned ticket outcome => a = .move (.collect ticket) ∧ (ticket, outcome) ∈ c.decided

/-- A call that hands in a packet is refused, or its frame is accepted on the connection that is
live. -/
theorem notes_submit (b : Client) (packet : Packet)
    (refused : ∀ failure, allowed (.refused failure))
    (accepted : ∀ k frame, b.live = some k → Frame.encode packet = .ok frame →
      allowed (.accepted b.tickets k frame)) : Notes allowed b (b.submit packet) := by
  rcases b.submit_cases packet with
    ⟨failure, same⟩ | ⟨frame, k, box, after, encoded, live, -, -, same⟩
  · rw [same]
    exact notes_one rfl (refused failure)
  · rw [same]
    exact notes_one rfl (accepted k frame live encoded)

/-- A loss is noted by what is shown next, and by an answer if the first attempt is lost. -/
theorem notes_lose {b : Client} (loses : a.loses) (answer : b.answer = c.answer)
    (stage : c.stage ≠ .stopped) (verified : Bool) (failure : Failure) :
    Notes (May c a) b (b.lose verified failure) := by
  rw [lose_eq]
  refine ⟨_, rfl, (Journal.forall_mem_loss _ _).2 ⟨fun _ => ⟨?_, fun _ => stage⟩, fun none => ?_⟩⟩
  · exact ⟨stage, loses⟩
  · exact ⟨answer.symm.trans none, stage, .inr loses⟩

theorem notes_build (payload : Payload) (numbered : a.numbered? = some payload) :
    Notes (May c a) c (c.build payload).2 :=
  notes_one rfl ⟨payload, numbered, rfl⟩

/-- **Every step notes only what it may note.** -/
theorem notes_of_happens (h : Happens c a d) : Notes (May c a) c d := by
  -- A state is shown by a client that goes on, and at last by one that stops.
  have alone {stage : Stage} (away : stage = .idle ∨ stage = .dialing ∨ stage = .pausing) :
      stage ≠ .stopped := by
    rcases away with rfl | rfl | rfl <;> exact Stage.noConfusion
  have dials (may : May c a .dialled) (shown : May c a (.entered .connecting)) :
      Notes (May c a) c c.dial :=
    ⟨[(c.clock, .dialled), (c.clock, .entered .connecting)], rfl,
      List.forall_mem_cons.2 ⟨may, List.forall_mem_singleton.2 shown⟩⟩
  cases h with
  | start stage => exact dials (.inl ⟨rfl, stage⟩) ⟨alone (.inl stage), .inl rfl⟩
  | expirePause _ stage =>
    exact dials (.inr ⟨rfl, stage⟩) ⟨alone (.inr (.inr stage)), .inr rfl⟩
  | heedAlone _ stage => exact notes_one rfl ⟨alone (.inr stage), .inl rfl⟩
  | heed | expireSession | learn | learnFailure | desert | take | advance | ended | readFailed
  | release | elapse => exact notes_nothing rfl
  | expireDial _ stage => exact notes_lose (.inl rfl) rfl (alone (.inr (.inl stage))) _ _
  | refused stage => exact notes_lose (.inr (.inr ⟨_, rfl⟩)) rfl (alone (.inr (.inl stage))) _ _
  | halt | flushed | writeFailed => exact notes_nothing (journal_deliver _ _)
  | @close k ending stage =>
    have on : c.stage ≠ .stopped := by
      rw [stage]
      exact Stage.noConfusion
    have closed : Notes (May c (.move .close)) c ({ c with outbox := none }.note (.closed k)) :=
      notes_one rfl ⟨rfl, ending, stage⟩
    have loses : Action.loses (.move .close) := .inr (.inl rfl)
    cases ending with
    | shutdown => exact closed.trans (notes_one rfl ⟨on, .inr loses⟩)
    | lost verified failure =>
      refine closed.trans (notes_lose loses ?_ on verified failure)
      rfl
  | collect known => exact notes_one rfl ⟨rfl, List.mem_of_find?_eq_some known⟩
  | connected stage =>
    obtain ⟨frame, -, begun⟩ := c.begin_eq
    have on := alone (.inr (.inl stage))
    rw [begun]
    refine ⟨[(c.clock, .built (versionRequest c.numbering.next)), (c.clock, .entered .verifying),
      (c.clock, .opened c.connections)], rfl, ?_⟩
    refine List.forall_mem_cons.2 ⟨⟨_, rfl, rfl⟩, List.forall_mem_cons.2 ⟨⟨on, rfl⟩, ?_⟩⟩
    exact List.forall_mem_singleton.2 ⟨rfl, stage, rfl⟩
  | @hearNothing k framer chunk _ stage =>
    refine notes_one rfl ⟨rfl, ?_⟩
    rw [reading, stage]
  | @hearVersion k framer chunk before after version _ stage =>
    have on := Stage.ne_stopped (congrArg Stage.session? stage)
    rw [postAll_eq, reply_eq]
    refine ⟨Journal.packets c.clock after ++ (Journal.answer c.clock c.answer (.ok ()) ++
      [(c.clock, .posted .connected), (c.clock, .entered .connected), (c.clock, .heard k chunk)]),
      ?_, ?_⟩
    · simp [post, enter, goTo, note]
    · refine List.forall_mem_append.2 ⟨?_, List.forall_mem_append.2 ⟨?_, ?_⟩⟩
      · exact (Journal.forall_mem_packets _).2 fun _ _ => on
      · exact (Journal.forall_mem_answer _ _ _).2 id
      · refine List.forall_mem_cons.2 ⟨on, List.forall_mem_cons.2
          ⟨⟨on, chunk, rfl⟩, List.forall_mem_singleton.2 ⟨rfl, ?_⟩⟩⟩
        rw [reading, stage]
  | @hear k framer chunk _ stage =>
    have on := Stage.ne_stopped (congrArg Stage.session? stage)
    rw [postAll_eq]
    refine ⟨Journal.packets c.clock (framer.push chunk).1 ++ [(c.clock, .heard k chunk)], ?_, ?_⟩
    · simp [note]
    · refine List.forall_mem_append.2 ⟨?_, List.forall_mem_singleton.2 ⟨rfl, ?_⟩⟩
      · exact (Journal.forall_mem_packets _).2 fun _ _ => on
      · rw [reading, stage]
  | wrote outbox written => exact notes_one rfl ⟨_, _, _, rfl, outbox, written, rfl⟩
  | send payload =>
    have sends : c.Sends (.request (.send payload)) (c.build payload).1 := ⟨_, rfl, rfl⟩
    refine (notes_build payload rfl).trans (notes_submit _ _ (fun _ => ⟨_, sends⟩) ?_)
    exact fun k frame live encoded => ⟨rfl, live, _, sends, encoded⟩
  | sendPacket packet =>
    have sends : c.Sends (.request (.sendPacket packet)) packet := ⟨_, rfl, rfl⟩
    refine notes_submit _ _ (fun _ => ⟨_, sends⟩) ?_
    exact fun k frame live encoded => ⟨rfl, live, _, sends, encoded⟩
  | build payload => exact notes_build payload rfl
  | disconnect =>
    rw [disconnect_eq]
    exact notes_one rfl ⟨rfl, rfl⟩

/-! ## What a step keeps -/

/-- The call that returns is taken out of those whose outcome is known. -/
theorem exists_collect {ticket : Nat} {outcome : Outcome}
    (known : c.decided.find? (fun d => d.1 == ticket) = some (ticket, outcome)) :
    ∃ before behind, c.decided = before ++ (ticket, outcome) :: behind ∧
      (c.decided.eraseP fun d => d.1 == ticket) = before ++ behind := by
  obtain ⟨found, before, behind, decided, others⟩ := List.find?_eq_some_iff_append.1 known
  refine ⟨before, behind, decided, ?_⟩
  rw [decided, List.eraseP_append_right _ (by simpa using others)]
  simp

/-- What every step from `c` to `d` keeps: a call that waits for the client to stop goes on waiting
or has what it waited for, and what is known of a call is known until the call has returned with
it. -/
structure Keeps (c d : Client) : Prop where
  journal : c.journal <:+ d.journal
  policy : d.policy = c.policy
  clock : d.clock = c.clock ∨ c.atRest
  answer : c.answer.isSome → d.answer = c.answer
  stopping : c.stopping → d.stopping
  leavers : ∀ t ∈ c.leavers, t ∈ d.leavers ∨ (t, .ok ()) ∈ d.decided
  decided : ∀ t o, (t, o) ∈ c.decided →
    (t, o) ∈ d.decided ∨ (c.clock, .returned t o) ∈ d.journal

theorem Keeps.answered (keeps : Keeps c d) {outcome : Outcome}
    (answered : c.answer = some outcome) : d.answer = some outcome :=
  (keeps.answer (Option.isSome_of_mem answered)).trans answered

theorem keeps_of_suffix {j : Journal} (grown : c.journal <:+ j) :
    Keeps c { c with journal := j } where
  journal := grown
  policy := rfl
  clock := .inl rfl
  answer _ := rfl
  stopping := id
  leavers _ := .inl
  decided _ _ := .inl

theorem keeps_stop (c : Client) (box : Option Outbox) (new : Journal) :
    Keeps c { c with outbox := box, journal := new ++ c.journal }.stop :=
  have grown := (List.suffix_append new c.journal).trans (List.suffix_cons (c.clock, _) _)
  { keeps_of_suffix grown with
    leavers := fun t waiting => .inr (List.mem_append_right _ (List.mem_map.2 ⟨t, waiting, rfl⟩))
    decided := fun _ _ known => .inl (List.mem_append_left _ known) }

theorem keeps_lose (c : Client) (box : Option Outbox) (new : Journal) (verified : Bool)
    (failure : Failure) :
    Keeps c ({ c with outbox := box, journal := new ++ c.journal }.lose verified failure) := by
  have grown := (List.suffix_append new c.journal).trans
    (List.suffix_append (Journal.loss c.clock c.answer verified failure) _)
  rw [lose_eq]
  refine { keeps_of_suffix grown with
    answer := fun answered => ?_
    leavers := fun t waiting => ?_
    decided := fun t o known => .inl ?_ }
  · obtain ⟨outcome, known⟩ := Option.isSome_iff_exists.1 answered
    show some (c.answer.getD _) = c.answer
    rw [known]
    rfl
  · dsimp only
    split
    · exact .inl waiting
    · exact .inr (List.mem_append_right _ (List.mem_map.2 ⟨t, waiting, rfl⟩))
  · dsimp only
    split
    · exact known
    · exact List.mem_append_left _ known

theorem keeps_collect {ticket : Nat} {outcome : Outcome}
    (known : c.decided.find? (fun d => d.1 == ticket) = some (ticket, outcome)) :
    Keeps c ({ c with decided := c.decided.eraseP fun d => d.1 == ticket }.note
      (.returned ticket outcome)) := by
  obtain ⟨before, behind, decided, erased⟩ := exists_collect known
  refine { keeps_of_suffix (List.suffix_cons _ _) with
    leavers := fun _ waiting => .inl waiting
    decided := fun t o mem => ?_ }
  show (t, o) ∈ c.decided.eraseP _ ∨ _
  rw [decided] at mem
  rw [erased]
  rcases List.mem_append.1 mem with first | rest
  · exact .inl (List.mem_append_left _ first)
  · rcases List.mem_cons.1 rest with own | last
    · cases own
      exact .inr List.mem_cons_self
    · exact .inl (List.mem_append_right _ last)

/-- **No step takes back** what is in the journal, what was answered or what is known of calls. -/
theorem keeps_of_happens (h : Happens c a d) : Keeps c d := by
  have grown := (notes_of_happens h).suffix
  -- The journal is settled; what became of calls and of the first attempt is left.
  cases h with
  | start | heed | expireSession | expirePause | learn | learnFailure | desert | take | advance
  | hearNothing | ended | readFailed | wrote | build =>
    exact { keeps_of_suffix grown with }
  | heedAlone => exact keeps_stop c c.outbox []
  | expireDial | refused => exact keeps_lose c c.outbox [] _ _
  | halt | flushed | writeFailed =>
    simp only [halt, deliver_eq]
    exact { keeps_of_suffix List.suffix_rfl with
      leavers := fun _ waiting => .inl waiting
      decided := fun _ _ known => .inl (List.mem_append_left _ known) }
  | @close k ending =>
    cases ending with
    | shutdown => exact keeps_stop c none [(c.clock, .closed k)]
    | lost verified failure => exact keeps_lose c none [(c.clock, .closed k)] _ _
  | collect known => exact keeps_collect known
  | connected =>
    obtain ⟨frame, -, begun⟩ := c.begin_eq
    rw [begun] at grown ⊢
    exact { keeps_of_suffix grown with }
  | hearVersion =>
    rw [postAll_eq, reply_eq] at grown ⊢
    refine { keeps_of_suffix grown with answer := fun answered => ?_ }
    obtain ⟨outcome, known⟩ := Option.isSome_iff_exists.1 answered
    show some (c.answer.getD _) = c.answer
    rw [known]
    rfl
  | hear =>
    rw [postAll_eq] at grown ⊢
    exact { keeps_of_suffix grown with }
  | send payload =>
    rcases (c.build payload).2.submit_cases (c.build payload).1 with
      ⟨failure, same⟩ | ⟨frame, k, box, after, -, -, -, -, same⟩ <;>
      rw [same] at grown ⊢ <;> exact { keeps_of_suffix grown with }
  | sendPacket packet =>
    rcases c.submit_cases packet with ⟨failure, same⟩ | ⟨frame, k, box, after, -, -, -, -, same⟩ <;>
      rw [same] at grown ⊢ <;> exact { keeps_of_suffix grown with }
  | disconnect =>
    rw [disconnect_eq] at grown ⊢
    refine { keeps_of_suffix grown with
      stopping := fun _ => rfl
      leavers := fun t waiting => .inl ?_
      decided := fun t o known => .inl ?_ }
    · dsimp only
      split
      · exact waiting
      · exact List.mem_append_left _ waiting
    · dsimp only
      split
      · exact List.mem_append_left _ known
      · exact known
  | release => exact { keeps_of_suffix List.suffix_rfl with stopping := fun _ => rfl }
  | elapse _ rest => exact { keeps_of_suffix List.suffix_rfl with clock := .inr rest }

theorem keeps_of_step? (happened : c.step? a = some d) : Keeps c d :=
  keeps_of_happens (happens_of_step? happened)

theorem suffix_of_run? {actions : List Action} (run : c.run? actions = some d) :
    c.journal <:+ d.journal :=
  run?_induction (P := fun e => c.journal <:+ e.journal)
    (fun grown happened => grown.trans (keeps_of_happens happened).journal) List.suffix_rfl run

end Client

end ClimateLink
