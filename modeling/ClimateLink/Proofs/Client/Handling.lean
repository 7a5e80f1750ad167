import ClimateLink.Proofs.Client.Notes

/-!
# What a step does with frames

Most of what happens to a client has nothing to do with frames. `SameFrames` says what such a step
leaves as it was, and `Handles` lists what the other steps do: a session is opened, a call comes to
wait for the client to stop, frames move up in the outbox, bytes are written, a frame is done with,
a writer ends, or a frame is accepted.

**Theorem (`handles_of_happens`).** Every step leaves the frames as they were or is in the list.
-/

namespace ClimateLink

/-- Whether an entry has nothing to do with frames and calls that return. -/
def Occurrence.aside : Occurrence → Bool
  | .accepted _ _ _ | .wrote _ _ | .returned _ _ => false
  | _ => true

/-- Whether an action hands in or writes a frame, or lets a call return. -/
def Action.handles : Action → Bool
  | .signal (.wrote _) | .move (.collect _) => true
  | .request (.send _) | .request (.sendPacket _) => true
  | _ => false

namespace Client

/-! ## The fates of calls -/

/-- What is known to have become of calls, whether they have returned or not. -/
def outcomes (c : Client) : List (Nat × Outcome) := c.decided ++ c.journal.returned

/-- What has become or will become of the calls that are known to end. A call that waits for the
client to stop can only end well. -/
def fates (c : Client) : List (Nat × Outcome) :=
  c.outcomes ++ c.leavers.map fun t => (t, .ok ())

theorem mem_fates {c : Client} {t : Nat} {o : Outcome} :
    (t, o) ∈ c.fates ↔ (t, o) ∈ c.outcomes ∨ t ∈ c.leavers ∧ o = .ok () := by
  simp only [fates, List.mem_append, List.mem_map, Prod.mk.injEq]
  refine or_congr_right ⟨?_, fun h => ⟨t, h.1, rfl, h.2.symm⟩⟩
  rintro ⟨s, listed, rfl, rfl⟩
  exact ⟨listed, rfl⟩

/-! ## Steps that have nothing to do with frames -/

/-- From `c` to `d` frames and calls stay as they were: none is accepted, written or done with, and
no call but one that waited for the client to stop learns anything. -/
structure SameFrames (c d : Client) : Prop where
  connections : d.connections = c.connections
  tickets : d.tickets = c.tickets
  outbox : d.outbox = none ∨ d.outbox = c.outbox
  session : d.stage.session? = none ∨
    d.stage.session? = c.stage.session? ∧ d.outbox = c.outbox
  live : d.live = none ∨ d.live = d.stage.session? ∨
    d.live = c.live ∧ d.stage.session? = c.stage.session?
  accepted : ∀ k, d.journal.accepted k = c.journal.accepted k
  wire : ∀ k, d.journal.wire k = c.journal.wire k
  fates : d.fates.Perm c.fates
  leavers : d.leavers ⊆ c.leavers

variable {c d : Client} {a : Action}

/-- By such a step nothing becomes known of calls, except that the client has stopped for those who
wait for that. -/
theorem SameFrames.mem_outcomes (same : SameFrames c d) {t : Nat} {o : Outcome}
    (known : (t, o) ∈ d.outcomes) : (t, o) ∈ c.outcomes ∨ t ∈ c.leavers ∧ o = .ok () :=
  mem_fates.1 (same.fates.mem_iff.1 (mem_fates.2 (.inl known)))

theorem aside_of_may {o : Occurrence} (may : May c a o) (idle : a.handles = false) : o.aside := by
  cases o with
  | wrote =>
    obtain ⟨n, box, after, rfl, -⟩ := may
    cases idle
  | accepted =>
    obtain ⟨-, -, packet, ⟨r, rfl, sends⟩, -⟩ := may
    cases r with
    | send | sendPacket => cases idle
    | build | disconnect | release => cases sends
  | returned =>
    obtain ⟨rfl, -⟩ := may
    cases idle
  | entered | dialled | opened | closed | built | heard | posted | answered | refused | left => rfl

/-- Frames stay as they were where nothing about them is noted, and whoever waits for the client to
stop goes on waiting or is let go. -/
theorem sameFrames_of_notes (notes : Notes (fun o => o.aside) c d)
    (calls : d.decided = c.decided ∧ d.leavers = c.leavers ∨
      d.decided = c.decided ++ c.leavers.map (fun t => (t, .ok ())) ∧ d.leavers = [])
    (connections : d.connections = c.connections) (tickets : d.tickets = c.tickets)
    (outbox : d.outbox = none ∨ d.outbox = c.outbox)
    (session : d.stage.session? = none ∨
      d.stage.session? = c.stage.session? ∧ d.outbox = c.outbox)
    (live : d.live = none ∨ d.live = d.stage.session? ∨
      d.live = c.live ∧ d.stage.session? = c.stage.session?) : SameFrames c d := by
  have returned : d.journal.returned = c.journal.returned := by
    refine notes.collect fun o aside => ?_
    cases o with
    | returned => cases aside
    | _ => rfl
  refine ⟨connections, tickets, outbox, session, live, fun k => ?_, fun k => ?_, ?_, ?_⟩
  · refine notes.collect fun o aside => ?_
    cases o with
    | accepted => cases aside
    | _ => rfl
  · refine congrArg List.flatten (notes.collect fun o aside => ?_)
    cases o with
    | wrote => cases aside
    | _ => rfl
  · rcases calls with ⟨decided, leavers⟩ | ⟨decided, leavers⟩
    · rw [fates, fates, outcomes, outcomes, decided, leavers, returned]
    · simp only [fates, outcomes, decided, leavers, returned, List.map_nil, List.append_nil,
        List.append_assoc]
      exact List.perm_append_comm.append_left _
  · rcases calls with ⟨-, leavers⟩ | ⟨-, leavers⟩
    · rw [leavers]
      exact List.Subset.refl _
    · rw [leavers]
      exact List.nil_subset _

theorem sameFrames_build (payload : Payload) : SameFrames c (c.build payload).2 :=
  sameFrames_of_notes (notes_one rfl rfl) (.inl ⟨rfl, rfl⟩) rfl rfl (.inr rfl) (.inr ⟨rfl, rfl⟩)
    (.inr (.inr ⟨rfl, rfl⟩))

theorem SameFrames.refl (c : Client) : SameFrames c c :=
  sameFrames_of_notes (notes_nothing rfl) (.inl ⟨rfl, rfl⟩) rfl rfl (.inr rfl) (.inr ⟨rfl, rfl⟩)
    (.inr (.inr ⟨rfl, rfl⟩))

theorem SameFrames.refused (same : SameFrames c d) (failure : Failure) :
    SameFrames c (d.note (.refused failure)) :=
  { same with
    accepted := fun k => by simp [note, same.accepted]
    wire := fun k => by simp [note, same.wire]
    fates := by
      have unseen : (d.note (.refused failure)).fates = d.fates := by
        simp [Client.fates, outcomes, note]
      rw [unseen]
      exact same.fates }

theorem sameFrames_collect {ticket : Nat} {outcome : Outcome}
    (known : c.decided.find? (fun d => d.1 == ticket) = some (ticket, outcome)) :
    SameFrames c ({ c with decided := c.decided.eraseP fun d => d.1 == ticket }.note
      (.returned ticket outcome)) := by
  -- What is taken out of the list of those decided comes last among those that returned.
  obtain ⟨before, after, decided, erased⟩ := exists_collect known
  have fates : (c.decided.eraseP (fun d => d.1 == ticket) ++
      (c.journal.returned ++ [(ticket, outcome)])).Perm (c.decided ++ c.journal.returned) := by
    rw [erased, decided, List.append_assoc, List.append_assoc, ← List.append_assoc after]
    refine List.Perm.append_left before ?_
    exact List.perm_append_singleton (ticket, outcome) (after ++ c.journal.returned)
  refine ⟨rfl, rfl, .inr rfl, .inr ⟨rfl, rfl⟩, .inr (.inr ⟨rfl, rfl⟩), fun k => ?_, fun k => ?_, ?_,
    List.Subset.refl _⟩
  · simp [note]
  · simp [note]
  · simp only [Client.fates, outcomes, note, Journal.returned_cons, Option.toList_some]
    exact fates.append_right _

section Ends

variable (box : Option Outbox) (new : Journal)

/-- A client that stops lets go of whoever waits for that; it may have closed its connection. -/
theorem sameFrames_stop (gone : box = none ∨ box = c.outbox) (aside : ∀ e ∈ new, e.2.aside) :
    SameFrames c { c with outbox := box, journal := new ++ c.journal }.stop := by
  refine sameFrames_of_notes ⟨(c.clock, .entered .shutdown) :: new, rfl, ?_⟩ (.inr ⟨rfl, rfl⟩) rfl
    rfl gone (.inl rfl) (.inl rfl)
  exact List.forall_mem_cons.2 ⟨rfl, aside⟩

theorem sameFrames_lose (alone : c.stage.session? = none) (gone : box = none ∨ box = c.outbox)
    (aside : ∀ e ∈ new, e.2.aside) (verified : Bool) (failure : Failure) :
    SameFrames c
      ({ c with outbox := box, journal := new ++ c.journal }.lose verified failure) := by
  have noted : ∀ e ∈ Journal.loss c.clock c.answer verified failure ++ new, e.2.aside := by
    refine List.forall_mem_append.2 ⟨(Journal.forall_mem_loss _ _).2 ?_, aside⟩
    exact ⟨fun _ => ⟨rfl, fun _ => rfl⟩, fun _ => ⟨rfl, rfl⟩⟩
  rw [lose_eq]
  refine sameFrames_of_notes ⟨_, (List.append_assoc _ _ _).symm, noted⟩ ?_ rfl rfl gone (.inl ?_) ?_
  · by_cases answered : c.answer.isSome
    · exact .inl ⟨if_pos answered, if_pos answered⟩
    · exact .inr ⟨if_neg answered, if_neg answered⟩
  · dsimp only
    split <;> rfl
  · by_cases answered : c.answer.isSome
    · refine .inr (.inr ⟨if_pos answered, ?_⟩)
      dsimp only
      rw [if_pos answered, alone]
      rfl
    · exact .inl (if_neg answered)

end Ends

/-! ## All steps -/

/-- What a step from `c` to the client that comes last can do with frames. -/
inductive Handles (c : Client) : Action → Client → Prop where
  | nothing {a : Action} {d : Client} (same : SameFrames c d) : Handles c a d
  /-- A session begins. -/
  | opens (stage : c.stage = .dialing) : Handles c (.signal .connected) c.begin
  /-- A call comes to wait for the client to stop. -/
  | joins : Handles c (.request .disconnect) c.disconnect
  /-- A frame moves up. -/
  | moves {m : Move} {box after : Outbox} (outbox : c.outbox = some box)
    (moved : box.take = some after ∨ ∃ i, m = .advance i ∧ box.advance i = some after) :
    Handles c (.move m) { c with outbox := some after }
  | writes {n : Nat} {box after : Outbox} {bytes : Bytes} (outbox : c.outbox = some box)
    (written : box.write n = some (after, bytes)) :
    Handles c (.signal (.wrote n))
      ({ c with outbox := some after }.note (.wrote after.connection bytes))
  | finishes {box after : Outbox} {sender : Sender} (outbox : c.outbox = some box)
    (done : box.flush = some (after, sender)) :
    Handles c (.signal .flushed) ({ c with outbox := some after }.deliver [(sender, .ok ())])
  | fails {reason : String} {box after : Outbox} {outcomes : List (Sender × Outcome)}
    (outbox : c.outbox = some box) (failed : box.fail reason = some (after, outcomes)) :
    Handles c (.signal (.writeFailed reason)) ({ c with outbox := some after }.deliver outcomes)
  /-- The writer is stopped. -/
  | halts {box : Outbox} (gone : c.stage.session? = none) (outbox : c.outbox = some box)
    (working : box.failure = none) :
    Handles c (.move .halt) ({ c with outbox := none }.deliver box.abandon)
  /-- The frame of a call is accepted; `b` is the client once the packet is built. -/
  | accepts {b : Client} {r : Request} {packet : Packet} {k : Nat} {frame : Bytes}
    {box after : Outbox} (same : SameFrames c b) (taking : b.live = c.live)
    (sends : c.outgoing r = some packet) (encoded : Frame.encode packet = .ok frame)
    (live : b.live = some k) (outbox : b.outbox = some box)
    (queued : box.submit ⟨.call b.tickets, frame⟩ = some after) :
    Handles c (.request r) ({ b with outbox := some after, tickets := b.tickets + 1 }.note
      (.accepted b.tickets k frame))

theorem handles_submit {b : Client} (same : SameFrames c b) (taking : b.live = c.live)
    {r : Request} {packet : Packet} (sends : c.outgoing r = some packet) :
    Handles c (.request r) (b.submit packet) := by
  rcases b.submit_cases packet with
    ⟨failure, refused⟩ | ⟨frame, k, box, after, encoded, live, outbox, queued, accepted⟩
  · rw [refused]
    exact .nothing (same.refused failure)
  · rw [accepted]
    exact .accepts same taking sends encoded live outbox queued

/-- **Every step leaves the frames as they were or is in the list.** -/
theorem handles_of_happens (h : Happens c a d) : Handles c a d := by
  -- Most steps note nothing that is about frames or calls.
  have aside (idle : a.handles = false) : Notes (fun o => o.aside) c d :=
    (notes_of_happens h).mono fun o may => aside_of_may may idle
  cases h with
  | start stage | expirePause _ stage =>
    have none : c.stage.session? = none := congrArg Stage.session? stage
    exact .nothing (sameFrames_of_notes (aside rfl) (.inl ⟨rfl, rfl⟩) rfl rfl (.inr rfl) (.inl rfl)
      (.inr (.inr ⟨rfl, none.symm⟩)))
  | heedAlone => exact .nothing (sameFrames_stop c.outbox [] (.inr rfl) (List.forall_mem_nil _))
  | heed | expireSession | learnFailure | desert | ended | readFailed =>
    exact .nothing (sameFrames_of_notes (aside rfl) (.inl ⟨rfl, rfl⟩) rfl rfl (.inr rfl) (.inl rfl)
      (.inl rfl))
  | expireDial _ stage | refused stage =>
    exact .nothing (sameFrames_lose c.outbox [] (congrArg Stage.session? stage) (.inr rfl)
      (List.forall_mem_nil _) _ _)
  | learn stage | hearNothing _ stage =>
    have goesOn := (congrArg Stage.session? stage).symm
    exact .nothing (sameFrames_of_notes (aside rfl) (.inl ⟨rfl, rfl⟩) rfl rfl (.inr rfl)
      (.inr ⟨goesOn, rfl⟩) (.inr (.inr ⟨rfl, goesOn⟩)))
  | halt stage writing =>
    obtain ⟨box, outbox, working⟩ := (Option.any_eq_true _ _).1 writing
    have halted : c.halt = { c with outbox := none }.deliver box.abandon := by
      rw [Client.halt, outbox]
      rfl
    rw [halted]
    exact .halts (congrArg Stage.session? stage) outbox (Option.isNone_iff_eq_none.1 working)
  | @close k ending stage =>
    let entry : Journal := [(c.clock, .closed k)]
    have closed : ∀ e ∈ entry, e.2.aside := List.forall_mem_singleton.2 rfl
    cases ending with
    | shutdown => exact .nothing (sameFrames_stop none entry (.inl rfl) closed)
    | lost verified failure =>
      have alone := congrArg Stage.session? stage
      exact .nothing (sameFrames_lose none entry alone (.inl rfl) closed _ _)
  | take outbox taken => exact .moves outbox (.inl taken)
  | advance outbox advanced => exact .moves outbox (.inr ⟨_, rfl, advanced⟩)
  | collect known => exact .nothing (sameFrames_collect known)
  | connected stage => exact .opens stage
  | hearVersion _ stage =>
    have goesOn := (congrArg Stage.session? stage).symm
    have aside := aside rfl
    rw [postAll_eq, reply_eq] at aside ⊢
    exact .nothing (sameFrames_of_notes aside (.inl ⟨rfl, rfl⟩) rfl rfl (.inr rfl)
      (.inr ⟨goesOn, rfl⟩) (.inr (.inl rfl)))
  | hear _ stage =>
    have goesOn := (congrArg Stage.session? stage).symm
    have aside := aside rfl
    rw [postAll_eq] at aside ⊢
    exact .nothing (sameFrames_of_notes aside (.inl ⟨rfl, rfl⟩) rfl rfl (.inr rfl)
      (.inr ⟨goesOn, rfl⟩) (.inr (.inr ⟨rfl, goesOn⟩)))
  | wrote outbox written => exact .writes outbox written
  | flushed outbox done => exact .finishes outbox done
  | writeFailed outbox failed => exact .fails outbox failed
  | send payload => exact handles_submit (sameFrames_build payload) rfl rfl
  | sendPacket packet => exact handles_submit (.refl c) rfl rfl
  | build payload => exact .nothing (sameFrames_build payload)
  | disconnect => exact .joins
  | release | elapse =>
    exact .nothing (sameFrames_of_notes (aside rfl) (.inl ⟨rfl, rfl⟩) rfl rfl (.inr rfl)
      (.inr ⟨rfl, rfl⟩) (.inr (.inr ⟨rfl, rfl⟩)))

end Client

end ClimateLink
