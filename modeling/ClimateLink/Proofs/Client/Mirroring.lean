import ClimateLink.Proofs.Client.Renumbering
import ClimateLink.Proofs.Client.Shutdown
import ClimateLink.Proofs.Client.Spans

/-!
# Clients that mirror each other

Let two clients be the same but for the id that comes next and for what has happened so far. Then
whatever happens to one of them can happen to the other, and afterwards they are the same again.

**Theorem (`Mirrors.run?`).** The two can go through the same actions, and what one adds to its
journal is what the other adds, up to the ids of packets that they number.

**Theorem (`Mirrors.resumes`).** If the next ids are the same, so is everything that happens.

**The proof.** Every change of a client keeps `Mirrors`, and whether it can be made depends on
nothing in which the two differ. There is one lemma for each change, one for each kind of action
(`Mirrors.move?`, `Mirrors.signal?`, `Mirrors.request?`), and an induction over the run.
-/

namespace ClimateLink.Client

/-! ## Calls that send -/

section Submit

variable {c : Client} {packet : Packet} {frame : Bytes} {k : Nat} {box after : Outbox}

theorem submit_of_fault (on : ¬c.stopping) {fault : Unencodable}
    (encoded : Frame.encode packet = .error fault) :
    c.submit packet = c.note (.refused (.encode fault)) := by
  unfold Client.submit
  rw [if_neg on, encoded]

theorem submit_of_unlive (on : ¬c.stopping) (encoded : Frame.encode packet = .ok frame)
    (missing : c.live = none ∨ c.outbox = none) :
    c.submit packet = c.note (.refused .notConnected) := by
  unfold Client.submit
  rw [if_neg on, encoded]
  dsimp only
  split
  · next live outbox =>
    rcases missing with gone | gone
    · cases gone.symm.trans live
    · cases gone.symm.trans outbox
  · rfl

theorem submit_of_full (on : ¬c.stopping) (encoded : Frame.encode packet = .ok frame)
    (live : c.live = some k) (outbox : c.outbox = some box)
    (full : box.submit ⟨.call c.tickets, frame⟩ = none) :
    c.submit packet = c.note (.refused .connectionClosed) := by
  unfold Client.submit
  rw [if_neg on, encoded]
  dsimp only
  split
  · next hbox =>
    cases outbox.symm.trans hbox
    rw [full]
  · next missing => exact absurd outbox (missing k box live)

theorem submit_of_free (on : ¬c.stopping) (encoded : Frame.encode packet = .ok frame)
    (live : c.live = some k) (outbox : c.outbox = some box)
    (free : box.submit ⟨.call c.tickets, frame⟩ = some after) :
    c.submit packet = { c with outbox := some after, tickets := c.tickets + 1 }.note
      (.accepted c.tickets k frame) := by
  unfold Client.submit
  rw [if_neg on, encoded]
  dsimp only
  split
  · next hlive hbox =>
    cases outbox.symm.trans hbox
    cases live.symm.trans hlive
    rw [free]
  · next missing => exact absurd outbox (missing k box live)

end Submit

/-! ## Clients that are the same -/

/-- The client `d` is as `c`, except that it has come there by another way: its journal was `other`
where that of `c` was `old`, and its next id is `shift` further on. -/
structure Mirrors (shift : UInt8) (old other : Journal) (c d : Client) : Prop where
  policy : d.policy = c.policy
  clock : d.clock = c.clock
  stage : d.stage = c.stage
  since : d.since = c.since
  phase : d.phase = c.phase
  live : d.live = c.live
  outbox : Option.Rel (Outbox.Alike shift) c.outbox d.outbox
  numbering : d.numbering.next = c.numbering.next + shift
  connections : d.connections = c.connections
  tickets : d.tickets = c.tickets
  leavers : d.leavers = c.leavers
  decided : d.decided = c.decided
  answer : d.answer = c.answer
  stopping : d.stopping = c.stopping
  released : d.released = c.released
  journal : ∃ new fresh, c.journal = new ++ old ∧ d.journal = fresh ++ other ∧
    Journal.Alike shift new fresh

namespace Mirrors

variable {shift : UInt8} {old other : Journal} {c d : Client}

/-! ## Changes -/

theorem note (m : Mirrors shift old other c d) {o p : Occurrence}
    (alike : Occurrence.Alike shift o p) : Mirrors shift old other (c.note o) (d.note p) := by
  obtain ⟨new, fresh, hc, hd, entries⟩ := m.journal
  refine { m with journal := ⟨(c.clock, o) :: new, (d.clock, p) :: fresh, ?_, ?_, ?_⟩ }
  · exact congrArg (List.cons _) hc
  · exact congrArg (List.cons _) hd
  · exact .cons ⟨m.clock, alike⟩ entries

theorem noteSame (m : Mirrors shift old other c d) (o : Occurrence) :
    Mirrors shift old other (c.note o) (d.note o) := m.note (.same o)

theorem enter (m : Mirrors shift old other c d) (phase : Phase) :
    Mirrors shift old other (c.enter phase) (d.enter phase) := by
  have shown : Mirrors shift old other { c with phase := phase } { d with phase := phase } :=
    { m with phase := rfl }
  exact shown.noteSame _

theorem postAll (m : Mirrors shift old other c d) (packets : List Packet) :
    Mirrors shift old other (c.postAll packets) (d.postAll packets) := by
  induction packets generalizing c d with
  | nil => exact m
  | cons p packets ih => exact ih (m.noteSame (.posted (.packet p)))

theorem goTo (m : Mirrors shift old other c d) (stage : Stage) :
    Mirrors shift old other (c.goTo stage) (d.goTo stage) :=
  { m with stage := rfl, since := m.clock }

theorem reply (m : Mirrors shift old other c d) (outcome : Outcome) :
    Mirrors shift old other (c.reply outcome) (d.reply outcome) := by
  unfold Client.reply
  rw [m.answer]
  split
  · exact m
  · have answered : Mirrors shift old other { c with answer := some outcome }
        { d with answer := some outcome } := { m with answer := rfl }
    exact answered.noteSame _

theorem deliver (m : Mirrors shift old other c d) (outcomes : List (Sender × Outcome)) :
    Mirrors shift old other (c.deliver outcomes) (d.deliver outcomes) := by
  rw [deliver_eq, deliver_eq]
  exact { m with
    stage := congrArg (Client.told · outcomes) m.stage
    decided := congrArg (· ++ callOutcomes outcomes) m.decided }

theorem place (m : Mirrors shift old other c d) {box next : Outbox}
    (boxes : Outbox.Alike shift box next) :
    Mirrors shift old other { c with outbox := some box } { d with outbox := some next } :=
  { m with outbox := .some boxes }

theorem build (m : Mirrors shift old other c d) (payload : Payload) :
    Mirrors shift old other (c.build payload).2 (d.build payload).2 := by
  have numbered : Mirrors shift old other { c with numbering := (c.numbering.stamp payload).2 }
      { d with numbering := (d.numbering.stamp payload).2 } := by
    refine { m with numbering := ?_ }
    show d.numbering.next + 1 = c.numbering.next + 1 + shift
    rw [m.numbering]
    ac_rfl
  have packets : Occurrence.Alike shift (.built (c.numbering.stamp payload).1)
      (.built (d.numbering.stamp payload).1) := by
    have next : d.numbering = ⟨c.numbering.next + shift⟩ := congrArg Numbering.mk m.numbering
    rw [next]
    exact .built c.numbering.next payload
  exact numbered.note packets

theorem dial (m : Mirrors shift old other c d) : Mirrors shift old other c.dial d.dial :=
  ((m.goTo .dialing).enter .connecting).noteSame _

theorem stop (m : Mirrors shift old other c d) : Mirrors shift old other c.stop d.stop := by
  have gone : Mirrors shift old other { c with live := none } { d with live := none } :=
    { m with live := rfl }
  have stopped := (gone.goTo .stopped).enter .shutdown
  refine { stopped with leavers := rfl, decided := ?_ }
  show d.decided ++ d.leavers.map _ = c.decided ++ c.leavers.map _
  rw [m.decided, m.leavers]

theorem lose (m : Mirrors shift old other c d) (verified : Bool) (failure : Failure) :
    Mirrors shift old other (c.lose verified failure) (d.lose verified failure) := by
  unfold Client.lose
  rw [m.answer]
  split
  · have posted : Mirrors shift old other (if verified then c.post .disconnected else c)
        (if verified then d.post .disconnected else d) := by
      split
      · exact m.noteSame _
      · exact m
    exact (posted.goTo .pausing).enter .disconnected
  · exact m.stop.reply _

theorem leave (m : Mirrors shift old other c d) (k : Nat) (ending : Ending) :
    Mirrors shift old other (c.leave k ending) (d.leave k ending) := by
  have gone : Mirrors shift old other { c with live := none } { d with live := none } :=
    { m with live := rfl }
  exact gone.goTo _

theorem writing (m : Mirrors shift old other c d) : d.writing = c.writing := by
  have outbox := m.outbox
  unfold Client.writing
  generalize c.outbox = a at outbox ⊢
  generalize d.outbox = b at outbox ⊢
  cases outbox with
  | none => rfl
  | some boxes => rw [Option.any_some, Option.any_some, boxes.failure]

theorem halt (m : Mirrors shift old other c d) : Mirrors shift old other c.halt d.halt := by
  have same : d.outbox.map Outbox.abandon = c.outbox.map Outbox.abandon := by
    have outbox := m.outbox
    generalize c.outbox = a at outbox ⊢
    generalize d.outbox = b at outbox ⊢
    cases outbox with
    | none => rfl
    | some boxes => rw [Option.map_some, Option.map_some, boxes.abandon]
  unfold Client.halt
  rw [same]
  have cleared : Mirrors shift old other { c with outbox := none } { d with outbox := none } :=
    { m with outbox := .none }
  exact cleared.deliver _

theorem close (m : Mirrors shift old other c d) (k : Nat) (ending : Ending) :
    Mirrors shift old other (c.close k ending) (d.close k ending) := by
  have cleared : Mirrors shift old other { c with outbox := none } { d with outbox := none } :=
    { m with outbox := .none }
  have closed := cleared.noteSame (.closed k)
  cases ending with
  | shutdown => exact closed.stop
  | lost verified failure => exact closed.lose verified failure

theorem disconnect (m : Mirrors shift old other c d) :
    Mirrors shift old other c.disconnect d.disconnect := by
  have told : Mirrors shift old other { c with stopping := true, tickets := c.tickets + 1 }
      { d with stopping := true, tickets := d.tickets + 1 } :=
    { m with stopping := rfl, tickets := congrArg (· + 1) m.tickets }
  have tickets : Occurrence.Alike shift (.left c.tickets) (.left d.tickets) := by
    rw [m.tickets]
    exact .same _
  have left := told.note tickets
  rw [disconnect_eq, disconnect_eq]
  refine { left with leavers := ?_, decided := ?_ }
  · show (if d.stage = .stopped then d.leavers else d.leavers ++ [d.tickets]) = _
    rw [m.stage, m.leavers, m.tickets]
  · show (if d.stage = .stopped then d.decided ++ [(d.tickets, .ok ())] else d.decided) = _
    rw [m.stage, m.decided, m.tickets]

theorem accept (m : Mirrors shift old other c d) {k : Nat} {frame following : Bytes}
    {box after : Outbox} (renumbered : Renumbered shift frame following)
    (boxes : Outbox.Alike shift box after) :
    Mirrors shift old other
      ({ c with outbox := some box, tickets := c.tickets + 1 }.note (.accepted c.tickets k frame))
      ({ d with outbox := some after, tickets := d.tickets + 1 }.note
        (.accepted d.tickets k following)) := by
  have placed : Mirrors shift old other { c with outbox := some box, tickets := c.tickets + 1 }
      { d with outbox := some after, tickets := d.tickets + 1 } :=
    { m with outbox := .some boxes, tickets := congrArg (· + 1) m.tickets }
  have entries : Occurrence.Alike shift (.accepted c.tickets k frame)
      (.accepted d.tickets k following) := by
    rw [m.tickets]
    exact .accepted renumbered
  exact placed.note entries

theorem offer (m : Mirrors shift old other c d) {packet next : Packet} {frame following : Bytes}
    (on : ¬c.stopping) (first : Frame.encode packet = .ok frame)
    (second : Frame.encode next = .ok following) (renumbered : Renumbered shift frame following) :
    Mirrors shift old other (c.submit packet) (d.submit next) := by
  have on' : ¬d.stopping := m.stopping ▸ on
  have outbox := m.outbox
  cases live : c.live with
  | none =>
    rw [submit_of_unlive on first (.inl live),
      submit_of_unlive on' second (.inl (m.live.trans live))]
    exact m.noteSame _
  | some k =>
    have live' := m.live.trans live
    cases held : c.outbox with
    | none =>
      have held' := (eq_none_iff_of_rel outbox).1 held
      rw [submit_of_unlive on first (.inr held), submit_of_unlive on' second (.inr held')]
      exact m.noteSame _
    | some box =>
      obtain ⟨after, held', boxes⟩ := exists_of_rel outbox held
      have jobs : Job.Alike shift ⟨.call c.tickets, frame⟩ ⟨.call d.tickets, following⟩ :=
        ⟨congrArg Sender.call m.tickets, renumbered⟩
      have queued := boxes.submit jobs
      cases place : box.submit ⟨.call c.tickets, frame⟩ with
      | none =>
        have full := (eq_none_iff_of_rel queued).1 place
        rw [submit_of_full on first live held place, submit_of_full on' second live' held' full]
        exact m.noteSame _
      | some box =>
        obtain ⟨after, place', boxes⟩ := exists_of_rel queued place
        rw [submit_of_free on first live held place,
          submit_of_free on' second live' held' place']
        exact m.accept renumbered boxes

theorem submit (m : Mirrors shift old other c d) {packet next : Packet}
    (frames : (∃ fault, Frame.encode packet = .error fault ∧ Frame.encode next = .error fault) ∨
      ∃ frame following, Frame.encode packet = .ok frame ∧ Frame.encode next = .ok following ∧
        Renumbered shift frame following) :
    Mirrors shift old other (c.submit packet) (d.submit next) := by
  by_cases told : c.stopping
  · rw [submit_of_told told, submit_of_told (m.stopping.trans told)]
    exact m.noteSame _
  · rcases frames with ⟨fault, first, second⟩ | ⟨frame, following, first, second, renumbered⟩
    · have on : ¬d.stopping := m.stopping ▸ told
      rw [submit_of_fault told first, submit_of_fault on second]
      exact m.noteSame _
    · exact m.offer told first second renumbered

theorem begin (m : Mirrors shift old other c d) : Mirrors shift old other c.begin d.begin := by
  obtain ⟨frame, first, begun⟩ := c.begin_eq
  obtain ⟨next, second, begun'⟩ := d.begin_eq
  -- Both number the request for the version, each with its own next id.
  have renumbered : Renumbered shift frame next := by
    rw [m.numbering] at second
    exact .shifted first second
  have box : Outbox.Alike shift
      ⟨c.connections, c.policy.places, none, [⟨.client, frame⟩], [], none⟩
      ⟨d.connections, d.policy.places, none, [⟨.client, next⟩], [], none⟩ :=
    ⟨m.connections, congrArg Policy.places m.policy, rfl, .none, .cons ⟨rfl, renumbered⟩ .nil, .nil⟩
  have opened : Occurrence.Alike shift (.opened c.connections) (.opened d.connections) := by
    rw [m.connections]
    exact .same _
  have packets : Occurrence.Alike shift (.built (versionRequest c.numbering.next))
      (.built (versionRequest d.numbering.next)) := by
    rw [m.numbering]
    exact .built c.numbering.next .versionRequest
  have noted := ((m.note opened).noteSame (.entered .verifying)).note packets
  rw [begun, begun']
  refine { noted with
    stage := congrArg (Stage.asking · none) m.connections
    since := m.clock
    phase := rfl
    outbox := .some box
    numbering := ?_
    connections := congrArg (· + 1) m.connections }
  show d.numbering.next + 1 = c.numbering.next + 1 + shift
  rw [m.numbering]
  ac_rfl

theorem verify (m : Mirrors shift old other c d) (k : Nat) (packets : List Packet)
    (framer : Framer) :
    Mirrors shift old other (c.verify k packets framer) (d.verify k packets framer) := by
  unfold Client.verify
  split
  · exact { m with stage := rfl }
  · have taking : Mirrors shift old other { c with live := some k } { d with live := some k } :=
      { m with live := rfl }
    exact ((((taking.goTo _).enter .connected).noteSame (.posted .connected)).reply _).postAll _

theorem hear (m : Mirrors shift old other c d) (k : Nat) (chunk : Bytes) :
    Mirrors shift old other (c.hear k chunk) (d.hear k chunk) := by
  have heard := m.noteSame (.heard k chunk)
  have stage : (d.note (.heard k chunk)).stage = (c.note (.heard k chunk)).stage := m.stage
  unfold Client.hear
  dsimp only
  rw [stage]
  split
  · exact heard.verify _ _ _
  · have went (framer : Framer) : Mirrors shift old other
        { c.note (.heard k chunk) with stage := .running k framer }
        { d.note (.heard k chunk) with stage := .running k framer } := { heard with stage := rfl }
    exact (went _).postAll _
  · exact heard

/-! ## Actions -/

theorem heed (m : Mirrors shift old other c d) :
    Option.Rel (Mirrors shift old other) c.heed d.heed := by
  unfold Client.heed
  rw [m.stage]
  cases c.stage with
  | dialing | pausing => exact .some m.stop
  | asking | verifying | running => exact .some (m.leave _ _)
  | idle | closing | stopped => exact .none

theorem expire (m : Mirrors shift old other c d) :
    Option.Rel (Mirrors shift old other) c.expire d.expire := by
  unfold Client.expire
  rw [m.stage, m.policy]
  cases c.stage with
  | dialing => exact .some (m.lose _ _)
  | asking k told =>
    cases told with
    | none => exact .some (m.leave _ _)
    | some => exact .none
  | verifying => exact .some (m.leave _ _)
  | pausing => exact .some m.dial
  | idle | running | closing | stopped => exact .none

theorem learn (m : Mirrors shift old other c d) :
    Option.Rel (Mirrors shift old other) c.learn d.learn := by
  unfold Client.learn
  rw [m.stage]
  cases c.stage with
  | asking k told =>
    cases told with
    | none => exact .none
    | some outcome =>
      cases outcome with
      | ok => exact .some { m with stage := rfl }
      | error => exact .some (m.leave _ _)
  | idle | dialing | verifying | running | closing | pausing | stopped => exact .none

theorem collect (m : Mirrors shift old other c d) (ticket : Nat) :
    Option.Rel (Mirrors shift old other) (c.collect ticket) (d.collect ticket) := by
  unfold Client.collect
  rw [m.decided]
  cases c.decided.find? fun known => known.1 == ticket with
  | none => exact .none
  | some known =>
    have gone : Mirrors shift old other
        { c with decided := c.decided.eraseP fun known => known.1 == ticket }
        { d with decided := c.decided.eraseP fun known => known.1 == ticket } :=
      { m with decided := rfl }
    exact .some (gone.noteSame _)

theorem deadline (m : Mirrors shift old other c d) : d.deadline = c.deadline := by
  unfold Client.deadline
  rw [m.stage, m.since, m.policy]

theorem failure (m : Mirrors shift old other c d) :
    d.outbox.bind Outbox.failure = c.outbox.bind Outbox.failure := by
  cases held : c.outbox with
  | none => rw [(eq_none_iff_of_rel m.outbox).1 held]
  | some box =>
    obtain ⟨next, held', boxes⟩ := exists_of_rel m.outbox held
    rw [held']
    exact boxes.failure

theorem replace (m : Mirrors shift old other c d) {change : Outbox → Option Outbox}
    (keeps : ∀ a b, Outbox.Alike shift a b →
      Option.Rel (Outbox.Alike shift) (change a) (change b)) :
    Option.Rel (Mirrors shift old other)
      ((c.outbox.bind change).map fun box => { c with outbox := some box })
      ((d.outbox.bind change).map fun box => { d with outbox := some box }) :=
  rel_map (rel_bind m.outbox keeps) fun _ _ boxes => m.place boxes

/-- A move that one of them can make, the other can make as well. -/
theorem move? (m : Mirrors shift old other c d) (move : Move) :
    Option.Rel (Mirrors shift old other) (c.move? move) (d.move? move) := by
  cases move with
  | start => exact rel_ite (by rw [m.stage]) fun _ => .some m.dial
  | heed => exact rel_ite (by rw [m.stopping]) fun _ => m.heed
  | expire =>
    refine rel_ite ?_ fun _ => m.expire
    rw [Client.due, Client.due, m.deadline, m.clock]
  | learn => exact m.learn
  | desert =>
    unfold Client.move?
    dsimp only
    rw [m.stage, m.failure]
    split
    · exact .some (m.leave _ _)
    · exact .none
  | halt =>
    unfold Client.move?
    dsimp only
    rw [m.stage]
    split
    · exact rel_ite (by rw [m.writing]) fun _ => .some m.halt
    · exact .none
  | close =>
    unfold Client.move?
    dsimp only
    rw [m.stage, m.writing]
    split
    · split
      · exact .none
      · exact .some (m.close _ _)
    · exact .none
  | take => exact m.replace fun _ _ boxes => boxes.take
  | advance i => exact m.replace fun _ _ boxes => boxes.advance i
  | collect ticket => exact m.collect ticket

theorem atRest (m : Mirrors shift old other c d) : d.atRest = c.atRest := by
  refine Bool.eq_iff_iff.2 ?_
  rw [atRest_iff, atRest_iff]
  exact forall_congr' fun move => (eq_none_iff_of_rel (m.move? move)).symm

theorem reading (m : Mirrors shift old other c d) : d.reading = c.reading := by
  unfold Client.reading
  rw [m.stage]

theorem verified (m : Mirrors shift old other c d) : d.verified = c.verified := by
  unfold Client.verified
  rw [m.stage]

theorem quit (m : Mirrors shift old other c d) (failure : Failure) :
    Option.Rel (Mirrors shift old other)
      (c.reading.map fun k => c.leave k (.lost c.verified failure))
      (d.reading.map fun k => d.leave k (.lost d.verified failure)) := by
  rw [m.reading, m.verified]
  cases c.reading with
  | none => exact .none
  | some => exact .some (m.leave _ _)

theorem signal? (m : Mirrors shift old other c d) (s : Signal) :
    Option.Rel (Mirrors shift old other) (c.signal? s) (d.signal? s) := by
  cases s with
  | refused reason => exact rel_ite (by rw [m.stage]) fun _ => .some (m.lose _ _)
  | connected => exact rel_ite (by rw [m.stage]) fun _ => .some m.begin
  | received chunk =>
    refine rel_ite (by rw [m.policy]) fun _ => ?_
    rw [m.reading]
    cases c.reading with
    | none => exact .none
    | some => exact .some (m.hear _ _)
  | ended => exact m.quit _
  | readFailed reason => exact m.quit _
  | wrote n =>
    refine rel_bind m.outbox fun _ _ boxes => rel_bind (boxes.write n) ?_
    rintro ⟨a, bytes⟩ ⟨b, others⟩ ⟨boxes, slices⟩
    have written : Occurrence.Alike shift (.wrote a.connection bytes)
        (.wrote b.connection others) := by
      rw [boxes.connection]
      exact .wrote slices
    exact .some ((m.place boxes).note written)
  | flushed =>
    refine rel_bind m.outbox fun _ _ boxes => rel_bind boxes.flush ?_
    rintro ⟨a, sender⟩ ⟨b, _⟩ ⟨boxes, rfl⟩
    exact .some ((m.place boxes).deliver _)
  | writeFailed reason =>
    refine rel_bind m.outbox fun _ _ boxes => rel_bind (boxes.fail reason) ?_
    rintro ⟨a, outcomes⟩ ⟨b, _⟩ ⟨boxes, rfl⟩
    exact .some ((m.place boxes).deliver _)

theorem send (m : Mirrors shift old other c d) (payload : Payload) :
    Mirrors shift old other ((c.build payload).2.submit (c.build payload).1)
      ((d.build payload).2.submit (d.build payload).1) := by
  refine (m.build payload).submit ?_
  have packet : (c.build payload).1 = numbered c.numbering.next payload := rfl
  have other : (d.build payload).1 = numbered (c.numbering.next + shift) payload := by
    rw [← m.numbering]
    rfl
  rw [packet, other]
  rcases encode_renumber c.numbering.next (c.numbering.next + shift) payload with
    faults | ⟨frame, next, first, second, -⟩
  · exact .inl faults
  · exact .inr ⟨frame, next, first, second, .shifted first second⟩

theorem sendPacket (m : Mirrors shift old other c d) (packet : Packet) :
    Mirrors shift old other (c.submit packet) (d.submit packet) := by
  refine m.submit ?_
  cases encoded : Frame.encode packet with
  | error fault => exact .inl ⟨fault, rfl, rfl⟩
  | ok frame => exact .inr ⟨frame, frame, rfl, rfl, .same frame⟩

theorem request? (m : Mirrors shift old other c d) (r : Request) :
    Option.Rel (Mirrors shift old other) (c.request? r) (d.request? r) := by
  refine rel_ite ?_ fun _ => ?_
  · rw [Client.held, Client.held, m.answer, m.released]
  cases r with
  | send payload => exact .some (m.send payload)
  | sendPacket packet => exact .some (m.sendPacket packet)
  | build payload => exact .some (m.build payload)
  | disconnect => exact .some m.disconnect
  | release => exact .some { m with stopping := rfl, released := rfl }

/-- **What can happen to one of them can happen to the other**, and they mirror each other again. -/
theorem step? (m : Mirrors shift old other c d) (a : Action) :
    Option.Rel (Mirrors shift old other) (c.step? a) (d.step? a) := by
  cases a with
  | move move => exact m.move? move
  | signal s => exact m.signal? s
  | request r => exact m.request? r
  | elapse ms =>
    refine rel_ite ?_ fun _ => .some { m with clock := congrArg (· + ms) m.clock }
    rw [m.atRest, m.deadline, m.clock]

/-- **The two clients go through the same runs.** -/
theorem run? (m : Mirrors shift old other c d) (actions : List Action) :
    Option.Rel (Mirrors shift old other) (c.run? actions) (d.run? actions) := by
  induction actions generalizing c d with
  | nil => exact .some m
  | cons a actions ih =>
    -- What the journals were before the two parted stays the same along the run.
    have first := m.step? a
    unfold Client.run?
    rw [List.foldlM_cons, List.foldlM_cons]
    exact rel_bind first fun _ _ next => ih next

/-! ## What is the same -/

theorem nextEvent (m : Mirrors shift old other c d) (same : other.posted = old.posted)
    (taken : Nat) : d.nextEvent taken = c.nextEvent taken := by
  obtain ⟨new, fresh, hc, hd, entries⟩ := m.journal
  have posted : d.journal.posted = c.journal.posted := by
    rw [hc, hd, Journal.posted_append, Journal.posted_append, entries.posted, same]
  unfold Client.nextEvent
  rw [posted, m.stage]

/-- Where the ids are the same, the clients are, but for what had happened before. -/
theorem resumes (m : Mirrors 0 old other c d) :
    ∃ new, c.journal = new ++ old ∧ d = { c with journal := new ++ other } := by
  have outbox : d.outbox = c.outbox := by
    cases held : c.outbox with
    | none => exact (eq_none_iff_of_rel m.outbox).1 held
    | some box =>
      obtain ⟨next, held', boxes⟩ := exists_of_rel m.outbox held
      rw [held', boxes.eq]
  have numbering : d.numbering = c.numbering := by
    have next := m.numbering
    rw [UInt8.add_zero] at next
    exact congrArg Numbering.mk next
  obtain ⟨new, fresh, hc, hd, entries⟩ := m.journal
  refine ⟨new, hc, ?_⟩
  rw [entries.eq] at hd
  cases c
  cases d
  rw [mk.injEq]
  exact ⟨m.policy, m.clock, m.stage, m.since, m.phase, m.live, outbox, numbering, m.connections,
    m.tickets, m.leavers, m.decided, m.answer, m.stopping, m.released, hd⟩

end Mirrors

/-! ## Clients that part -/

/-- What is still to be written of the frame in hand is the end of it. -/
theorem Reachable.holds {policy : Policy} {c : Client} (h : Reachable policy c) {box : Outbox}
    (outbox : c.outbox = some box) : ∃ part, box.Holds part := by
  cases inHand : box.inHand with
  | none =>
    refine ⟨[], ?_⟩
    rw [Outbox.Holds, inHand]
  | some hand =>
    obtain ⟨-, -, part, -, -, holds, -, -⟩ :=
      h.booked.own h.sound outbox (h.sound.working outbox inHand)
    exact ⟨part, holds⟩

/-- A client mirrors one that is the same but for the next id and what has happened so far. -/
theorem Reachable.mirrors {policy : Policy} {c : Client} (h : Reachable policy c) (shift : UInt8)
    (other : Journal) : Mirrors shift c.journal other c
      { c with numbering := ⟨c.numbering.next + shift⟩, journal := other } := by
  have outbox : Option.Rel (Outbox.Alike shift) c.outbox c.outbox := by
    cases held : c.outbox with
    | none => exact .none
    | some box =>
      obtain ⟨part, holds⟩ := h.holds held
      exact .some holds.alike
  exact ⟨rfl, rfl, rfl, rfl, rfl, rfl, outbox, rfl, rfl, rfl, rfl, rfl, rfl, rfl, rfl,
    [], [], rfl, rfl, .nil⟩

end ClimateLink.Client
