import ClimateLink.Proofs.Client.Calls
import ClimateLink.Proofs.Client.Mirroring

/-!
# Calls that are refused

A call that sends a packet returns at once if the client has been shut down, if the packet cannot be
encoded, or if no verified session is live. These are looked at in this order (`Refuses`), while
other calls, the writer and the session go on.

**Theorem (`Reachable.refused_call_leaves_no_trace`).** Such a call leaves everything as it was, but
that a call which numbers its packet has used up one id.

**The proof.** The client behind the call and the one that was never called mirror each other, so
they go through the same runs (`Mirrors.run?`). The one behind the call also mirrors a client that
has only used up the id. There the ids are the same, and so is everything else
(`Mirrors.resumes`).
-/

namespace ClimateLink

/-- How many ids a request uses up. -/
def Request.ids : Request → UInt8
  | .send _ | .build _ => 1
  | .sendPacket _ | .disconnect | .release => 0

namespace Client

variable {c d : Client} {packet : Packet} {failure : Failure}

/-! ## What a call is refused for -/

/-- What a call that sends the packet is refused for. -/
inductive Refuses (c : Client) (packet : Packet) : Failure → Prop where
  | shutdown (told : c.stopping) : Refuses c packet .shutdown
  | encode {fault : Unencodable} (on : ¬c.stopping)
    (encoded : Frame.encode packet = .error fault) : Refuses c packet (.encode fault)
  | notConnected {frame : Bytes} (on : ¬c.stopping) (encoded : Frame.encode packet = .ok frame)
    (offline : ¬c.isConnected) : Refuses c packet .notConnected

/-- From `c` to `d`, a call hands in the packet: the session takes the frame, unless its writer has
failed. -/
inductive Takes (c : Client) (packet : Packet) (d : Client) : Prop where
  | accepted {k : Nat} {frame : Bytes} (live : c.live = some k)
    (encoded : Frame.encode packet = .ok frame)
    (journal : d.journal = (c.clock, .accepted c.tickets k frame) :: c.journal)
  | failed (live : c.isConnected) (broken : ¬c.writing)
    (state : d = c.note (.refused .connectionClosed))

theorem Refuses.of_same (refuses : c.Refuses packet failure) (stopping : d.stopping = c.stopping)
    (live : d.isConnected = c.isConnected) : d.Refuses packet failure := by
  cases refuses with
  | shutdown told => exact .shutdown (stopping.trans told)
  | encode on encoded => exact .encode (stopping ▸ on) encoded
  | notConnected on encoded offline => exact .notConnected (stopping ▸ on) encoded (live ▸ offline)

theorem live_eq_none_iff : c.live = none ↔ ¬c.isConnected := by
  rw [isConnected, Option.isSome_iff_ne_none, not_not]

theorem submit_of_refuses (refuses : c.Refuses packet failure) :
    c.submit packet = c.note (.refused failure) := by
  cases refuses with
  | shutdown told => exact submit_of_told told packet
  | encode on encoded => exact submit_of_fault on encoded
  | notConnected on encoded offline =>
    exact submit_of_unlive on encoded (.inl (live_eq_none_iff.2 offline))

theorem Reachable.takes {policy : Policy} (h : Reachable policy c)
    (unrefused : ∀ failure, ¬c.Refuses packet failure) :
    Takes c packet (c.submit packet) := by
  have on : ¬c.stopping := fun told => unrefused _ (.shutdown told)
  cases encoded : Frame.encode packet with
  | error fault => exact absurd (.encode on encoded) (unrefused _)
  | ok frame =>
    have online : c.isConnected := by
      by_contra offline
      exact unrefused _ (.notConnected on encoded offline)
    obtain ⟨k, live⟩ := Option.isSome_iff_exists.1 online
    obtain ⟨box, outbox, -⟩ := h.sound.session k (h.sound.live k live)
    cases place : box.submit ⟨.call c.tickets, frame⟩ with
    | none =>
      rw [submit_of_full on encoded live outbox place]
      have broken : ¬c.writing := by
        rw [writing, outbox, Option.any_some, Option.isNone_iff_eq_none]
        intro working
        unfold Outbox.submit at place
        rw [working, Option.isSome_none, if_neg Bool.false_ne_true] at place
        split at place <;> cases place
      exact .failed online broken rfl
    | some after =>
      rw [submit_of_free on encoded live outbox place]
      exact .accepted live encoded rfl

/-! ## What a call uses up -/

/-- The client that has only used up the ids of a request. -/
def spend (c : Client) : Request → Client
  | .send payload | .build payload => (c.build payload).2
  | .sendPacket _ | .disconnect | .release => c

/-- Nothing but the next id and the journal changes by that. -/
theorem spend_eq (c : Client) (r : Request) : c.spend r =
    { c with numbering := ⟨c.numbering.next + r.ids⟩, journal := (c.spend r).journal } := by
  have none : (⟨c.numbering.next + 0⟩ : Numbering) = c.numbering := by rw [UInt8.add_zero]
  cases r with
  | send | build => rfl
  | sendPacket | disconnect | release =>
    show c = { c with numbering := ⟨c.numbering.next + 0⟩ }
    rw [none]

/-- To build a packet and do no more uses up its id. -/
theorem Reachable.spend {policy : Policy} (h : Reachable policy c) (held : c.held) (r : Request) :
    Reachable policy (c.spend r) := by
  cases r with
  | send payload | build payload => exact h.step (a := .request (.build payload)) (if_pos held)
  | sendPacket | disconnect | release => exact h

theorem posted_spend (c : Client) (r : Request) :
    (c.spend r).journal.posted = c.journal.posted := by
  cases r with
  | send | build => exact (Journal.posted_cons ..).trans (List.append_nil _)
  | sendPacket | disconnect | release => rfl

theorem wire_spend (c : Client) (r : Request) (k : Nat) :
    (c.spend r).journal.wire k = c.journal.wire k := by
  cases r with
  | send | build => exact (Journal.wire_cons ..).trans (List.append_nil _)
  | sendPacket | disconnect | release => rfl

theorem refuses_spend (r : Request) :
    (c.spend r).Refuses packet failure ↔ c.Refuses packet failure := by
  have stopping : (c.spend r).stopping = c.stopping := by rw [spend_eq]
  have live : (c.spend r).isConnected = c.isConnected := by
    rw [spend_eq]
    rfl
  exact ⟨fun refuses => refuses.of_same stopping.symm live.symm,
    fun refuses => refuses.of_same stopping live⟩

/-- A call that sends a packet uses up its id and then hands the packet in. -/
theorem step_of_outgoing {r : Request} (held : c.held) (sends : c.outgoing r = some packet) :
    c.step? (.request r) = some ((c.spend r).submit packet) := by
  cases r with
  | send | sendPacket =>
    cases sends
    exact if_pos held
  | build | disconnect | release => cases sends

/-! ## No trace -/

/-- The client `d` is as `c` is, and has come there from a client whose journal was `other` where
that of `c` was `old`. -/
def Resumes (old other : Journal) (c d : Client) : Prop :=
  ∃ new, c.journal = new ++ old ∧ d = { c with journal := new ++ other }

/-- The client `d` is as `c`, and shows, posts and returns the same, but for the ids of packets that
it numbers. -/
structure Echoes (shift : UInt8) (old other : Journal) (c d : Client) : Prop where
  mirrors : Mirrors shift old other c d
  events : ∀ taken, d.nextEvent taken = c.nextEvent taken

/-- The call `r`, made of the client `c`, is refused, and the client `d` behind it goes on as if the
call had not been made. -/
structure Spares (c : Client) (r : Request) (failure : Failure) (d : Client) : Prop where
  /-- The call returns at once, with the failure. -/
  journal : d.journal = (c.clock, .refused failure) :: (c.spend r).journal
  /-- Nothing else changes, but for the id. -/
  state : d = { c with numbering := ⟨c.numbering.next + r.ids⟩, journal := d.journal }
  wire : ∀ k, d.journal.wire k = c.journal.wire k
  events : ∀ taken, d.nextEvent taken = c.nextEvent taken
  /-- Whatever comes later is the same as if the id alone had been used up. -/
  spent : ∀ actions, Option.Rel (Resumes (c.spend r).journal d.journal)
    ((c.spend r).run? actions) (d.run? actions)
  /-- Whatever comes later is the same as without the call, but for ids. -/
  later : ∀ actions, Option.Rel (Echoes r.ids c.journal d.journal)
    (c.run? actions) (d.run? actions)

theorem Reachable.spares {policy : Policy} (h : Reachable policy c) (held : c.held) (r : Request)
    (failure : Failure) : Spares c r failure ((c.spend r).note (.refused failure)) := by
  have entry : ((c.spend r).note (.refused failure)).journal =
      (c.clock, .refused failure) :: (c.spend r).journal := by
    rw [note, spend_eq]
  have state : (c.spend r).note (.refused failure) =
      { c with
        numbering := ⟨c.numbering.next + r.ids⟩
        journal := ((c.spend r).note (.refused failure)).journal } := by
    rw [note, spend_eq]
  have posted : ((c.spend r).note (.refused failure)).journal.posted = c.journal.posted := by
    rw [entry, Journal.posted_cons, posted_spend]
    exact List.append_nil _
  have parted : Mirrors r.ids c.journal ((c.spend r).note (.refused failure)).journal c
      ((c.spend r).note (.refused failure)) := by
    have mirrors := h.mirrors r.ids ((c.spend r).note (.refused failure)).journal
    rwa [← state] at mirrors
  -- Whoever has only used up the id numbers the next packet the same, so the shift is none.
  have spent : Mirrors 0 (c.spend r).journal ((c.spend r).note (.refused failure)).journal
      (c.spend r) ((c.spend r).note (.refused failure)) := by
    have mirrors := (h.spend held r).mirrors 0 ((c.spend r).note (.refused failure)).journal
    rwa [UInt8.add_zero] at mirrors
  exact {
    journal := entry
    state := state
    wire := fun k => by
      rw [entry, Journal.wire_cons, wire_spend]
      exact List.append_nil _
    events := parted.nextEvent posted
    spent := fun actions => rel_mono (spent.run? actions) fun _ _ m => m.resumes
    later := fun actions => rel_mono (parted.run? actions) fun _ _ m => ⟨m, m.nextEvent posted⟩ }

/-- **A call that is refused leaves no trace.**

Let the application send a packet, or a payload to be numbered, in a state that a client can come
to. The call returns at once that the client is shut down if it has been told to stop, else why the
packet cannot be encoded if it cannot, and else that there is no connection if no verified session
is live. Then nothing has been written and nothing changes but the next id of a call that numbers
its packet, and whatever can happen from there, at once or later, happens as it would have without
the call. Otherwise the session takes the frame, unless its writer has failed. -/
theorem Reachable.refused_call_leaves_no_trace {policy : Policy} {r : Request}
    (h : Reachable policy c) (held : c.held) (sends : c.outgoing r = some packet) :
    ∃ d, c.step? (.request r) = some d ∧
      (∀ failure, c.Refuses packet failure → Spares c r failure d) ∧
      ((∀ failure, ¬c.Refuses packet failure) →
        Takes (c.spend r) packet d) := by
  refine ⟨_, step_of_outgoing held sends, fun failure refuses => ?_, fun unrefused => ?_⟩
  · rw [submit_of_refuses ((refuses_spend r).2 refuses)]
    exact h.spares held r failure
  · exact (h.spend held r).takes fun failure refuses =>
      unrefused failure ((refuses_spend r).1 refuses)

/-- Asks for something of a zone that there cannot be. -/
def misaddressed : Payload := .zoneControl [.ofPower 64 .on]

/-- In the middle of a frame, with others behind it, a call sends what cannot be encoded, and the
writer goes on with the same frame. -/
theorem refused_call_leaves_no_trace_misaddressed :
    ∃ c d x y, (Client.start { failFast := false, queueCapacity := 1 }).run? crowded = some c ∧
      c.step? (.request (.send misaddressed)) = some d ∧
      Spares c (.send misaddressed) (.encode (.outOfRange .zoneNumber 64)) d ∧
      c.run? [.signal (.wrote 6), .signal .flushed] = some x ∧
      d.run? [.signal (.wrote 6), .signal .flushed] = some y ∧ x.decided = [(0, .ok ())] ∧
      Echoes 1 c.journal d.journal x y := by
  have runs : ((Client.start { failFast := false, queueCapacity := 1 }).run? crowded).bind
      (fun c => (c.run? [.signal (.wrote 6), .signal .flushed]).map fun x =>
        (c.held, c.stopping, x.decided)) = some (true, false, [(0, .ok ())]) := by decide +kernel
  obtain ⟨c, run, runs⟩ := Option.bind_eq_some_iff.1 runs
  obtain ⟨x, after, views⟩ := Option.map_eq_some_iff.1 runs
  obtain ⟨held, views⟩ := Prod.mk.inj views
  obtain ⟨on, decided⟩ := Prod.mk.inj views
  obtain ⟨d, happened, refused, -⟩ := (Reachable.start.run? run).refused_call_leaves_no_trace
    (r := .send misaddressed) held rfl
  have encoded : Frame.encode (c.build misaddressed).1 =
      .error (.outOfRange .zoneNumber 64) := rfl
  have spares := refused _ (.encode (ne_true_of_eq_false on) encoded)
  obtain ⟨y, after', echoes⟩ := exists_of_rel (spares.later _) after
  exact ⟨c, d, x, y, run, happened, spares, after, after', decided, echoes⟩

end Client

end ClimateLink
