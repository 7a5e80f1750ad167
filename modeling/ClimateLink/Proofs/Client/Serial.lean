import ClimateLink.Proofs.Client.Ledger

/-!
# Frames go out one after another

Calls hand in frames at any time and in any number, the queue is bounded, the stream takes as few
bytes as it likes, and a session can end at any point of this.

**Theorem (`wire_serial`).** In every run and at every moment of it, what is on the wire of a
connection is the request for the version and then the frames that were accepted on it, in the
order in which they got their places in the queue: some of them whole, and perhaps a part of the
next. What the calls have returned agrees with it. A frame is accepted only on the connection that
is live when its call is made, and on no other later on.

A queue that is asked to serve its callers in turn gives its places in the order of the calls. What
is on the wire is in that order, too, where it does so (`FirstCome`).

What is whole on the wire is read off the ledger of the connection (`Ledger.cut`), and so is what
can have become of the call whose frame has a given place in it (`Ledger.outcome`).
-/

namespace ClimateLink

/-! ## What a ledger says -/

/-- First some calls went well, then the stream failed for one at most, and then the connection was
closed for the rest. -/
def InOrder (outcomes : List Outcome) : Prop :=
  ∃ oks failed closed, outcomes = List.replicate oks (.ok ()) ++
    (Option.toList failed).map (fun reason => .error (.stream reason)) ++
      List.replicate closed (.error .connectionClosed)

namespace Ledger

variable {lineup : List (Nat × Bytes)} {wire : Bytes} {outcomes : List (Nat × Outcome)}
  {sent pending : List Job} {part : Bytes}

/-- What is on the wire is some frames as a whole and a part of the next: the frames that are sent,
and at most one that is written and not yet passed on. -/
theorem cut (ledger : Ledger lineup wire outcomes sent pending part) :
    ∃ whole rest, sent.length ≤ whole ∧ whole ≤ sent.length + 1 ∧
      whole ≤ (sent ++ pending).length ∧
      wire = (((sent ++ pending).map Job.frame).take whole).flatten ++ rest ∧
      (rest = [] ∨ ∃ tail, tail ≠ [] ∧
        ((sent ++ pending).map Job.frame)[whole]? = some (rest ++ tail)) := by
  have start : wire = (((sent ++ pending).map Job.frame).take sent.length).flatten ++ part := by
    rw [ledger.wire_eq, List.map_append, List.take_left' (List.length_map _)]
  cases pending with
  | nil =>
    have nothing : part = [] := List.prefix_nil.1 ledger.begun
    exact ⟨sent.length, part, Nat.le_refl _, Nat.le_succ _, by simp, start, .inl nothing⟩
  | cons job behind =>
    obtain ⟨tail, whole⟩ : part <+: job.frame := ledger.begun
    -- A frame counts as whole once its last byte is out, though it may still be passed on.
    by_cases done : tail = []
    · refine ⟨sent.length + 1, [], Nat.le_succ _, Nat.le_refl _, by simp, ?_, .inl rfl⟩
      rw [done, List.append_nil] at whole
      rw [ledger.wire_eq, whole]
      simp [List.take_append, List.take_of_length_le]
    · refine ⟨sent.length, part, Nat.le_refl _, Nat.le_succ _, by simp, start,
        .inr ⟨tail, done, ?_⟩⟩
      simp [whole]

/-- What became of a call depends on whether its frame is sent, is the first pending one or comes
behind it. -/
theorem outcome (ledger : Ledger lineup wire outcomes sent pending part)
    (once : (lineup.map Prod.fst).Nodup) {i t : Nat} {frame : Bytes}
    (place : lineup[i]? = some (t, frame)) {o : Outcome} (known : (t, o) ∈ outcomes) :
    i + 1 < sent.length ∧ o = .ok () ∨
      sent.length ≤ i + 1 ∧ (o = .error .connectionClosed ∨
        ∃ reason, o = .error (.stream reason) ∧ i + 1 = sent.length) := by
  obtain ⟨id, request, -, all⟩ := ledger.handedIn
  have found : (sent ++ pending)[i + 1]? = some ⟨.call t, frame⟩ := by
    rw [all, jobs, List.getElem?_cons_succ, List.getElem?_map, place]
    rfl
  by_cases early : i + 1 < sent.length
  · rw [List.getElem?_append_left early] at found
    exact .inl ⟨early, ledger.sent_ok _ (List.mem_of_getElem? found) t o rfl known⟩
  · have late := Nat.le_of_not_lt early
    refine .inr ⟨late, ?_⟩
    rw [List.getElem?_append_right late] at found
    refine (ledger.pending_failed _ (List.mem_of_getElem? found) t o rfl known).imp_right ?_
    rintro ⟨reason, failed, first⟩
    refine ⟨reason, failed, ?_⟩
    -- The stream fails for the first pending frame only, and nobody has two frames pending.
    have here : (pending.map Job.sender)[i + 1 - sent.length]? = some (.call t) := by
      rw [List.getElem?_map, found]
      rfl
    have front : (pending.map Job.sender)[0]? = some (.call t) := by
      rw [List.getElem?_map, ← List.head?_eq_getElem?]
      exact first
    have inside : 0 < (pending.map Job.sender).length := (List.getElem?_eq_some_iff.1 front).1
    have apart := ledger.nodup_pending once
    have same := (List.getElem?_inj inside apart).1 (front.trans here.symm)
    omega

/-- What is known of the calls, in the order of their frames, is in order. -/
theorem in_order (ledger : Ledger lineup wire outcomes sent pending part)
    (once : (lineup.map Prod.fst).Nodup) (fate : Nat → Option Outcome)
    (known : ∀ t o, fate t = some o → (t, o) ∈ outcomes) :
    InOrder (lineup.filterMap fun a => fate a.1) := by
  let outcome (job : Job) : Option Outcome := job.sender.ticket?.bind fate
  have settled {job : Job} {o : Outcome} (h : outcome job = some o) :
      ∃ t, job.sender = .call t ∧ (t, o) ∈ outcomes := by
    obtain ⟨t, ticket, h⟩ := Option.bind_eq_some_iff.1 h
    exact ⟨t, Sender.ticket?_eq_some.1 ticket, known t o h⟩
  have split : lineup.filterMap (fun a => fate a.1) =
      sent.filterMap outcome ++ pending.filterMap outcome := by
    obtain ⟨id, request, -, all⟩ := ledger.handedIn
    rw [← List.filterMap_append, all, jobs, List.filterMap_cons_none rfl, List.filterMap_map]
    rfl
  obtain ⟨oks, allSent⟩ : ∃ n, sent.filterMap outcome = List.replicate n (.ok ()) := by
    refine ⟨_, List.eq_replicate_of_mem fun o h => ?_⟩
    obtain ⟨job, listed, h⟩ := List.mem_filterMap.1 h
    obtain ⟨t, sender, h⟩ := settled h
    exact ledger.sent_ok job listed t o sender h
  rw [InOrder, split, allSent]
  -- Of the frames that were not written only the first can have been in hand.
  cases pending with
  | nil => exact ⟨oks, none, 0, by simp⟩
  | cons first behind =>
    have apart := ledger.nodup_pending once
    rw [List.map_cons, List.nodup_cons] at apart
    obtain ⟨closed, allClosed⟩ : ∃ n, behind.filterMap outcome =
        List.replicate n (.error .connectionClosed) := by
      refine ⟨_, List.eq_replicate_of_mem fun o h => ?_⟩
      obtain ⟨job, listed, h⟩ := List.mem_filterMap.1 h
      obtain ⟨t, sender, h⟩ := settled h
      rcases ledger.pending_failed job (List.mem_cons_of_mem _ listed) t o sender h with
        closed | ⟨reason, -, same⟩
      · exact closed
      · refine absurd ?_ apart.1
        rw [Option.some.inj same]
        exact List.mem_map_of_mem listed
    cases own : outcome first with
    | none =>
      refine ⟨oks, none, closed, ?_⟩
      rw [List.filterMap_cons_none own, allClosed]
      simp
    | some o =>
      obtain ⟨t, sender, h⟩ := settled own
      rw [List.filterMap_cons_some own, allClosed]
      rcases ledger.pending_failed first List.mem_cons_self t o sender h with
        rfl | ⟨reason, rfl, -⟩
      · exact ⟨oks, none, closed + 1, by simp [List.replicate_succ]⟩
      · exact ⟨oks, some reason, closed, by simp⟩

end Ledger

namespace Client

/-! ## What is on a wire -/

/-- What the calls of a line-up returned, in its order and without those that have not returned. -/
def results (c : Client) (lineup : List (Nat × Bytes)) : List Outcome :=
  lineup.filterMap fun a => c.journal.returned.lookup a.1

/-- On the connection `k` the `request` and behind it the frames of the line-up go out one after
another; `whole` of them have gone out completely, and `part` of the next. -/
structure Serial (c : Client) (k : Nat) (request : Bytes) (lineup : List (Nat × Bytes))
    (whole : Nat) (part : Bytes) : Prop where
  wire : c.journal.wire k = ((request :: lineup.map Prod.snd).take whole).flatten ++ part
  whole_le : whole ≤ lineup.length + 1
  /-- Of the next frame some bytes are still to come. -/
  proper : part = [] ∨ ∃ rest, rest ≠ [] ∧
    (request :: lineup.map Prod.snd)[whole]? = some (part ++ rest)
  /-- A call returns well only if its frame has gone out. -/
  sent : ∀ i t frame, lineup[i]? = some (t, frame) →
    (t, .ok ()) ∈ c.journal.returned → i + 1 < whole
  /-- A call returns that the stream failed only if its frame was the last to go out. -/
  failed : ∀ i t frame reason, lineup[i]? = some (t, frame) →
    (t, .error (.stream reason)) ∈ c.journal.returned → whole = i + 1 ∨ whole = i + 2
  /-- No frame goes out behind that of a call that returns that the connection is closed. -/
  closed : ∀ i t frame, lineup[i]? = some (t, frame) →
    (t, .error .connectionClosed) ∈ c.journal.returned → whole ≤ i + 2
  in_order : InOrder (c.results lineup)

/-- What the step from `c` to `d` can add to the frames and their calls. -/
structure Adds (c : Client) (a : Action) (d : Client) : Prop where
  /-- A frame is accepted by a call that sends it, on the connection that is live. -/
  accepted : ∀ k, d.journal.accepted k = c.journal.accepted k ∨
    ∃ r packet frame, a = .request r ∧ c.outgoing r = some packet ∧
      Frame.encode packet = .ok frame ∧ c.live = some k ∧
      d.journal.accepted k = c.journal.accepted k ++ [(c.tickets, frame)]
  /-- Bytes go out as the next of the frame in hand. -/
  wire : ∀ k, d.journal.wire k = c.journal.wire k ∨
    ∃ n box job rest, a = .signal (.wrote n) ∧ c.outbox = some box ∧ box.connection = k ∧
      box.inHand = some (job, rest) ∧ d.journal.wire k = c.journal.wire k ++ rest.take n
  /-- The stream fails only for the call whose frame is in hand. -/
  failed : ∀ t reason, (t, .error (.stream reason)) ∈ d.outcomes →
    (t, .error (.stream reason)) ∈ c.outcomes ∨
      a = .signal (.writeFailed reason) ∧ ∃ box frame rest, c.outbox = some box ∧
        box.inHand = some (⟨.call t, frame⟩, rest)

variable {c d : Client}

theorem SameFrames.adds {a : Action} (frames : SameFrames c d) : Adds c a d where
  accepted k := .inl (frames.accepted k)
  wire k := .inl (frames.wire k)
  failed t reason h := by
    rcases frames.mem_outcomes h with h | ⟨-, ok⟩
    · exact .inl h
    · cases ok

theorem adds_deliver {a : Action} (next : Option Outbox) {settled : List (Sender × Outcome)}
    (failed : ∀ t reason, (.call t, .error (.stream reason)) ∈ settled →
      a = .signal (.writeFailed reason) ∧ ∃ box frame rest, c.outbox = some box ∧
        box.inHand = some (⟨.call t, frame⟩, rest)) :
    Adds c a ({ c with outbox := next }.deliver settled) where
  accepted k := .inl (by simp)
  wire k := .inl (by simp)
  failed t reason h := ((mem_outcomes_deliver _ _).1 h).imp_right (failed t reason)

theorem adds_of_handles {a : Action} (h : Handles c a d) : Adds c a d := by
  cases h with
  | nothing frames => exact frames.adds
  | opens =>
    obtain ⟨frame, -, opened⟩ := c.begin_eq
    rw [opened]
    refine ⟨fun k => .inl (by simp), fun k => .inl (by simp), fun t reason h => .inl ?_⟩
    simpa [outcomes] using h
  | joins =>
    rw [disconnect_eq]
    refine ⟨fun k => .inl (by simp), fun k => .inl (by simp), fun t reason h => .inl ?_⟩
    by_cases stopped : c.stage = .stopped <;> simpa [outcomes, stopped] using h
  | moves => exact ⟨fun _ => .inl rfl, fun _ => .inl rfl, fun _ _ => .inl⟩
  | @writes n box after bytes outbox written =>
    obtain ⟨job, rest, inHand, -, -, rfl, rfl⟩ := Outbox.write_eq_some written
    refine ⟨fun k => .inl (by simp [note]), fun k => ?_, fun t reason h => .inl ?_⟩
    · by_cases own : box.connection = k
      · exact .inr ⟨n, box, job, rest, rfl, outbox, own, inHand, by simp [note, own]⟩
      · exact .inl (by simp [note, own])
    · simpa [note, outcomes] using h
  | finishes =>
    refine adds_deliver _ fun t reason h => ?_
    cases List.mem_singleton.1 h
  | @fails reason box after settled outbox failed =>
    obtain ⟨job, rest, inHand, rfl, -⟩ := Outbox.fail_eq_some failed
    refine adds_deliver _ fun t other h => ?_
    rcases Outbox.mem_fail failed h with closed | ⟨stream, first⟩
    · cases closed
    · cases stream
      rw [Outbox.pending_eq_cons inHand] at first
      obtain ⟨sender, frame⟩ := job
      cases Option.some.inj first
      exact ⟨rfl, box, frame, rest, outbox, inHand⟩
  | halts =>
    refine adds_deliver _ fun t reason h => ?_
    cases Outbox.closed_of_mem_abandon h
  | @accepts b r packet k frame box after frames same sends encoded live outbox queued =>
    refine ⟨fun l => ?_, fun l => .inl ?_, fun t reason h => ?_⟩
    · by_cases own : k = l
      · refine .inr ⟨r, packet, frame, rfl, sends, encoded, ?_, ?_⟩
        · rw [← same, live, own]
        · simp [note, own, frames.accepted, frames.tickets]
      · exact .inl (by simp [note, own, frames.accepted])
    · simp [note, frames.wire]
    · refine frames.adds.failed t reason ?_
      simpa [note, outcomes] using h

theorem serial_of_booked {inTurn : Prop} (booked : Booked inTurn c) {k : Nat}
    (hk : k < c.connections) :
    ∃ id request lineup whole part, Frame.encode (versionRequest id) = .ok request ∧
      Lineup inTurn (c.journal.accepted k) lineup ∧ Serial c k request lineup whole part := by
  obtain ⟨lineup, sent, pending, part, order, ledger, -⟩ := booked.kept k hk
  obtain ⟨id, request, encoded, all⟩ := ledger.handedIn
  have once := booked.ticketed.once order
  have frames : (sent ++ pending).map Job.frame = request :: lineup.map Prod.snd := by
    rw [all]
    simp [jobs]
  have count : (sent ++ pending).length = lineup.length + 1 := by
    rw [all]
    simp [jobs]
  obtain ⟨whole, rest, atLeast, atMost, inside, wire, proper⟩ := ledger.cut
  rw [frames] at wire proper
  refine ⟨id, request, lineup, whole, rest, encoded, order, wire, count ▸ inside, proper,
    ?_, ?_, ?_, ?_⟩
  · intro i t frame place returned
    rcases ledger.outcome once place (List.mem_append_right _ returned) with
      ⟨early, -⟩ | ⟨-, closed | ⟨reason, failed, -⟩⟩
    · exact Nat.lt_of_lt_of_le early atLeast
    · cases closed
    · cases failed
  · intro i t frame reason place returned
    rcases ledger.outcome once place (List.mem_append_right _ returned) with
      ⟨-, ok⟩ | ⟨-, closed | ⟨reason, -, last⟩⟩
    · cases ok
    · cases closed
    · omega
  · intro i t frame place returned
    rcases ledger.outcome once place (List.mem_append_right _ returned) with
      ⟨-, ok⟩ | ⟨late, -⟩
    · cases ok
    · omega
  · refine ledger.in_order once (fun t => c.journal.returned.lookup t) fun t o returned => ?_
    refine List.mem_append_right _ ?_
    obtain ⟨before, behind, split, -⟩ := List.lookup_eq_some_iff.1 returned
    rw [split]
    exact List.mem_append_right _ List.mem_cons_self

/-- **Frames go out one after another, whole and at most once**, in every run.

On every connection the request for the version goes out first, and the frames that were accepted
on it follow in the order of their places in the queue, which is that of the calls if those who wait
for a place are served in turn. A connection that is not open yet has none. Every call that hands in
a frame has a ticket of its own, later calls have greater ones, and so a frame goes out on one
connection and once; a call returns once. In every step a frame is accepted only on the live
connection, and a call fails with the stream only if it is its own frame that was in hand. -/
theorem wire_serial {policy : Policy} {actions : List Action} {c : Client}
    (run : (Client.start policy).run? actions = some c) :
    (∀ k < c.connections, ∃ id request lineup whole part,
      Frame.encode (versionRequest id) = .ok request ∧
      lineup.Perm (c.journal.accepted k) ∧
      (FirstCome actions → lineup = c.journal.accepted k) ∧
      Serial c k request lineup whole part) ∧
    (∀ k, c.connections ≤ k → c.journal.accepted k = [] ∧ c.journal.wire k = []) ∧
    (∀ k, ((c.journal.accepted k).map Prod.fst).Pairwise (· < ·)) ∧
    (∀ k l t f g, (t, f) ∈ c.journal.accepted k → (t, g) ∈ c.journal.accepted l → k = l) ∧
    (c.journal.returned.map Prod.fst).Nodup ∧
    ∀ a d, c.step? a = some d → Adds c a d := by
  have reachable : Reachable policy c := Reachable.start.run? run
  have booked : Booked (FirstCome actions) c :=
    booked_of_run? (sound_start policy) (booked_start policy) run id
  refine ⟨fun k hk => ?_, reachable.sound.unused, booked.ticketed.increasing,
    fun k l t f g => booked.ticketed.unique, ?_, fun a d happened => ?_⟩
  · obtain ⟨id, request, lineup, whole, part, encoded, order, serial⟩ := serial_of_booked booked hk
    exact ⟨id, request, lineup, whole, part, encoded, order.perm, order.inTurn, serial⟩
  · refine booked.ticketed.fates_once.sublist (List.Sublist.map _ ?_)
    exact (List.sublist_append_right ..).trans (List.sublist_append_left ..)
  · exact adds_of_handles (handles_of_happens (happens_of_step? happened))

/-- The queue has one place. Three calls hand in frames, of which two wait for it and have it in
turn, and the stream fails in the middle of the second. -/
def brokenWrite : List Action := verification ++
  [.request (.send (.acErrorRequest 0)), .request (.send (.acErrorRequest 1)),
    .request (.send (.acErrorRequest 2)), .move .take, .move (.advance 0), .signal (.wrote 9),
    .signal (.wrote 6), .signal .flushed, .move .take, .move (.advance 0), .signal (.wrote 10),
    .signal (.writeFailed "reset"), .move (.collect 2), .move (.collect 0), .move (.collect 1)]

theorem wire_serial_brokenWrite :
    ∃ c, (Client.start { failFast := false, queueCapacity := 1 }).run? brokenWrite = some c ∧
      FirstCome brokenWrite ∧ (c.journal.wire 0).length = 14 + 15 + 10 ∧
      c.results (c.journal.accepted 0) =
        [.ok (), .error (.stream "reset"), .error .connectionClosed] ∧
      ∃ id request whole part, Frame.encode (versionRequest id) = .ok request ∧
        Serial c 0 request (c.journal.accepted 0) whole part := by
  have run : ((Client.start { failFast := false, queueCapacity := 1 }).run? brokenWrite).map
      (fun c => (c.connections, (c.journal.wire 0).length, c.results (c.journal.accepted 0))) =
        some (1, 39, [.ok (), .error (.stream "reset"), .error .connectionClosed]) := by
    decide +kernel
  obtain ⟨c, hrun, seen⟩ := Option.map_eq_some_iff.1 run
  obtain ⟨connections, wire, results⟩ := Prod.mk.inj seen |>.imp_right Prod.mk.inj
  have opened : 0 < c.connections := connections ▸ Nat.one_pos
  have inTurn : FirstCome brokenWrite := by
    unfold FirstCome
    decide
  obtain ⟨id, request, lineup, whole, part, encoded, -, order, serial⟩ :=
    (wire_serial hrun).1 0 opened
  rw [order inTurn] at serial
  exact ⟨c, hrun, inTurn, wire, results, id, request, whole, part, encoded, serial⟩

/-- A call that has its place before one that was made earlier returns before it. -/
example :
    ((Client.start { failFast := false, queueCapacity := 1 }).run? (verification ++
      [.request (.send (.acErrorRequest 0)), .request (.send (.acErrorRequest 1)),
        .request (.send (.acErrorRequest 2)), .move .take, .move (.advance 1),
        .signal (.wrote 15), .signal .flushed, .move .take, .signal (.wrote 15),
        .signal .flushed, .move (.collect 0), .move (.collect 2)])).map
      (fun c => ((c.journal.wire 0).length, c.journal.returned)) =
        some (14 + 15 + 15, [(0, .ok ()), (2, .ok ())]) := by
  decide +kernel

end Client

end ClimateLink
