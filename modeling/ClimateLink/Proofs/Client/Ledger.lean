import ClimateLink.Proofs.Client.Sound
import ClimateLink.Proofs.Client.Tickets

/-!
# The ledger of a connection

For every connection that a client ever had, the frames handed in for it have a line-up: first those
that got a place in the queue, in the order in which they got it, then those that still wait. The
line-up falls into the frames that are sent and those that are not, and of the first of these a part
may have been written. This is the invariant behind the order of frames: what is on the wire, what
became of the calls and what the outbox still holds all follow from this one cut.

- `Lineup`: the frames of a connection in some order, which is that of the calls if nobody who waits
  is passed over.
- `Ledger`: the cut, and what it says about the wire and the calls.
- `Kept`: a connection has a ledger, which agrees with its outbox while its writer is at work.
- `Ledger.write`, `Ledger.finish`, `Ledger.settle`, `Ledger.accept`: what moves the cut.
- `Ledger.overtake`: what changes the line-up.

**Theorem (`booked_of_run?`).** Whatever happens, every connection keeps its ledger, and if those
who wait get their places in the order in which they came, it keeps the line-up of the calls.
-/

namespace ClimateLink

/-- What is handed in for a connection: the request for the version, then the frames of calls. -/
def jobs (request : Bytes) (lineup : List (Nat × Bytes)) : List Job :=
  ⟨.client, request⟩ :: lineup.map fun a => ⟨.call a.1, a.2⟩

/-- The frames that are accepted, in an order which is that of the calls if they are served
`inTurn`. -/
structure Lineup (inTurn : Prop) (accepted lineup : List (Nat × Bytes)) : Prop where
  perm : lineup.Perm accepted
  inTurn : inTurn → lineup = accepted

/-- What has been handed in for a connection is cut into frames that are sent and frames that are
pending, with `part` of the first of these written. -/
structure Ledger (lineup : List (Nat × Bytes)) (wire : Bytes) (outcomes : List (Nat × Outcome))
    (sent pending : List Job) (part : Bytes) : Prop where
  handedIn : ∃ id request, Frame.encode (Client.versionRequest id) = .ok request ∧
    sent ++ pending = jobs request lineup
  wire_eq : wire = (sent.map Job.frame).flatten ++ part
  begun : part <+: (pending.head?.map Job.frame).getD []
  sent_ok : ∀ job ∈ sent, ∀ t o, job.sender = .call t → (t, o) ∈ outcomes → o = .ok ()
  pending_failed : ∀ job ∈ pending, ∀ t o, job.sender = .call t → (t, o) ∈ outcomes →
    o = .error .connectionClosed ∨
      ∃ reason, o = .error (.stream reason) ∧ pending.head?.map Job.sender = some job.sender

namespace Ledger

variable {lineup : List (Nat × Bytes)} {wire : Bytes} {outcomes known : List (Nat × Outcome)}
  {sent pending : List Job} {part : Bytes}

/-! ## The frames of a ledger -/

theorem mem_lineup (ledger : Ledger lineup wire outcomes sent pending part) {job : Job}
    (listed : job ∈ sent ++ pending) {t : Nat} (sender : job.sender = .call t) :
    (t, job.frame) ∈ lineup := by
  obtain ⟨id, request, -, all⟩ := ledger.handedIn
  rw [all, jobs, List.mem_cons] at listed
  rcases listed with rfl | listed
  · cases sender
  · obtain ⟨⟨s, f⟩, mem, rfl⟩ := List.mem_map.1 listed
    cases sender
    exact mem

/-- Where tickets tell calls apart, those who handed in the frames are all different. -/
theorem nodup (ledger : Ledger lineup wire outcomes sent pending part)
    (once : (lineup.map Prod.fst).Nodup) :
    ((sent ++ pending).map Job.sender).Nodup := by
  obtain ⟨id, request, -, all⟩ := ledger.handedIn
  have senders : (jobs request lineup).map Job.sender =
      .client :: (lineup.map Prod.fst).map .call := by
    simp [jobs]
  rw [all, senders, List.nodup_cons]
  refine ⟨by simp, once.map fun a b h => ?_⟩
  cases h
  rfl

theorem nodup_pending (ledger : Ledger lineup wire outcomes sent pending part)
    (once : (lineup.map Prod.fst).Nodup) :
    (pending.map Job.sender).Nodup := by
  have senders := ledger.nodup once
  rw [List.map_append] at senders
  exact senders.of_append_right

theorem not_pending (ledger : Ledger lineup wire outcomes sent pending part)
    (once : (lineup.map Prod.fst).Nodup) {job : Job} (listed : job ∈ sent) :
    job.sender ∉ pending.map Job.sender := by
  have senders := ledger.nodup once
  rw [List.map_append, List.nodup_append] at senders
  exact fun h => senders.2.2 _ (List.mem_map_of_mem listed) _ h rfl

/-! ## Changes of a ledger -/

theorem of_known (ledger : Ledger lineup wire outcomes sent pending part)
    (same : ∀ t f o, (t, f) ∈ lineup → (t, o) ∈ known → (t, o) ∈ outcomes) :
    Ledger lineup wire known sent pending part where
  handedIn := ledger.handedIn
  wire_eq := ledger.wire_eq
  begun := ledger.begun
  sent_ok job listed t o sender h :=
    have mem := ledger.mem_lineup (List.mem_append_left _ listed) sender
    ledger.sent_ok job listed t o sender (same t _ o mem h)
  pending_failed job listed t o sender h :=
    have mem := ledger.mem_lineup (List.mem_append_right _ listed) sender
    ledger.pending_failed job listed t o sender (same t _ o mem h)

theorem write (ledger : Ledger lineup wire outcomes sent pending part) {bytes : Bytes}
    (begun : part ++ bytes <+: (pending.head?.map Job.frame).getD []) :
    Ledger lineup (wire ++ bytes) outcomes sent pending (part ++ bytes) :=
  { ledger with
    wire_eq := by rw [ledger.wire_eq, List.append_assoc]
    begun := begun }

theorem finish {job : Job} (ledger : Ledger lineup wire outcomes sent (job :: pending) job.frame)
    (once : (lineup.map Prod.fst).Nodup)
    (undecided : ∀ other ∈ job :: pending, ∀ t o, other.sender = .call t → (t, o) ∉ outcomes)
    (settled : ∀ t o, (t, o) ∈ known → (t, o) ∈ outcomes ∨ job.sender = .call t ∧ o = .ok ()) :
    Ledger lineup wire known (sent ++ [job]) pending [] ∧
      ∀ other ∈ pending, ∀ t o, other.sender = .call t → (t, o) ∉ known := by
  have apart := ledger.nodup_pending once
  rw [List.map_cons, List.nodup_cons] at apart
  have waiting : ∀ other ∈ pending, ∀ t o, other.sender = .call t → (t, o) ∉ known := by
    intro other listed t o sender h
    rcases settled t o h with h | ⟨same, -⟩
    · exact undecided other (List.mem_cons_of_mem _ listed) t o sender h
    · refine apart.1 ?_
      rw [same, ← sender]
      exact List.mem_map_of_mem listed
  refine ⟨⟨?_, ?_, List.nil_prefix, ?_, ?_⟩, waiting⟩
  · rw [List.append_assoc]
    exact ledger.handedIn
  · rw [ledger.wire_eq]
    simp
  · intro other listed t o sender h
    rcases settled t o h with h | ⟨-, ok⟩
    · rcases List.mem_append.1 listed with listed | last
      · exact ledger.sent_ok other listed t o sender h
      · rw [List.mem_singleton.1 last] at sender
        exact absurd h (undecided job List.mem_cons_self t o sender)
    · exact ok
  · intro other listed t o sender h
    exact absurd h (waiting other listed t o sender)

/-- The writer ends, and what is known now of the pending frames is that they failed. -/
theorem settle (ledger : Ledger lineup wire outcomes sent pending part)
    (once : (lineup.map Prod.fst).Nodup)
    (settled : ∀ t o, (t, o) ∈ known → (t, o) ∈ outcomes ∨
      .call t ∈ pending.map Job.sender ∧ (o = .error .connectionClosed ∨
        ∃ reason, o = .error (.stream reason) ∧ pending.head?.map Job.sender = some (.call t))) :
    Ledger lineup wire known sent pending part := by
  refine ⟨ledger.handedIn, ledger.wire_eq, ledger.begun, ?_, ?_⟩
  · intro job listed t o sender h
    rcases settled t o h with h | ⟨unsent, -⟩
    · exact ledger.sent_ok job listed t o sender h
    · rw [← sender] at unsent
      exact absurd unsent (ledger.not_pending once listed)
  · intro job listed t o sender h
    rcases settled t o h with h | ⟨-, failed⟩
    · exact ledger.pending_failed job listed t o sender h
    · rw [sender]
      exact failed

theorem accept (ledger : Ledger lineup wire outcomes sent pending part) {t : Nat} {frame : Bytes}
    (fresh : ∀ o, (t, o) ∉ outcomes) :
    Ledger (lineup ++ [(t, frame)]) wire outcomes sent (pending ++ [⟨.call t, frame⟩]) part := by
  obtain ⟨id, request, encoded, all⟩ := ledger.handedIn
  refine ⟨⟨id, request, encoded, ?_⟩, ledger.wire_eq, ?_, ledger.sent_ok, ?_⟩
  · rw [← List.append_assoc, all]
    simp [jobs]
  · cases pending with
    | nil =>
      rw [List.prefix_nil.1 ledger.begun]
      exact List.nil_prefix
    | cons first rest => exact ledger.begun
  · intro job listed s o sender h
    rcases List.mem_append.1 listed with listed | last
    · refine (ledger.pending_failed job listed s o sender h).imp_right ?_
      rintro ⟨reason, failed, first⟩
      refine ⟨reason, failed, ?_⟩
      cases pending with
      | nil => cases listed
      | cons first rest => exact first
    · rw [List.mem_singleton.1 last] at sender
      cases sender
      exact absurd h (fresh o)

/-- Where the writer has not come to those who wait, one of them can come before the others. -/
theorem overtake {front before behind : List Job} {job : Job}
    (ledger : Ledger lineup wire outcomes sent (front ++ (before ++ job :: behind)) part)
    (calls : ∀ other ∈ before ++ job :: behind, other.sender ≠ .client)
    (begun : part <+: ((front ++ job :: (before ++ behind)).head?.map Job.frame).getD [])
    (undecided : ∀ other ∈ front ++ (before ++ job :: behind), ∀ t o, other.sender = .call t →
      (t, o) ∉ outcomes) :
    ∃ next, next.Perm lineup ∧ (before = [] → next = lineup) ∧
      Ledger next wire outcomes sent (front ++ job :: (before ++ behind)) part := by
  obtain ⟨id, request, encoded, all⟩ := ledger.handedIn
  rw [jobs, ← List.append_assoc] at all
  have moved {other : Job} (listed : other ∈ front ++ job :: (before ++ behind)) :
      other ∈ front ++ (before ++ job :: behind) :=
    (List.perm_middle.symm.append_left front).mem_iff.1 listed
  cases split : sent ++ front with
  | nil =>
    -- The request for the version comes first and does not wait.
    rw [split, List.nil_append] at all
    exact absurd rfl (calls ⟨.client, request⟩ (all ▸ List.mem_cons_self))
  | cons first others =>
    rw [split, List.cons_append] at all
    obtain ⟨rfl, rest⟩ := List.cons.inj all
    obtain ⟨early, late, rfl, ahead, rest⟩ := List.map_eq_append_iff.1 rest.symm
    obtain ⟨passed, late, rfl, waiting, rest⟩ := List.map_eq_append_iff.1 rest
    obtain ⟨served, last, rfl, this, others⟩ := List.map_eq_cons_iff.1 rest
    refine ⟨early ++ served :: (passed ++ last), List.perm_middle.symm.append_left early, ?_, ?_⟩
    · rintro rfl
      rw [List.map_eq_nil_iff.1 waiting]
      rfl
    refine ⟨⟨id, request, encoded, ?_⟩, ledger.wire_eq, begun, ledger.sent_ok, ?_⟩
    · rw [← List.append_assoc, split, jobs, List.map_append, List.map_cons, List.map_append, ahead,
        waiting, this, others]
      rfl
    · intro other listed t o sender h
      exact absurd h (undecided other (moved listed) t o sender)

end Ledger

namespace Client

/-! ## The ledgers of a client -/

/-- The connection `k` has a ledger, which agrees with its outbox while its writer is at work. -/
def Kept (inTurn : Prop) (c : Client) (k : Nat) : Prop :=
  ∃ lineup sent pending part, Lineup inTurn (c.journal.accepted k) lineup ∧
    Ledger lineup (c.journal.wire k) c.outcomes sent pending part ∧
    ∀ box, c.outbox = some box → box.connection = k → box.failure = none →
      pending = box.pending ∧ box.Holds part ∧ (∀ job ∈ box.waiting, job.sender ≠ .client) ∧
        ∀ job ∈ pending, ∀ t o, job.sender = .call t → (t, o) ∉ c.outcomes

/-- Tickets tell calls apart, and every connection so far has a ledger. -/
structure Booked (inTurn : Prop) (c : Client) : Prop where
  ticketed : Ticketed c
  kept : ∀ k < c.connections, Kept inTurn c k

variable {inTurn : Prop} {c d : Client} {k : Nat}

theorem Ticketed.once (ticketed : Ticketed c) {lineup : List (Nat × Bytes)}
    (listed : Lineup inTurn (c.journal.accepted k) lineup) : (lineup.map Prod.fst).Nodup :=
  (listed.perm.map Prod.fst).nodup_iff.2 ((ticketed.increasing k).imp Nat.ne_of_lt)

theorem Kept.of_eq (kept : Kept inTurn c k)
    (outbox : ∀ box, d.outbox = some box → box.connection = k → box.failure = none →
      c.outbox = some box)
    (accepted : d.journal.accepted k = c.journal.accepted k)
    (wire : d.journal.wire k = c.journal.wire k)
    (known : ∀ t f o, (t, f) ∈ c.journal.accepted k → (t, o) ∈ d.outcomes →
      (t, o) ∈ c.outcomes) : Kept inTurn d k := by
  obtain ⟨lineup, sent, pending, part, order, ledger, atWork⟩ := kept
  have mine {t : Nat} {f : Bytes} (listed : (t, f) ∈ lineup) : (t, f) ∈ c.journal.accepted k :=
    order.perm.mem_iff.1 listed
  refine ⟨lineup, sent, pending, part, accepted ▸ order, ?_, fun box hbox connection working => ?_⟩
  · rw [wire]
    exact ledger.of_known fun t f o listed => known t f o (mine listed)
  · obtain ⟨same, holds, waiting, undecided⟩ :=
      atWork box (outbox box hbox connection working) connection working
    refine ⟨same, holds, waiting, fun job listed t o sender h => ?_⟩
    have mem := mine (ledger.mem_lineup (List.mem_append_right _ listed) sender)
    exact undecided job listed t o sender (known t _ o mem h)

theorem Booked.sameFrames (booked : Booked inTurn c) (frames : SameFrames c d) :
    Booked inTurn d where
  ticketed := booked.ticketed.sameFrames frames
  kept k hk := by
    refine (booked.kept k (frames.connections ▸ hk)).of_eq ?_ (frames.accepted k) (frames.wire k) ?_
    · intro box hbox _ _
      rcases frames.outbox with gone | same
      · rw [gone] at hbox
        cases hbox
      · exact same ▸ hbox
    · intro t f o accepted known
      rcases frames.mem_outcomes known with known | ⟨left, -⟩
      · exact known
      · exact absurd accepted (booked.ticketed.leavers_apart left)

/-- What is done with the outbox of one connection keeps the ledgers of the others. -/
theorem Booked.elsewhere (booked : Booked inTurn c) {l : Nat} (hk : k < c.connections)
    (other : k ≠ l) (outbox : ∀ box, d.outbox = some box → box.connection = l)
    (accepted : d.journal.accepted k = c.journal.accepted k)
    (wire : d.journal.wire k = c.journal.wire k)
    (known : ∀ t o, (t, o) ∈ d.outcomes →
      (t, o) ∈ c.outcomes ∨ ∃ f, (t, f) ∈ c.journal.accepted l) : Kept inTurn d k := by
  refine (booked.kept k hk).of_eq ?_ accepted wire ?_
  · intro box hbox connection
    exact absurd (connection.symm.trans (outbox box hbox)) other
  · intro t f o mine h
    rcases known t o h with h | ⟨g, theirs⟩
    · exact h
    · exact absurd (booked.ticketed.unique mine theirs) other

/-- Another outbox of one connection changes nothing for the others. -/
theorem Booked.replaces (booked : Booked inTurn c) {box next : Outbox}
    (replaced : Replaces c d box next) (hk : k < c.connections) (other : k ≠ box.connection)
    (known : ∀ t o, (t, o) ∈ d.outcomes → (t, o) ∈ c.outcomes) : Kept inTurn d k := by
  obtain ⟨accepted, wire⟩ := replaced.elsewhere k other
  refine booked.elsewhere hk other (fun after hafter => ?_) accepted wire fun t o h =>
    .inl (known t o h)
  cases replaced.after.symm.trans hafter
  exact replaced.connection

theorem Booked.own (booked : Booked inTurn c) (sound : Sound c) {box : Outbox}
    (outbox : c.outbox = some box) (working : box.failure = none) :
    ∃ lineup sent part, Lineup inTurn (c.journal.accepted box.connection) lineup ∧
      Ledger lineup (c.journal.wire box.connection) c.outcomes sent box.pending part ∧
      box.Holds part ∧ (∀ job ∈ box.waiting, job.sender ≠ .client) ∧
      ∀ job ∈ box.pending, ∀ t o, job.sender = .call t → (t, o) ∉ c.outcomes := by
  obtain ⟨lineup, sent, pending, part, order, ledger, atWork⟩ :=
    booked.kept _ (sound.opened box outbox)
  obtain ⟨rfl, holds, waiting, undecided⟩ := atWork box outbox rfl working
  exact ⟨lineup, sent, part, order, ledger, holds, waiting, undecided⟩

/-- A call whose frame is pending has had it accepted and is undecided. -/
theorem Booked.fresh (booked : Booked inTurn c) (sound : Sound c) {box : Outbox}
    (outbox : c.outbox = some box) (working : box.failure = none) {t : Nat}
    (listed : .call t ∈ box.pending.map Job.sender) :
    (∃ f, (t, f) ∈ c.journal.accepted box.connection) ∧ ∀ o, (t, o) ∉ c.outcomes := by
  obtain ⟨lineup, sent, part, order, ledger, -, -, undecided⟩ := booked.own sound outbox working
  obtain ⟨job, listed, sender⟩ := List.mem_map.1 listed
  have mine := ledger.mem_lineup (List.mem_append_right _ listed) sender
  exact ⟨⟨_, order.perm.mem_iff.1 mine⟩, fun o => undecided job listed t o sender⟩

/-! ## What is done with an outbox -/

/-- What changes nothing but the outbox of a connection keeps the ledgers of the others. -/
theorem Booked.move (booked : Booked inTurn c) {box next : Outbox}
    (connection : next.connection = box.connection)
    (own : Kept inTurn { c with outbox := some next } box.connection) :
    Booked inTurn { c with outbox := some next } := by
  refine ⟨booked.ticketed.of_same rfl (fun _ => rfl) (.refl _) (List.Subset.refl _), fun k hk => ?_⟩
  by_cases same : k = box.connection
  · exact same ▸ own
  · refine booked.elsewhere hk same (fun after hafter => ?_) rfl rfl fun t o => .inl
    cases hafter
    exact connection

theorem booked_take {box next : Outbox} (sound : Sound c) (booked : Booked inTurn c)
    (outbox : c.outbox = some box) (taken : box.take = some next) :
    Booked inTurn { c with outbox := some next } := by
  have pending := Outbox.pending_take taken
  obtain ⟨working, -, job, rest, -, rfl⟩ := Outbox.take_eq_some taken
  obtain ⟨lineup, sent, part, order, ledger, holds, waiting, undecided⟩ :=
    booked.own sound outbox working
  refine booked.move rfl ⟨lineup, sent, box.pending, part, order, ledger, ?_⟩
  rintro after ⟨⟩ - -
  exact ⟨pending.symm, Outbox.holds_take taken holds, waiting, undecided⟩

/-- Whoever gets a place may pass over others who wait, but over nobody who has a place. -/
theorem booked_advance {i : Nat} {box next : Outbox} (sound : Sound c) (booked : Booked inTurn c)
    (outbox : c.outbox = some box) (advanced : box.advance i = some next)
    (turn : inTurn → i = 0) : Booked inTurn { c with outbox := some next } := by
  have same := Outbox.pending_advance advanced
  obtain ⟨job, before, behind, line, rfl, -, rfl⟩ := Outbox.advance_eq_some advanced
  obtain ⟨lineup, sent, pending, part, order, ledger, atWork⟩ :=
    booked.kept _ (sound.opened box outbox)
  by_cases working : box.failure = none
  · obtain ⟨rfl, holds, waiting, undecided⟩ := atWork box outbox rfl working
    have split : box.pending =
        (box.inHand.map Prod.fst).toList ++ box.queue ++ (before ++ job :: behind) := by
      rw [Outbox.pending, line, List.append_assoc]
    -- Of a frame behind the one in hand nothing is written yet.
    have begun : part <+: (((box.inHand.map Prod.fst).toList ++ box.queue ++
        job :: (before ++ behind)).head?.map Job.frame).getD [] := by
      cases hand : box.inHand with
      | none =>
        rw [Outbox.Holds, hand] at holds
        rw [holds]
        exact List.nil_prefix
      | some hand =>
        have front := ledger.begun
        rw [split, hand] at front
        exact front
    rw [split] at ledger undecided
    obtain ⟨next, perm, kept, ledger⟩ := ledger.overtake (line ▸ waiting) begun undecided
    have order : Lineup inTurn (c.journal.accepted box.connection) next :=
      ⟨perm.trans order.perm, fun asked =>
        (kept (List.eq_nil_of_length_eq_zero (turn asked))).trans (order.inTurn asked)⟩
    refine booked.move rfl ⟨next, sent, _, part, order, ledger, ?_⟩
    rintro after ⟨⟩ - -
    refine ⟨?_, Outbox.holds_advance advanced holds, fun other listed => waiting other ?_,
      fun other listed => ?_⟩
    · rw [Outbox.pending, List.append_assoc, List.append_assoc]
      rfl
    · rw [line]
      exact List.perm_middle.mem_iff.2 (List.mem_cons_of_mem job listed)
    · refine undecided other ?_
      rw [List.append_assoc] at listed ⊢
      exact ((List.perm_middle.symm.append_left _).append_left _).mem_iff.1 listed
  · refine booked.move rfl ⟨lineup, sent, pending, part, order, ledger, ?_⟩
    rintro after ⟨⟩ - failed
    exact absurd failed working

theorem booked_write {n : Nat} {box next : Outbox} {bytes : Bytes} (sound : Sound c)
    (booked : Booked inTurn c) (outbox : c.outbox = some box)
    (written : box.write n = some (next, bytes)) :
    Booked inTurn ({ c with outbox := some next }.note (.wrote next.connection bytes)) := by
  have replaced := replaces_write outbox sound written
  obtain ⟨job, rest, inHand, -⟩ := Outbox.write_eq_some written
  obtain ⟨lineup, sent, part, order, ledger, holds, waiting, undecided⟩ :=
    booked.own sound outbox (sound.working outbox inHand)
  have line : next.waiting = box.waiting := by
    obtain ⟨job, rest, -, -, -, -, rfl⟩ := Outbox.write_eq_some written
    rfl
  have pending := Outbox.pending_write written
  obtain ⟨holds, begun⟩ := Outbox.holds_write written holds
  refine ⟨booked.ticketed.of_same rfl ?_ ?_ (List.Subset.refl _), fun k hk => ?_⟩
  · simp [note]
  · simp [fates, outcomes, note]
  by_cases own : k = box.connection
  · subst own
    refine ⟨lineup, sent, box.pending, part ++ bytes, ?_, ?_, fun after hafter _ _ => ?_⟩
    · simpa [note] using order
    · simpa [note, outcomes, replaced.connection] using ledger.write begun
    · cases hafter
      refine ⟨pending.symm, holds, line ▸ waiting, fun job listed t o sender => ?_⟩
      simpa [note, outcomes] using undecided job listed t o sender
  · exact booked.replaces replaced hk own fun t o h => by simpa [note, outcomes] using h

/-- What becomes of pending frames of one connection concerns no other. -/
theorem Booked.deliver (booked : Booked inTurn c) (sound : Sound c) {box : Outbox}
    (outbox : c.outbox = some box) (working : box.failure = none) {next : Option Outbox}
    (mine : ∀ after, next = some after → after.connection = box.connection)
    {settled : List (Sender × Outcome)} (once : (settled.map Prod.fst).Nodup)
    (pending : settled.map Prod.fst ⊆ box.pending.map Job.sender)
    (own : Kept inTurn ({ c with outbox := next }.deliver settled) box.connection) :
    Booked inTurn ({ c with outbox := next }.deliver settled) := by
  have fresh {t : Nat} {o : Outcome} (h : (.call t, o) ∈ settled) :=
    booked.fresh (t := t) sound outbox working (pending (List.mem_map_of_mem h))
  refine ⟨?_, fun k hk => ?_⟩
  · refine ticketed_deliver booked.ticketed next once fun t o h => ?_
    exact ⟨⟨_, (fresh h).1⟩, (fresh h).2⟩
  · rw [connections_deliver] at hk
    by_cases same : k = box.connection
    · exact same ▸ own
    · refine booked.elsewhere hk same (fun after hafter => ?_) (by simp) (by simp) fun t o h => ?_
      · rw [outbox_deliver] at hafter
        exact mine after hafter
      · exact ((mem_outcomes_deliver next settled).1 h).imp_right fun new => (fresh new).1

theorem booked_flush {box next : Outbox} {sender : Sender} (sound : Sound c)
    (booked : Booked inTurn c) (outbox : c.outbox = some box)
    (done : box.flush = some (next, sender)) :
    Booked inTurn ({ c with outbox := some next }.deliver [(sender, .ok ())]) := by
  obtain ⟨job, inHand, rfl, rfl⟩ := Outbox.flush_eq_some done
  have working := sound.working outbox inHand
  have first := Outbox.pending_eq_cons inHand
  obtain ⟨lineup, sent, part, order, ledger, holds, waiting, undecided⟩ :=
    booked.own sound outbox working
  have whole : part = job.frame := by
    simpa [Outbox.Holds, inHand] using holds
  rw [first, whole] at ledger
  rw [first] at undecided
  refine booked.deliver sound outbox working (fun after h => ?_) (List.nodup_singleton _) ?_ ?_
  · cases h
    rfl
  · simp [first]
  · have settled (t : Nat) (o : Outcome) (h : (t, o) ∈ ({ c with
        outbox := some { box with inHand := none } }.deliver [(job.sender, .ok ())]).outcomes) :
        (t, o) ∈ c.outcomes ∨ job.sender = .call t ∧ o = .ok () := by
      refine ((mem_outcomes_deliver _ _).1 h).imp_right fun new => ?_
      have same := Prod.mk.inj (List.mem_singleton.1 new)
      exact ⟨same.1.symm, same.2⟩
    obtain ⟨ledger, others⟩ := ledger.finish (booked.ticketed.once order) undecided settled
    refine ⟨lineup, sent ++ [job], box.queue ++ box.waiting, [], by simpa using order,
      by simpa using ledger, ?_⟩
    intro after hafter _ _
    rw [outbox_deliver] at hafter
    cases hafter
    exact ⟨rfl, rfl, waiting, others⟩

/-- A writer that ends, by a failure or because it is stopped, fails what is pending. -/
theorem booked_settle {box : Outbox} (sound : Sound c) (booked : Booked inTurn c)
    (outbox : c.outbox = some box) (working : box.failure = none) {next : Option Outbox}
    (ended : ∀ after, next = some after →
      after.connection = box.connection ∧ after.failure ≠ none)
    {settled : List (Sender × Outcome)}
    (senders : (settled.map Prod.fst).Perm (box.pending.map Job.sender))
    (each : ∀ s o, (s, o) ∈ settled → o = .error .connectionClosed ∨
      ∃ reason, o = .error (.stream reason) ∧ box.pending.head?.map Job.sender = some s) :
    Booked inTurn ({ c with outbox := next }.deliver settled) := by
  obtain ⟨lineup, sent, part, order, ledger, -, -, -⟩ := booked.own sound outbox working
  have once := ledger.nodup_pending (booked.ticketed.once order)
  refine booked.deliver sound outbox working (fun after h => (ended after h).1)
    (senders.nodup_iff.2 once) senders.subset ?_
  refine ⟨lineup, sent, box.pending, part, ?_, ?_, fun after hafter _ failed => ?_⟩
  · rwa [journal_deliver]
  · rw [journal_deliver]
    refine ledger.settle (booked.ticketed.once order) fun t o h => ?_
    refine ((mem_outcomes_deliver _ _).1 h).imp_right fun new => ⟨?_, each _ o new⟩
    exact senders.subset (List.mem_map_of_mem new)
  · rw [outbox_deliver] at hafter
    exact absurd failed (ended after hafter).2

theorem booked_accept {frame : Bytes} {box next : Outbox} (sound : Sound c)
    (booked : Booked inTurn c) (live : c.live = some k) (outbox : c.outbox = some box)
    (queued : box.submit ⟨.call c.tickets, frame⟩ = some next) :
    Booked inTurn ({ c with outbox := some next, tickets := c.tickets + 1 }.note
      (.accepted c.tickets k frame)) := by
  obtain ⟨rfl, replaced⟩ := replaces_accept sound live outbox queued
  obtain ⟨working, -⟩ := Outbox.submit_eq_some queued
  obtain ⟨lineup, sent, part, order, ledger, holds, waiting, undecided⟩ :=
    booked.own sound outbox working
  have fresh (o : Outcome) : (c.tickets, o) ∉ c.outcomes := fun h =>
    absurd (booked.ticketed.fates_lt (mem_fates.2 (.inl h))) (Nat.lt_irrefl _)
  -- The frame goes behind everything that is pending, and its call has a ticket nobody had before.
  refine ⟨ticketed_accept booked.ticketed next _ frame, fun k hk => ?_⟩
  by_cases own : k = box.connection
  · subst own
    have last : Lineup inTurn (c.journal.accepted box.connection ++ [(c.tickets, frame)])
        (lineup ++ [(c.tickets, frame)]) :=
      ⟨order.perm.append_right _, fun asked => congrArg (· ++ _) (order.inTurn asked)⟩
    refine ⟨_, sent, next.pending, part, by simpa [note] using last, ?_, fun after hafter _ _ => ?_⟩
    · rw [Outbox.pending_submit queued]
      simpa [note, outcomes] using ledger.accept fresh
    · cases hafter
      refine ⟨rfl, Outbox.holds_submit queued holds, fun job listed => ?_,
        fun job listed t o sender h => ?_⟩
      · obtain ⟨-, ⟨line, rfl⟩ | rfl⟩ := Outbox.submit_eq_some queued
        · exact waiting job listed
        · rcases List.mem_append.1 listed with listed | mine
          · exact waiting job listed
          · rw [List.mem_singleton.1 mine]
            exact Sender.noConfusion
      have h : (t, o) ∈ c.outcomes := by simpa [note, outcomes] using h
      rw [Outbox.pending_submit queued] at listed
      rcases List.mem_append.1 listed with listed | last
      · exact undecided job listed t o sender h
      · rw [List.mem_singleton.1 last] at sender
        cases sender
        exact fresh o h
  · exact booked.replaces replaced hk own fun t o h => by simpa [note, outcomes] using h

theorem booked_begin (sound : Sound c) (booked : Booked inTurn c) : Booked inTurn c.begin := by
  refine ⟨ticketed_begin booked.ticketed, fun k hk => ?_⟩
  obtain ⟨frame, encoded, opened⟩ := c.begin_eq
  rw [opened] at hk ⊢
  by_cases new : k = c.connections
  · subst new
    obtain ⟨accepted, wire⟩ := sound.unused _ (Nat.le_refl _)
    refine ⟨[], [], [⟨.client, frame⟩], [], ?_,
      ⟨⟨_, frame, encoded, rfl⟩, ?_, List.nil_prefix, ?_, ?_⟩, ?_⟩
    · simpa [accepted] using ⟨List.Perm.refl [], fun _ => rfl⟩
    · simp [wire]
    · intro job listed
      cases listed
    · intro job listed t o sender
      rw [List.mem_singleton.1 listed] at sender
      cases sender
    · intro box hbox _ _
      cases hbox
      refine ⟨rfl, rfl, List.forall_mem_nil _, fun job listed t o sender => ?_⟩
      rw [List.mem_singleton.1 listed] at sender
      cases sender
  · have old : k < c.connections := Nat.lt_of_le_of_ne (Nat.le_of_lt_succ hk) new
    refine booked.elsewhere old new (fun box hbox => ?_) (by simp) (by simp) fun t o h => .inl ?_
    · cases hbox
      rfl
    · simpa [outcomes] using h

theorem booked_disconnect (booked : Booked inTurn c) : Booked inTurn c.disconnect := by
  refine ⟨ticketed_disconnect booked.ticketed, fun k hk => ?_⟩
  rw [disconnect_eq] at hk ⊢
  refine (booked.kept k hk).of_eq (fun box hbox _ _ => hbox) (by simp) (by simp) ?_
  intro t f o accepted h
  have older : t ≠ c.tickets := Nat.ne_of_lt (booked.ticketed.accepted_lt accepted)
  by_cases stopped : c.stage = .stopped
  · simpa [outcomes, stopped, older] using h
  · simpa [outcomes, stopped] using h

/-! ## Every step -/

theorem booked_of_handles {a : Action} (sound : Sound c) (booked : Booked inTurn c)
    (h : Handles c a d) (turn : inTurn → a.firstCome) : Booked inTurn d := by
  cases h with
  | nothing frames => exact booked.sameFrames frames
  | opens stage => exact booked_begin sound booked
  | joins => exact booked_disconnect booked
  | moves outbox moved =>
    rcases moved with taken | ⟨i, rfl, advanced⟩
    · exact booked_take sound booked outbox taken
    · refine booked_advance sound booked outbox advanced fun asked => ?_
      exact of_decide_eq_true (turn asked)
  | writes outbox written => exact booked_write sound booked outbox written
  | finishes outbox done => exact booked_flush sound booked outbox done
  | fails outbox failed =>
    obtain ⟨job, rest, inHand, -, rfl⟩ := Outbox.fail_eq_some failed
    refine booked_settle sound booked outbox (sound.working outbox inHand) (fun after h => ?_)
      (Outbox.senders_fail failed) fun s o h => ?_
    · cases h
      exact ⟨rfl, nofun⟩
    · exact (Outbox.mem_fail failed h).imp_right fun stream => ⟨_, stream⟩
  | halts gone outbox working =>
    refine booked_settle sound booked outbox working (fun after h => ?_)
      Outbox.senders_abandon fun s o h => .inl (Outbox.closed_of_mem_abandon h)
    cases h
  | accepts frames same sends encoded live outbox queued =>
    exact booked_accept (sound.sameFrames frames) (booked.sameFrames frames) live outbox queued

theorem booked_start (policy : Policy) : Booked inTurn (.start policy) where
  ticketed := ticketed_start policy
  kept _ h := absurd h (Nat.not_lt_zero _)

/-- **Every connection has a ledger after every run**, and the line-up in it is that of the calls if
the run serves those who wait in the order in which they came. -/
theorem booked_of_run? {actions : List Action} (sound : Sound c) (booked : Booked inTurn c)
    (run : c.run? actions = some d) (turn : inTurn → FirstCome actions) : Booked inTurn d := by
  induction actions generalizing c with
  | nil =>
    cases run
    exact booked
  | cons a actions ih =>
    obtain ⟨next, happened, run⟩ := Option.bind_eq_some_iff.1 run
    have handled := handles_of_happens (happens_of_step? happened)
    have first (asked : inTurn) := List.forall_mem_cons.1 (turn asked)
    exact ih (sound_of_handles sound handled)
      (booked_of_handles sound booked handled fun asked => (first asked).1) run
      fun asked => (first asked).2

theorem Reachable.booked {policy : Policy} (h : Reachable policy c) : Booked False c := by
  refine (h.induction (P := fun c => Sound c ∧ Booked False c)
    ⟨sound_start policy, booked_start policy⟩ fun ih happened => ?_).2
  have handled := handles_of_happens happened
  exact ⟨sound_of_handles ih.1 handled, booked_of_handles ih.1 ih.2 handled False.elim⟩

end Client

end ClimateLink
