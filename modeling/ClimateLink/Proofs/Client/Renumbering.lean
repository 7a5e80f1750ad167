import ClimateLink.Proofs.Client.Effects
import ClimateLink.Proofs.Client.Pending
import ClimateLink.Proofs.Frame.Acceptance

/-!
# Clients that number packets differently

Two clients that are the same but for the id that comes next do the same things. What they write
differs in the ids of the packets that they number themselves, and in the checksums over these.

- `Renumbered`: two frames that differ in that.
- `Outbox.Alike`, `Occurrence.Alike`: outboxes and entries of journals with such frames.
- `Outbox.Alike.submit` to `Outbox.Alike.fail`: each operation of an outbox keeps outboxes alike.
- `Outbox.Alike.eq`, `Journal.Alike.eq`: where the ids are the same, nothing differs.
-/

namespace ClimateLink

/-! ## Optional values -/

section Options

variable {α β γ δ : Type} {R : α → β → Prop} {S : γ → δ → Prop} {a : Option α} {b : Option β}

theorem rel_mono {T : α → β → Prop} (rel : Option.Rel R a b) (each : ∀ x y, R x y → T x y) :
    Option.Rel T a b := by
  cases rel with
  | none => exact .none
  | some related => exact .some (each _ _ related)

theorem rel_map {f : α → γ} {g : β → δ} (rel : Option.Rel R a b)
    (each : ∀ x y, R x y → S (f x) (g y)) : Option.Rel S (a.map f) (b.map g) := by
  cases rel with
  | none => exact .none
  | some related => exact .some (each _ _ related)

theorem rel_bind {f : α → Option γ} {g : β → Option δ} (rel : Option.Rel R a b)
    (each : ∀ x y, R x y → Option.Rel S (f x) (g y)) : Option.Rel S (a.bind f) (b.bind g) := by
  cases rel with
  | none => exact .none
  | some related => exact each _ _ related

theorem rel_getElem? {as : List α} {bs : List β} (rel : List.Forall₂ R as bs) (i : Nat) :
    Option.Rel R as[i]? bs[i]? := by
  induction rel generalizing i with
  | nil => exact .none
  | cons first rest ih =>
    cases i with
    | zero => exact .some first
    | succ i => exact ih i

theorem rel_ite {p q : Prop} [Decidable p] [Decidable q] (same : p ↔ q)
    (rel : p → Option.Rel R a b) :
    Option.Rel R (if p then a else none) (if q then b else none) := by
  by_cases holds : p
  · rw [if_pos holds, if_pos (same.1 holds)]
    exact rel holds
  · rw [if_neg holds, if_neg fun other => holds (same.2 other)]
    exact .none

theorem exists_of_rel (rel : Option.Rel R a b) {x : α} (found : a = some x) :
    ∃ y, b = some y ∧ R x y := by
  cases rel with
  | none => cases found
  | some related =>
    cases found
    exact ⟨_, rfl, related⟩

theorem eq_none_iff_of_rel (rel : Option.Rel R a b) : a = none ↔ b = none := by
  cases rel with
  | none => exact ⟨fun _ => rfl, fun _ => rfl⟩
  | some => exact iff_of_false (Option.some_ne_none _) (Option.some_ne_none _)

end Options

/-! ## Frames -/

/-- The packet that a client makes of a payload when the next id is the given one. -/
def numbered (id : UInt8) (payload : Payload) : Packet := (Numbering.stamp ⟨id⟩ payload).1

/-- What has no frame has none with any id, for the same reason, and a frame has the same length
with any id. -/
theorem encode_renumber (id other : UInt8) (payload : Payload) :
    (∃ fault, Frame.encode (numbered id payload) = .error fault ∧
      Frame.encode (numbered other payload) = .error fault) ∨
    ∃ frame next, Frame.encode (numbered id payload) = .ok frame ∧
      Frame.encode (numbered other payload) = .ok next ∧ next.length = frame.length := by
  have first := Frame.checks_encode (numbered id payload)
  have second := Frame.checks_encode (numbered other payload)
  -- The id plays no part in the rules that are checked.
  have same : (numbered other payload).demands = (numbered id payload).demands := rfl
  rw [same] at second
  cases made : Frame.encode (numbered id payload) with
  | error fault =>
    cases again : Frame.encode (numbered other payload) with
    | error reason =>
      rw [made] at first
      rw [again] at second
      cases first with
      | error broken =>
        cases second with
        | error broken' =>
          cases broken.unique broken'
          exact .inl ⟨fault, rfl, rfl⟩
    | ok next =>
      rw [made] at first
      rw [again] at second
      cases first with
      | error broken =>
        cases second with
        | ok obeyed => exact absurd obeyed broken.not_obeyed
  | ok frame =>
    cases again : Frame.encode (numbered other payload) with
    | error reason =>
      rw [made] at first
      rw [again] at second
      cases first with
      | ok obeyed =>
        cases second with
        | error broken => exact absurd obeyed broken.not_obeyed
    | ok next =>
      rw [made] at first
      rw [again] at second
      cases first with
      | ok _ size =>
        cases second with
        | ok _ size' => exact .inr ⟨frame, next, rfl, rfl, size'.1.trans size.1.symm⟩

/-- Two frames are the same, or those of one payload that a client numbered, the second with an id
that is `shift` further on. -/
inductive Renumbered (shift : UInt8) : Bytes → Bytes → Prop where
  | same (frame : Bytes) : Renumbered shift frame frame
  | shifted {id : UInt8} {payload : Payload} {frame next : Bytes}
    (first : Frame.encode (numbered id payload) = .ok frame)
    (second : Frame.encode (numbered (id + shift) payload) = .ok next) :
    Renumbered shift frame next

variable {shift : UInt8}

theorem Renumbered.length {frame next : Bytes} (renumbered : Renumbered shift frame next) :
    next.length = frame.length := by
  cases renumbered with
  | same => rfl
  | @shifted id payload _ _ first second =>
    rcases encode_renumber id (id + shift) payload with ⟨fault, none, -⟩ | ⟨f, g, hf, hg, length⟩
    · cases none.symm.trans first
    · cases hf.symm.trans first
      cases hg.symm.trans second
      exact length

theorem Renumbered.eq {frame next : Bytes} (renumbered : Renumbered 0 frame next) :
    next = frame := by
  cases renumbered with
  | same => rfl
  | shifted first second =>
    rw [UInt8.add_zero] at second
    exact Except.ok.inj (second.symm.trans first)

/-! ## Outboxes -/

/-- Two frames of the same sender. -/
structure Job.Alike (shift : UInt8) (a b : Job) : Prop where
  sender : b.sender = a.sender
  frame : Renumbered shift a.frame b.frame

/-- Two frames in hand, of which as much is written. -/
structure Job.AlikeInHand (shift : UInt8) (a b : Job × Bytes) : Prop where
  job : Job.Alike shift a.1 b.1
  written : ∃ n, a.2 = a.1.frame.drop n ∧ b.2 = b.1.frame.drop n

/-- Two strings of bytes from the same place of such frames. -/
def Slices (shift : UInt8) (a b : Bytes) : Prop :=
  ∃ frame next m n, Renumbered shift frame next ∧ a = (frame.drop m).take n ∧
    b = (next.drop m).take n

theorem Job.AlikeInHand.length {a b : Job × Bytes} (alike : Job.AlikeInHand shift a b) :
    b.2.length = a.2.length := by
  obtain ⟨n, ha, hb⟩ := alike.written
  rw [ha, hb, List.length_drop, List.length_drop, alike.job.frame.length]

theorem Job.Alike.refl (job : Job) : Job.Alike shift job job := ⟨rfl, .same job.frame⟩

theorem Job.Alike.eq {a b : Job} (alike : Job.Alike 0 a b) : b = a := by
  obtain ⟨sender, frame⟩ := a
  obtain ⟨other, next⟩ := b
  cases alike.sender
  cases alike.frame.eq
  rfl

theorem Job.AlikeInHand.eq {a b : Job × Bytes} (alike : Job.AlikeInHand 0 a b) : b = a := by
  obtain ⟨n, ha, hb⟩ := alike.written
  refine Prod.ext alike.job.eq ?_
  rw [ha, hb, alike.job.eq]

theorem jobs_eq {jobs others : List Job} (alike : List.Forall₂ (Job.Alike 0) jobs others) :
    others = jobs := by
  induction alike with
  | nil => rfl
  | cons first _ ih => rw [first.eq, ih]

namespace Outbox

/-- Two outboxes with such frames in the same places. -/
structure Alike (shift : UInt8) (a b : Outbox) : Prop where
  connection : b.connection = a.connection
  places : b.places = a.places
  failure : b.failure = a.failure
  inHand : Option.Rel (Job.AlikeInHand shift) a.inHand b.inHand
  queue : List.Forall₂ (Job.Alike shift) a.queue b.queue
  waiting : List.Forall₂ (Job.Alike shift) a.waiting b.waiting

variable {a b : Outbox}

/-- An outbox is alike to itself if what is still to be written is the end of the frame in hand. -/
theorem Holds.alike {box : Outbox} {part : Bytes} (holds : box.Holds part) :
    Alike shift box box := by
  have jobs (waiting : List Job) : List.Forall₂ (Job.Alike shift) waiting waiting :=
    List.forall₂_same.2 fun job _ => .refl job
  refine ⟨rfl, rfl, rfl, ?_, jobs _, jobs _⟩
  unfold Holds at holds
  cases inHand : box.inHand with
  | none => exact .none
  | some hand =>
    rw [inHand] at holds
    have left : hand.2 = hand.1.frame.drop part.length := by rw [← holds, List.drop_left]
    exact .some ⟨.refl hand.1, part.length, left, left⟩

theorem Alike.eq (alike : Alike 0 a b) : b = a := by
  obtain ⟨connection, places, failure, inHand, queue, waiting⟩ := alike
  have hands : b.inHand = a.inHand := by
    cases inHand' : a.inHand with
    | none => exact (eq_none_iff_of_rel inHand).1 inHand'
    | some hand =>
      obtain ⟨other, found, alike⟩ := exists_of_rel inHand inHand'
      rw [found, alike.eq]
  obtain ⟨k, n, h, w, v, r⟩ := a
  cases connection
  cases places
  cases failure
  cases hands
  cases jobs_eq queue
  cases jobs_eq waiting
  rfl

theorem Alike.submit (alike : Alike shift a b) {job other : Job}
    (jobs : Job.Alike shift job other) :
    Option.Rel (Alike shift) (a.submit job) (b.submit other) := by
  have last : List.Forall₂ (Job.Alike shift) [job] [other] := .cons jobs .nil
  have working : b.failure.isSome = a.failure.isSome := by rw [alike.failure]
  have room : (a.waiting.isEmpty ∧ a.queue.length < a.places) ↔
      (b.waiting.isEmpty ∧ b.queue.length < b.places) := by
    rw [List.isEmpty_iff_length_eq_zero, List.isEmpty_iff_length_eq_zero, alike.places,
      alike.queue.length_eq, alike.waiting.length_eq]
  unfold Outbox.submit
  rw [working]
  split
  · exact .none
  · by_cases free : a.waiting.isEmpty ∧ a.queue.length < a.places
    · rw [if_pos free, if_pos (room.1 free)]
      exact .some { alike with queue := List.rel_append alike.queue last }
    · rw [if_neg free, if_neg fun other => free (room.2 other)]
      exact .some { alike with waiting := List.rel_append alike.waiting last }

theorem Alike.advance (alike : Alike shift a b) (i : Nat) :
    Option.Rel (Alike shift) (a.advance i) (b.advance i) := by
  have room : a.queue.length < a.places ↔ b.queue.length < b.places := by
    rw [alike.queue.length_eq, alike.places]
  refine rel_ite room fun _ => rel_map (rel_getElem? alike.waiting i) fun job other jobs => ?_
  have last : List.Forall₂ (Job.Alike shift) [job] [other] := .cons jobs .nil
  refine { alike with queue := List.rel_append alike.queue last, waiting := ?_ }
  rw [List.eraseIdx_eq_take_drop_succ, List.eraseIdx_eq_take_drop_succ]
  exact List.rel_append (List.forall₂_take i alike.waiting)
    (List.forall₂_drop (i + 1) alike.waiting)

theorem Alike.take (alike : Alike shift a b) : Option.Rel (Alike shift) a.take b.take := by
  have inHand := alike.inHand
  have queue := alike.queue
  unfold Outbox.take
  rw [alike.failure]
  generalize a.inHand = h at inHand ⊢
  generalize b.inHand = g at inHand ⊢
  generalize a.queue = w at queue ⊢
  generalize b.queue = v at queue ⊢
  cases a.failure with
  | some => exact .none
  | none =>
    cases inHand with
    | some => exact .none
    | none =>
      cases queue with
      | nil => exact .none
      | cons jobs behind =>
        exact .some { alike with
          failure := rfl, inHand := .some ⟨jobs, 0, rfl, rfl⟩, queue := behind }

theorem Alike.write (alike : Alike shift a b) (n : Nat) :
    Option.Rel (fun x y => Alike shift x.1 y.1 ∧ Slices shift x.2 y.2) (a.write n) (b.write n) := by
  have inHand := alike.inHand
  unfold Outbox.write
  generalize a.inHand = h at inHand ⊢
  generalize b.inHand = g at inHand ⊢
  cases inHand with
  | none => exact .none
  | @some hand other hands =>
    obtain ⟨job, rest⟩ := hand
    obtain ⟨job', rest'⟩ := other
    have length : rest'.length = rest.length := hands.length
    obtain ⟨jobs, m, first, second⟩ := hands
    refine rel_ite (by rw [length]) fun _ => .some ⟨{ alike with inHand := .some ⟨jobs, ?_⟩ }, ?_⟩
    · refine ⟨m + n, ?_, ?_⟩
      · rw [← List.drop_drop, ← first]
      · rw [← List.drop_drop, ← second]
    · exact ⟨_, _, m, n, jobs.frame, congrArg (List.take n) first, congrArg (List.take n) second⟩

theorem Alike.flush (alike : Alike shift a b) :
    Option.Rel (fun x y => Alike shift x.1 y.1 ∧ y.2 = x.2) a.flush b.flush := by
  have inHand := alike.inHand
  unfold Outbox.flush
  generalize a.inHand = h at inHand ⊢
  generalize b.inHand = g at inHand ⊢
  cases inHand with
  | none => exact .none
  | @some hand other hands =>
    obtain ⟨job, rest⟩ := hand
    obtain ⟨job', rest'⟩ := other
    have length : rest'.length = rest.length := hands.length
    cases rest with
    | nil =>
      cases List.eq_nil_of_length_eq_zero length
      exact .some ⟨{ alike with inHand := .none }, hands.job.sender⟩
    | cons byte more =>
      obtain ⟨byte', more', rfl⟩ := List.exists_cons_of_length_eq_add_one length
      exact .none

theorem Alike.closeBehind (alike : Alike shift a b) : b.closeBehind = a.closeBehind := by
  have behind : List.Forall₂ (Job.Alike shift) a.behind b.behind :=
    List.rel_append alike.waiting alike.queue
  unfold Outbox.closeBehind
  generalize a.behind = w at behind ⊢
  generalize b.behind = v at behind ⊢
  induction behind with
  | nil => rfl
  | cons jobs _ ih => rw [List.map_cons, List.map_cons, ih, jobs.sender]

theorem Alike.abandon (alike : Alike shift a b) : b.abandon = a.abandon := by
  have inHand := alike.inHand
  unfold Outbox.abandon
  rw [alike.closeBehind]
  generalize a.inHand = h at inHand ⊢
  generalize b.inHand = g at inHand ⊢
  cases inHand with
  | none => rfl
  | some hands => simp only [Option.map_some, hands.job.sender]

theorem Alike.fail (alike : Alike shift a b) (reason : String) :
    Option.Rel (fun x y => Alike shift x.1 y.1 ∧ y.2 = x.2) (a.fail reason) (b.fail reason) := by
  have inHand := alike.inHand
  unfold Outbox.fail
  rw [alike.closeBehind]
  generalize a.inHand = h at inHand ⊢
  generalize b.inHand = g at inHand ⊢
  cases inHand with
  | none => exact .none
  | some hands =>
    refine .some ⟨{ alike with
      failure := rfl, inHand := .none, queue := .nil, waiting := .nil }, ?_⟩
    simp only [hands.job.sender]

end Outbox

/-! ## Entries -/

/-- Two entries that are the same but for the id that a client gives to a packet. -/
inductive Occurrence.Alike (shift : UInt8) : Occurrence → Occurrence → Prop where
  | same (o : Occurrence) : Alike shift o o
  | built (id : UInt8) (payload : Payload) :
    Alike shift (.built (numbered id payload)) (.built (numbered (id + shift) payload))
  | wrote {k : Nat} {bytes others : Bytes} (slices : Slices shift bytes others) :
    Alike shift (.wrote k bytes) (.wrote k others)
  | accepted {ticket k : Nat} {frame next : Bytes} (renumbered : Renumbered shift frame next) :
    Alike shift (.accepted ticket k frame) (.accepted ticket k next)

/-- Two journals with such entries at the same times. -/
def Journal.Alike (shift : UInt8) : Journal → Journal → Prop :=
  List.Forall₂ fun e f => f.1 = e.1 ∧ Occurrence.Alike shift e.2 f.2

theorem Occurrence.Alike.eq {o p : Occurrence} (alike : Occurrence.Alike 0 o p) : p = o := by
  cases alike with
  | same => rfl
  | built id payload => rw [UInt8.add_zero]
  | wrote slices =>
    obtain ⟨frame, next, m, n, renumbered, rfl, rfl⟩ := slices
    rw [renumbered.eq]
  | accepted renumbered => rw [renumbered.eq]

theorem Journal.Alike.eq {j k : Journal} (alike : Journal.Alike 0 j k) : k = j := by
  induction alike with
  | nil => rfl
  | cons entries _ ih =>
    obtain ⟨time, same⟩ := entries
    rw [ih, Prod.ext time same.eq]

theorem Journal.Alike.posted {j k : Journal} (alike : Journal.Alike shift j k) :
    Journal.posted k = Journal.posted j := by
  induction alike with
  | nil => rfl
  | @cons e f _ _ entries _ ih =>
    obtain ⟨t, o⟩ := e
    obtain ⟨s, p⟩ := f
    rw [posted_cons, posted_cons, ih]
    cases entries.2 <;> rfl

end ClimateLink
