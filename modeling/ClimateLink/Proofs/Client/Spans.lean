import ClimateLink.Proofs.Client.Effects

/-!
# Spans of connections

Connections are opened one after another. The span of a connection is what happens from its opening
to that of the next one, and what is posted and shown in it belongs to its session.

- `span_append`: as long as no connection is opened, what happens belongs to the latest one.
- `span_opened`: what happens behind the opening of a connection belongs to that one.
- `heard_append`: what comes in is told by the connection that it came in on.
-/

namespace ClimateLink.Journal

variable {α : Type}

/-! ## Views of a span -/

/-- The connection that was opened last. -/
def latest : Journal → Option Nat
  | [] => none
  | (_, .opened k) :: _ => some k
  | _ :: j => latest j

/-- What `view` sees from the opening of a connection to that of the next one, oldest first. -/
def span (view : Occurrence → Option α) (k : Nat) : Journal → List α
  | [] => []
  | e :: j => span view k j ++ if latest (e :: j) = some k then (view e.2).toList else []

/-- The event that is posted. -/
def event? : Occurrence → Option Event
  | .posted e => some e
  | _ => none

/-- The state that is shown. -/
def phase? : Occurrence → Option Phase
  | .entered phase => some phase
  | _ => none

/-- The events posted in the span of a connection. -/
def postedIn (k : Nat) (j : Journal) : List Event := span event? k j

/-- The states shown in the span of a connection. -/
def shownIn (k : Nat) (j : Journal) : List Phase := span phase? k j

/-- The states shown. -/
def shown (j : Journal) : List Phase := collect phase? j

/-! ## Journals that grow -/

/-- No connection is opened. -/
def Stays (entries : Journal) : Prop := ∀ e ∈ entries, ∀ k, e.2 ≠ .opened k

theorem latest_append {entries : Journal} (stays : Stays entries) (j : Journal) :
    latest (entries ++ j) = latest j := by
  induction entries with
  | nil => rfl
  | cons e entries ih =>
    obtain ⟨first, later⟩ := List.forall_mem_cons.1 stays
    obtain ⟨t, o⟩ := e
    cases o with
    | opened k => exact absurd rfl (first k)
    | _ => exact ih later

/-- **What happens belongs to the latest connection**, as long as no other one is opened. -/
theorem span_append (view : Occurrence → Option α) (k : Nat) {entries : Journal}
    (stays : Stays entries) (j : Journal) : span view k (entries ++ j) =
      span view k j ++ if latest j = some k then collect view entries else [] := by
  induction entries with
  | nil => rw [List.nil_append, collect]; split <;> exact (List.append_nil _).symm
  | cons e entries ih =>
    have later : Stays entries := fun o among => stays o (List.mem_cons_of_mem e among)
    have same : latest (e :: (entries ++ j)) = latest j := latest_append stays j
    rw [List.cons_append, span, same, ih later, List.append_assoc]
    by_cases own : latest j = some k
    · rw [if_pos own, if_pos own, if_pos own, collect_cons]
    · rw [if_neg own, if_neg own, if_neg own, List.append_nil]

theorem posted_append (entries j : Journal) :
    posted (entries ++ j) = posted j ++ posted entries := collect_append _ entries j

theorem heard_append (k : Nat) (entries j : Journal) :
    heard k (entries ++ j) = heard k j ++ heard k entries := by
  rw [heard, collect_append, List.flatten_append]
  rfl

/-- **A connection that is opened begins a span of its own**, and that of no other one goes on. -/
theorem span_opened {view : Occurrence → Option α} {l : Nat} (unseen : view (.opened l) = none)
    (k t : Nat) {entries : Journal} (stays : Stays entries) (j : Journal) :
    span view k (entries ++ (t, .opened l) :: j) =
      span view k j ++ if l = k then collect view entries else [] := by
  rw [span_append view k stays, span, latest, unseen, Option.toList_none, ite_self,
    List.append_nil]
  simp only [Option.some.injEq]

/-! ## Entries -/

@[simp] theorem shown_nil : shown [] = [] := rfl

@[simp] theorem posted_nil : posted [] = [] := rfl

@[simp] theorem heard_nil (k : Nat) : heard k [] = [] := rfl

@[simp] theorem shown_cons (t : Nat) (o : Occurrence) (j : Journal) :
    shown ((t, o) :: j) = shown j ++ (phase? o).toList :=
  collect_cons _ t o j

@[simp] theorem heard_cons (k t : Nat) (o : Occurrence) (j : Journal) : heard k ((t, o) :: j) =
    heard k j ++ match o with | .heard l bytes => if l = k then bytes else [] | _ => [] := by
  rw [heard, collect_cons, List.flatten_append, ← heard]
  cases o with
  | heard l bytes => by_cases h : l = k <;> simp [h]
  | _ => rfl

@[simp] theorem shown_packets (t : Nat) (ps : List Packet) (j : Journal) :
    shown (packets t ps ++ j) = shown j := by
  rw [shown, collect_packets]
  simp [phase?, shown]

@[simp] theorem heard_packets (k t : Nat) (ps : List Packet) (j : Journal) :
    heard k (packets t ps ++ j) = heard k j := by
  rw [heard, collect_packets]
  simp [heard]

@[simp] theorem shown_answer (t : Nat) (before : Option Outcome) (outcome : Outcome)
    (j : Journal) : shown (answer t before outcome ++ j) = shown j := by
  unfold answer
  split <;> simp [phase?]

@[simp] theorem heard_answer (k t : Nat) (before : Option Outcome) (outcome : Outcome)
    (j : Journal) : heard k (answer t before outcome ++ j) = heard k j := by
  unfold answer
  split <;> simp

theorem stays_nil : Stays [] := List.forall_mem_nil _

theorem Stays.append {a b : Journal} (ha : Stays a) (hb : Stays b) : Stays (a ++ b) :=
  List.forall_mem_append.2 ⟨ha, hb⟩

theorem stays_packets (t : Nat) (ps : List Packet) : Stays (packets t ps) :=
  (forall_mem_packets t).2 fun _ _ _ => Occurrence.noConfusion

theorem stays_answer (t : Nat) (before : Option Outcome) (outcome : Outcome) :
    Stays (answer t before outcome) :=
  (forall_mem_answer t before outcome).2 fun _ _ => Occurrence.noConfusion

end ClimateLink.Journal
