import ClimateLink.Client.Step

/-!
# What the changes of a client do

Some changes go through a list or come in several forms. Each is written out here, so that nobody
else has to look inside.

- `deliver_eq`, `postAll_eq`: a fold, done in one go.
- `begin_eq`: the request for the version always has a frame.
- `told_cases`, `reply_eq`, `disconnect_eq`, `lose_eq`, `lose_of_answered`, `lose_of_unanswered`,
  `submit_cases`: the forms that a change can have.
- `posted_cons`, `wire_cons`, `accepted_cons`, `returned_cons`: what an entry of the journal adds to
  what observers see.
-/

namespace ClimateLink

/-! ## Views of the journal -/

namespace Journal

theorem collect_append {α : Type} (view : Occurrence → Option α) (entries j : Journal) :
    collect view (entries ++ j) = collect view j ++ collect view entries := by
  simp only [collect, history, List.map_append, List.reverse_append, List.filterMap_append]

variable (t : Nat) (o : Occurrence) (j : Journal)

@[simp] theorem posted_cons : posted ((t, o) :: j) =
    posted j ++ (match o with | .posted e => some e | _ => none).toList :=
  collect_cons _ t o j

@[simp] theorem wire_cons (k : Nat) : wire k ((t, o) :: j) =
    wire k j ++ match o with | .wrote l bytes => if l = k then bytes else [] | _ => [] := by
  rw [wire, collect_cons, List.flatten_append, ← wire]
  cases o with
  | wrote l bytes => by_cases h : l = k <;> simp [h]
  | _ => rfl

@[simp] theorem accepted_cons (k : Nat) : accepted k ((t, o) :: j) =
    accepted k j ++ (match o with
      | .accepted ticket l frame => if l = k then some (ticket, frame) else none
      | _ => none).toList :=
  collect_cons _ t o j

@[simp] theorem returned_cons : returned ((t, o) :: j) =
    returned j ++ (match o with
      | .returned ticket outcome => some (ticket, outcome)
      | _ => none).toList :=
  collect_cons _ t o j

/-- The entries that say that these packets were posted, in this order. -/
def packets (t : Nat) (ps : List Packet) : Journal :=
  (ps.map fun p => (t, Occurrence.posted (.packet p))).reverse

theorem forall_mem_packets {P : Nat × Occurrence → Prop} {ps : List Packet} :
    (∀ e ∈ packets t ps, P e) ↔ ∀ p ∈ ps, P (t, .posted (.packet p)) := by
  simp only [packets, List.mem_reverse, List.forall_mem_map]

theorem collect_packets {α : Type} (view : Occurrence → Option α) (ps : List Packet) :
    collect view (packets t ps ++ j) =
      collect view j ++ ps.filterMap fun p => view (.posted (.packet p)) := by
  simp only [collect, history, packets, List.map_append, List.map_reverse, List.map_map,
    List.reverse_append, List.reverse_reverse, List.filterMap_append, List.filterMap_map]
  rfl

@[simp] theorem posted_packets (ps : List Packet) :
    posted (packets t ps ++ j) = posted j ++ ps.map .packet := by
  rw [posted, collect_packets, ← List.filterMap_eq_map]
  rfl

/-- The entry for the answer of the call that started the client, unless it has returned. -/
def answer (t : Nat) (before : Option Outcome) (outcome : Outcome) : Journal :=
  if before.isSome then [] else [(t, .answered outcome)]

variable (before : Option Outcome) (outcome : Outcome)

theorem forall_mem_answer {P : Nat × Occurrence → Prop} :
    (∀ e ∈ answer t before outcome, P e) ↔ (before = none → P (t, .answered outcome)) := by
  cases before <;> simp [answer]

@[simp] theorem posted_answer : posted (answer t before outcome ++ j) = posted j := by
  unfold answer
  split <;> simp

/-- The entries for a loss that leaves no connection to be closed. -/
def loss (verified : Bool) (failure : Failure) : Journal :=
  if before.isSome then
    (t, .entered .disconnected) :: if verified then [(t, .posted .disconnected)] else []
  else [(t, .answered (.error failure)), (t, .entered .shutdown)]

theorem forall_mem_loss {P : Nat × Occurrence → Prop} {verified : Bool} {failure : Failure} :
    (∀ e ∈ loss t before verified failure, P e) ↔
      (before.isSome → P (t, .entered .disconnected) ∧
        (verified → P (t, .posted .disconnected))) ∧
      (before = none → P (t, .answered (.error failure)) ∧ P (t, .entered .shutdown)) := by
  cases before <;> cases verified <;> simp [loss]

end Journal

/-- The ticket of the call that handed in a frame. -/
def Sender.ticket? : Sender → Option Nat
  | .client => none
  | .call t => some t

theorem Sender.ticket?_eq_some {sender : Sender} {t : Nat} :
    sender.ticket? = some t ↔ sender = .call t := by
  cases sender <;> simp [ticket?]

namespace Client

/-! ## Folds -/

theorem postAll_eq (c : Client) (ps : List Packet) :
    c.postAll ps = { c with journal := Journal.packets c.clock ps ++ c.journal } := by
  induction ps generalizing c with
  | nil => rfl
  | cons p ps ih =>
    rw [postAll, List.foldl_cons, ← postAll, ih]
    simp [post, note, Journal.packets]

/-- The outcomes among these that are those of calls. -/
def callOutcomes (outcomes : List (Sender × Outcome)) : List (Nat × Outcome) :=
  outcomes.filterMap fun o => o.1.ticket?.map fun t => (t, o.2)

/-- The stage after the client learned what became of its own frames. -/
def told (stage : Stage) (outcomes : List (Sender × Outcome)) : Stage :=
  outcomes.foldl (fun stage o =>
    match o.1, stage with
    | .client, .asking k _ => .asking k (some o.2)
    | _, stage => stage) stage

/-- What a client learns of its own frames changes a stage only in which it asks for the version. -/
theorem told_cases (stage : Stage) (outcomes : List (Sender × Outcome)) :
    told stage outcomes = stage ∨ ∃ k before after, stage = .asking k before ∧
      told stage outcomes = .asking k after := by
  induction outcomes generalizing stage with
  | nil => exact .inl rfl
  | cons o outcomes ih =>
    obtain ⟨sender, outcome⟩ := o
    rw [told, List.foldl_cons, ← told]
    cases sender with
    | call => exact ih stage
    | client =>
      cases stage with
      | asking k before =>
        rcases ih (.asking k (some outcome)) with same | ⟨l, known, after, stage, told⟩
        · exact .inr ⟨k, before, some outcome, rfl, same⟩
        · cases stage
          exact .inr ⟨k, before, after, rfl, told⟩
      | idle | dialing | verifying | running | closing | pausing | stopped => exact ih _

theorem deliver_eq (c : Client) (outcomes : List (Sender × Outcome)) :
    c.deliver outcomes = { c with
      stage := told c.stage outcomes
      decided := c.decided ++ callOutcomes outcomes } := by
  induction outcomes generalizing c with
  | nil => simp [deliver, told, callOutcomes]
  | cons o outcomes ih =>
    obtain ⟨sender, outcome⟩ := o
    rw [deliver, List.foldl_cons, ← deliver, ih]
    cases sender with
    | call ticket => simp [told, callOutcomes, Sender.ticket?]
    | client => cases hs : c.stage <;> simp [told, callOutcomes, Sender.ticket?, hs]

section Deliver

variable (c : Client) (outcomes : List (Sender × Outcome))

@[simp] theorem journal_deliver : (c.deliver outcomes).journal = c.journal := by rw [deliver_eq]

@[simp] theorem outbox_deliver : (c.deliver outcomes).outbox = c.outbox := by rw [deliver_eq]

@[simp] theorem writing_deliver : (c.deliver outcomes).writing = c.writing := by
  rw [writing, outbox_deliver, writing]

@[simp] theorem connections_deliver : (c.deliver outcomes).connections = c.connections := by
  rw [deliver_eq]

@[simp] theorem tickets_deliver : (c.deliver outcomes).tickets = c.tickets := by rw [deliver_eq]

@[simp] theorem leavers_deliver : (c.deliver outcomes).leavers = c.leavers := by rw [deliver_eq]

end Deliver

/-! ## Changes that come in several forms -/

theorem reply_eq (c : Client) (outcome : Outcome) :
    c.reply outcome = { c with
      answer := some (c.answer.getD outcome)
      journal := Journal.answer c.clock c.answer outcome ++ c.journal } := by
  obtain ⟨policy, clock, stage, since, phase, live, outbox, numbering, connections, tickets,
    leavers, decided, known, stopping, released, journal⟩ := c
  cases known <;> rfl

/-- Where nobody has to be told of a failed first attempt, the client goes on. -/
theorem lose_of_answered {c : Client} (h : c.answer.isSome) (verified : Bool) (failure : Failure) :
    c.lose verified failure =
      ((if verified then c.post .disconnected else c).goTo .pausing).enter .disconnected := by
  rw [lose, if_pos h]

theorem lose_of_unanswered {c : Client} (h : c.answer = none) (verified : Bool)
    (failure : Failure) : c.lose verified failure = c.stop.reply (.error failure) := by
  rw [lose, h]
  rfl

theorem lose_eq (c : Client) (verified : Bool) (failure : Failure) :
    c.lose verified failure = { c with
      stage := if c.answer.isSome then .pausing else .stopped
      since := c.clock
      phase := if c.answer.isSome then .disconnected else .shutdown
      live := if c.answer.isSome then c.live else none
      leavers := if c.answer.isSome then c.leavers else []
      decided := if c.answer.isSome then c.decided
        else c.decided ++ c.leavers.map fun t => (t, .ok ())
      answer := some (c.answer.getD (.error failure))
      journal := Journal.loss c.clock c.answer verified failure ++ c.journal } := by
  obtain ⟨policy, clock, stage, since, phase, live, outbox, numbering, connections, tickets,
    leavers, decided, known, stopping, released, journal⟩ := c
  cases known <;> cases verified <;> rfl

/-- The request for the version of a console. -/
def versionRequest (id : UInt8) : Packet :=
  ⟨Address.ofFamily Payload.versionRequest.family, id, .versionRequest⟩

theorem begin_eq (c : Client) :
    ∃ frame, Frame.encode (versionRequest c.numbering.next) = .ok frame ∧
      c.begin = { c with
        connections := c.connections + 1
        stage := .asking c.connections none
        since := c.clock
        phase := .verifying
        numbering := ⟨c.numbering.next + 1⟩
        outbox := some ⟨c.connections, c.policy.places, none, [⟨.client, frame⟩], [], none⟩
        journal := (c.clock, .built (versionRequest c.numbering.next)) ::
          (c.clock, .entered .verifying) :: (c.clock, .opened c.connections) :: c.journal } := by
  obtain ⟨frame, hframe⟩ : ∃ frame,
      Frame.encode (versionRequest c.numbering.next) = .ok frame := ⟨_, rfl⟩
  have place : 0 < c.policy.places := Nat.lt_of_lt_of_le Nat.one_pos (Nat.le_max_left ..)
  have queued : (Outbox.new c.connections c.policy.places).submit ⟨.client, frame⟩ =
      some ⟨c.connections, c.policy.places, none, [⟨.client, frame⟩], [], none⟩ := by
    simp [Outbox.submit, Outbox.new, place]
  refine ⟨frame, hframe, ?_⟩
  rw [versionRequest] at hframe
  simp only [begin, build, Numbering.stamp, note, goTo, enter, hframe, queued, versionRequest]

/-- A call either is refused, or gives its frame to the outbox of the connection that takes
frames. -/
theorem submit_cases (c : Client) (packet : Packet) :
    (∃ failure, c.submit packet = c.note (.refused failure)) ∨
      ∃ frame connection box after, Frame.encode packet = .ok frame ∧
        c.live = some connection ∧ c.outbox = some box ∧
        box.submit ⟨.call c.tickets, frame⟩ = some after ∧
        c.submit packet = { c with outbox := some after, tickets := c.tickets + 1 }.note
          (.accepted c.tickets connection frame) := by
  unfold submit
  split
  · exact .inl ⟨_, rfl⟩
  · split
    · exact .inl ⟨_, rfl⟩
    · next frame hframe =>
      split
      · next connection box hlive hbox =>
        split
        · next after hafter =>
          exact .inr ⟨frame, connection, box, after, hframe, hlive, hbox, hafter, rfl⟩
        · exact .inl ⟨_, rfl⟩
      · exact .inl ⟨_, rfl⟩

theorem disconnect_eq (c : Client) :
    c.disconnect = { c with
      stopping := true
      tickets := c.tickets + 1
      leavers := if c.stage = .stopped then c.leavers else c.leavers ++ [c.tickets]
      decided := if c.stage = .stopped then c.decided ++ [(c.tickets, .ok ())] else c.decided
      journal := (c.clock, .left c.tickets) :: c.journal } := by
  unfold disconnect
  by_cases h : c.stage = .stopped <;> simp [note, h]

end Client

end ClimateLink
