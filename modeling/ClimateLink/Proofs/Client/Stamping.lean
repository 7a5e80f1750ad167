import ClimateLink.Proofs.Client.Notes
import ClimateLink.Proofs.Client.Spans
import Mathlib.Logic.Function.Basic

/-!
# The ids of requests

A client numbers packets in three places: it asks every new connection for the version, calls send
payloads, and the application has packets built to send them later. All of these take the next id of
the same numbering, whatever becomes of the packet.

**Theorem (`ids_in_order`).** In every run of clients side by side, each client numbers what its own
actions have numbered, in their order: its `k`-th packet has the id `k` modulo 256 and the address
of its family. What the others do has no part in it.

The proof follows the run. An action of a client stamps the payloads that it has numbered, and no
others (`stamps_of_happens`), so that a run stamps those of its actions one after another
(`stamps_of_run?`). Of the actions of several clients, each one meets only its own
(`Ensemble.run?_own`).
-/

namespace ClimateLink

/-! ## Stamps one after another -/

namespace Numbering

variable (numbering : Numbering)

theorem stampAll_append (first second : List Payload) :
    numbering.stampAll (first ++ second) =
      ((numbering.stampAll first).1 ++ ((numbering.stampAll first).2.stampAll second).1,
        ((numbering.stampAll first).2.stampAll second).2) := by
  induction first generalizing numbering with
  | nil => rfl
  | cons payload first ih => simp only [List.cons_append, stampAll, ih]

theorem payloads_stampAll (payloads : List Payload) :
    (numbering.stampAll payloads).1.map Packet.payload = payloads := by
  induction payloads generalizing numbering with
  | nil => rfl
  | cons payload payloads ih => simp only [stampAll, List.map_cons, ih, stamp]

theorem stamped_getElem? (payloads : List Payload) (k : Nat) :
    (numbering.stampAll payloads).1[k]? = payloads[k]?.map fun payload =>
      ((numbering.stampAll (payloads.take k)).2.stamp payload).1 := by
  induction payloads generalizing numbering k with
  | nil => rfl
  | cons payload payloads ih =>
    cases k with
    | zero => rfl
    | succ k => exact ih _ k

/-- **The `k`-th packet is `k` ids on**, and is addressed by its family. -/
theorem getElem?_stampAll {payloads : List Payload} {k : Nat} {packet : Packet}
    (h : (numbering.stampAll payloads).1[k]? = some packet) :
    packet.id = numbering.next + UInt8.ofNat k ∧
      packet.address = Address.ofFamily packet.payload.family := by
  rw [stamped_getElem?] at h
  obtain ⟨payload, found, rfl⟩ := Option.map_eq_some_iff.1 h
  obtain ⟨inside, -⟩ := List.getElem?_eq_some_iff.1 found
  refine ⟨?_, rfl⟩
  show (numbering.stampAll (payloads.take k)).2.next = _
  rw [next_stampAll, List.length_take_of_le (Nat.le_of_lt inside)]

end Numbering

/-! ## What is numbered -/

theorem filterMap_cons_toList {α β : Type} (f : α → Option β) (a : α) (as : List α) :
    (a :: as).filterMap f = (f a).toList ++ as.filterMap f := by
  cases kept : f a with
  | none => exact List.filterMap_cons_none kept
  | some b => exact List.filterMap_cons_some kept

/-- An occurrence that neither numbers a packet nor shows that a console is asked for its
version. -/
def Occurrence.silent : Occurrence → Bool
  | .built _ | .entered .verifying => false
  | _ => true

namespace Journal

@[simp] theorem built_cons (t : Nat) (o : Occurrence) (j : Journal) : built ((t, o) :: j) =
    built j ++ (match o with | .built p => some p | _ => none).toList :=
  collect_cons _ t o j

/-- How often it is shown that a console is asked for its version. -/
def verifications (j : Journal) : Nat := j.shown.count .verifying

/-- Silent entries change neither what was numbered nor how often a version was asked for. -/
theorem views_of_silent {entries : Journal} (silent : ∀ e ∈ entries, e.2.silent) (j : Journal) :
    built (entries ++ j) = built j ∧ verifications (entries ++ j) = verifications j := by
  induction entries with
  | nil => exact ⟨rfl, rfl⟩
  | cons e entries ih =>
    obtain ⟨t, o⟩ := e
    obtain ⟨first, later⟩ := List.forall_mem_cons.1 silent
    obtain ⟨built, asked⟩ := ih later
    rw [List.cons_append, built_cons, verifications, shown_cons, List.count_append,
      ← verifications, built, asked]
    cases o with
    | built => cases first
    | entered phase =>
      cases phase with
      | verifying => cases first
      | idle | connecting | connected | disconnected | shutdown =>
        exact ⟨List.append_nil _, Nat.add_zero _⟩
    | dialled | opened | closed | wrote | heard | posted | answered | accepted | refused | left
    | returned => exact ⟨List.append_nil _, Nat.add_zero _⟩

end Journal

namespace Client

variable {c d e : Client} {a : Action}

/-! ## Changes -/

/-- From `c` to `d` these payloads are numbered, in this order, and as often as `asked` says it is
shown that a console is asked for its version. -/
structure Stamps (c : Client) (payloads : List Payload) (asked : Nat) (d : Client) : Prop where
  built : d.journal.built = c.journal.built ++ (c.numbering.stampAll payloads).1
  numbering : d.numbering = (c.numbering.stampAll payloads).2
  asked : d.journal.verifications = c.journal.verifications + asked

theorem Stamps.trans {first second : List Payload} {m n : Nat} (before : Stamps c first m d)
    (after : Stamps d second n e) : Stamps c (first ++ second) (m + n) e where
  built := by
    rw [after.built, before.built, before.numbering, Numbering.stampAll_append, List.append_assoc]
  numbering := by rw [after.numbering, before.numbering, Numbering.stampAll_append]
  asked := by rw [after.asked, before.asked, Nat.add_assoc]

/-- Whoever notes nothing but silent entries, and keeps the numbering, has numbered nothing. -/
theorem stamps_of_notes (notes : Notes (fun o => o.silent) c d)
    (numbering : d.numbering = c.numbering) : Stamps c [] 0 d := by
  obtain ⟨new, journal, silent⟩ := notes
  obtain ⟨built, asked⟩ := Journal.views_of_silent silent c.journal
  refine ⟨?_, numbering, ?_⟩
  · rw [journal, built]
    exact (List.append_nil _).symm
  · rw [journal, asked]
    rfl

theorem numbering_submit (c : Client) (packet : Packet) :
    (c.submit packet).numbering = c.numbering := by
  rcases c.submit_cases packet with ⟨failure, refused⟩ | ⟨frame, k, box, after, -, -, -, -, taken⟩
  · rw [refused]
    rfl
  · rw [taken]
    rfl

theorem stamps_submit (c : Client) (packet : Packet) : Stamps c [] 0 (c.submit packet) :=
  stamps_of_notes (notes_submit c packet (fun _ => rfl) fun _ _ _ _ => rfl)
    (numbering_submit c packet)

theorem stamps_build (c : Client) (payload : Payload) :
    Stamps c [payload] 0 (c.build payload).2 where
  built := Journal.built_cons c.clock (.built (c.numbering.stamp payload).1) c.journal
  numbering := rfl
  asked := by
    show List.count _ (Journal.shown ((_, _) :: _)) = _
    rw [Journal.shown_cons]
    exact congrArg (List.count _) (List.append_nil _)

theorem stamps_begin (c : Client) : Stamps c [.versionRequest] 1 c.begin := by
  obtain ⟨frame, -, begun⟩ := c.begin_eq
  rw [begun]
  refine ⟨?_, rfl, ?_⟩
  · simp only [Journal.built_cons, Option.toList_none, List.append_nil]
    rfl
  · simp only [Journal.verifications, Journal.shown_cons, List.count_append]
    rfl

/-! ## Steps and runs -/

/-- An action that numbers nothing notes only what is silent. -/
theorem silent_of_may {o : Occurrence} (plain : a.numbered? = none) (may : May c a o) :
    o.silent := by
  cases o with
  | built =>
    obtain ⟨payload, numbered, -⟩ := may
    cases plain.symm.trans numbered
  | entered phase =>
    cases phase with
    | verifying =>
      obtain ⟨-, rfl⟩ := may
      cases plain
    | idle | connecting | connected | disconnected | shutdown => rfl
  | dialled | opened | closed | wrote | heard | posted | answered | accepted | refused | left
  | returned => rfl

theorem numbering_of_happens (plain : a.numbered? = none) (h : Happens c a d) :
    d.numbering = c.numbering := by
  cases h with
  | connected | send | build => cases plain
  | start | heedAlone | heed | expireSession | expirePause | learn | learnFailure | desert | take
  | advance | collect | hearNothing | ended | readFailed | wrote | release | elapse => rfl
  | expireDial | refused => rw [lose_eq]
  | halt | flushed | writeFailed => simp only [halt, deliver_eq]
  | @close k ending =>
    cases ending with
    | shutdown => rfl
    | lost verified failure =>
      rw [close, lose_eq]
      rfl
  | hearVersion =>
    rw [postAll_eq, reply_eq]
    rfl
  | hear =>
    rw [postAll_eq]
    rfl
  | sendPacket packet => exact numbering_submit c packet
  | disconnect => rw [disconnect_eq]

/-- **A step numbers what its action has numbered**, and asks a console for its version where it
finds a new connection. -/
theorem stamps_of_happens (h : Happens c a d) :
    Stamps c a.numbered?.toList ([a].count (.signal .connected)) d := by
  by_cases plain : a.numbered? = none
  · have alone : a ≠ .signal .connected := by
      rintro rfl
      cases plain
    have stamps : Stamps c [] 0 d := stamps_of_notes
      ((notes_of_happens h).mono fun _ => silent_of_may plain) (numbering_of_happens plain h)
    rwa [plain, List.count_singleton, if_neg (by simpa using alone)]
  · cases h with
    | connected => exact stamps_begin c
    | send payload => exact (stamps_build c payload).trans (stamps_submit _ _)
    | build payload => exact stamps_build c payload
    | _ => exact absurd rfl plain

/-- **A run numbers what its actions have numbered**, one after another. -/
theorem stamps_of_run? {actions : List Action} (run : c.run? actions = some d) :
    Stamps c (actions.filterMap Action.numbered?) (actions.count (.signal .connected)) d := by
  induction actions generalizing c with
  | nil =>
    cases run
    exact stamps_of_notes (notes_nothing rfl) rfl
  | cons a actions ih =>
    obtain ⟨next, happened, run⟩ := Option.bind_eq_some_iff.1 run
    have both := (stamps_of_happens (happens_of_step? happened)).trans (ih run)
    rwa [filterMap_cons_toList, ← List.singleton_append, List.count_append]

/-! ## Clients side by side -/

/-- Several clients, and several numberings that belong to none of them. -/
structure Ensemble (ι κ : Type) where
  clients : ι → Client
  numberings : κ → Numbering

namespace Ensemble

variable {ι κ : Type}

/-- What can happen in an ensemble. -/
inductive Turn (ι κ : Type) where
  /-- Something happens to one of the clients. -/
  | client (i : ι) (a : Action)
  /-- One of the other numberings stamps a payload. -/
  | numbering (j : κ) (payload : Payload)

/-- No client has done anything yet. -/
def start (policy : ι → Policy) (numberings : κ → Numbering) : Ensemble ι κ :=
  ⟨fun i => .start (policy i), numberings⟩

variable [DecidableEq ι] [DecidableEq κ]

/-- What a turn does to one client. -/
def Turn.own? (i : ι) : Turn ι κ → Option Action
  | .client l a => if l = i then some a else none
  | .numbering _ _ => none

/-- The ensemble after a turn. -/
def step? (w : Ensemble ι κ) : Turn ι κ → Option (Ensemble ι κ)
  | .client i a => ((w.clients i).step? a).map fun c =>
    { w with clients := Function.update w.clients i c }
  | .numbering j payload => some { w with
      numberings := Function.update w.numberings j ((w.numberings j).stamp payload).2 }

/-- The ensemble after several turns. -/
def run? (w : Ensemble ι κ) (turns : List (Turn ι κ)) : Option (Ensemble ι κ) :=
  turns.foldlM step? w

variable {w v : Ensemble ι κ}

theorem step?_own {turn : Turn ι κ} (h : w.step? turn = some v) (i : ι) :
    (w.clients i).run? (turn.own? i).toList = some (v.clients i) := by
  cases turn with
  | numbering j payload => cases h; rfl
  | client l a =>
    obtain ⟨c, happened, rfl⟩ := Option.map_eq_some_iff.1 h
    by_cases own : l = i
    · subst own
      simp only [Turn.own?, if_true, Option.toList_some, Function.update_self]
      exact Option.bind_eq_some_iff.2 ⟨c, happened, rfl⟩
    · simp only [Turn.own?, if_neg own, Option.toList_none,
        Function.update_of_ne (Ne.symm own)]
      rfl

/-- **Each client meets only its own actions.** -/
theorem run?_own {turns : List (Turn ι κ)} (run : w.run? turns = some v) (i : ι) :
    (w.clients i).run? (turns.filterMap (Turn.own? i)) = some (v.clients i) := by
  induction turns generalizing w with
  | nil => cases run; rfl
  | cons turn turns ih =>
    obtain ⟨next, happened, run⟩ := Option.bind_eq_some_iff.1 run
    rw [filterMap_cons_toList, run?_append, step?_own happened i]
    exact ih run

/-- **One sequence of ids for each client**, whatever its callers and other clients do. Each client
has numbered the payloads of its own actions, in their order; among these is the request of every
session that shows it asks for the version. The `k`-th packet, counted from one, has the id `k`
modulo 256, and the address of its family. -/
theorem ids_in_order {policy : ι → Policy} {numberings : κ → Numbering} {turns : List (Turn ι κ)}
    (run : (start policy numberings).run? turns = some w) (i : ι) :
    (w.clients i).journal.built.map Packet.payload =
        (turns.filterMap (Turn.own? i)).filterMap Action.numbered? ∧
      (w.clients i).journal.shown.count .verifying =
        (turns.filterMap (Turn.own? i)).count (.signal .connected) ∧
      ∀ k packet, (w.clients i).journal.built[k]? = some packet →
        packet.id.toNat = (k + 1) % 256 ∧
          (packet.payload.family = .control → packet.address = 0x80B0) ∧
          (packet.payload.family = .extended → packet.address = 0x90B0) := by
  obtain ⟨built, -, asked⟩ := stamps_of_run? (run?_own run i)
  have built : (w.clients i).journal.built = (Numbering.start.stampAll
      ((turns.filterMap (Turn.own? i)).filterMap Action.numbered?)).1 := built
  refine ⟨?_, asked.trans (Nat.zero_add _), fun k packet found => ?_⟩
  · rw [built, Numbering.payloads_stampAll]
  · rw [built] at found
    obtain ⟨id, address⟩ := Numbering.getElem?_stampAll _ found
    refine ⟨?_, fun family => ?_, fun family => ?_⟩
    · rw [id, Nat.add_comm k]
      show (1 + UInt8.ofNat k).toNat = _
      rw [UInt8.toNat_add, UInt8.toNat_ofNat', Nat.add_mod_mod]
      rfl
    · rw [address, family]
      rfl
    · rw [address, family]
      rfl

/-- A call without a connection, a session whose request is not written, and another one in which a
packet is built, while a second client and a numbering of nobody take ids, too. -/
def interleaved : List (Turn Bool Unit) :=
  [.client true (.move .start), .client true (.request (.send .acStatusRequest)),
    .client false (.move .start), .client true (.signal .connected), .numbering () .versionRequest,
    .client true (.request (.sendPacket ⟨0x80B0, 77, .acStatusRequest⟩)),
    .client false (.signal .connected), .client true (.move .take),
    .client true (.signal (.writeFailed "broken pipe")), .client true (.move .learn),
    .client false (.request (.build (.zoneNameRequest none))), .client true (.move .close),
    .client true (.elapse 5000), .client true (.move .expire), .client true (.signal .connected),
    .client true (.request (.build .zoneStatusRequest))]

theorem ids_in_order_interleaved :
    ∃ w : Ensemble Bool Unit,
      (start (fun _ => { failFast := false }) fun _ => .start).run? interleaved = some w ∧
      (w.clients true).journal.built =
        [⟨0x80B0, 1, .acStatusRequest⟩, ⟨0x90B0, 2, .versionRequest⟩, ⟨0x90B0, 3, .versionRequest⟩,
          ⟨0x80B0, 4, .zoneStatusRequest⟩] ∧
      (w.clients true).journal.shown.count .verifying = 2 ∧
      ∀ k packet, (w.clients true).journal.built[k]? = some packet →
        packet.id.toNat = (k + 1) % 256 := by
  have runs : ((start (fun _ => { failFast := false }) fun _ => .start).run? interleaved).map
      (fun w => (w.clients true).journal.built) =
        some [⟨0x80B0, 1, .acStatusRequest⟩, ⟨0x90B0, 2, .versionRequest⟩,
          ⟨0x90B0, 3, .versionRequest⟩, ⟨0x80B0, 4, .zoneStatusRequest⟩] := by decide +kernel
  obtain ⟨w, run, built⟩ := Option.map_eq_some_iff.1 runs
  obtain ⟨-, asked, ids⟩ := ids_in_order run true
  exact ⟨w, run, built, asked, fun k packet found => (ids k packet found).1⟩

end Ensemble

end Client

end ClimateLink
