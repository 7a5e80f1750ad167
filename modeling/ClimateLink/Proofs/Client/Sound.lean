import ClimateLink.Proofs.Client.Handling
import ClimateLink.Proofs.Client.Pending

/-!
# Sessions and their outboxes

A session has the outbox of its connection, and takes frames only as long as it goes on. A writer
that has failed has no frame in hand. A connection that is not open yet has had nothing accepted or
written.

**Theorem (`Reachable.sound`).** This is so in every client that can be reached.
-/

namespace ClimateLink.Client

/-- What connects the stage, the outbox and the connections of a client. -/
structure Sound (c : Client) : Prop where
  session : ∀ k, c.stage.session? = some k → ∃ box, c.outbox = some box ∧ box.connection = k
  live : ∀ k, c.live = some k → c.stage.session? = some k
  opened : ∀ box, c.outbox = some box → box.connection < c.connections
  failed : ∀ box, c.outbox = some box → box.failure ≠ none → box.inHand = none
  unused : ∀ k, c.connections ≤ k → c.journal.accepted k = [] ∧ c.journal.wire k = []

variable {c d : Client}

theorem sound_start (policy : Policy) : Sound (.start policy) where
  session _ h := nomatch h
  live _ h := nomatch h
  opened _ h := nomatch h
  failed _ h := nomatch h
  unused _ _ := ⟨rfl, rfl⟩

theorem Sound.sameFrames (sound : Sound c) (frames : SameFrames c d) : Sound d where
  session k h := by
    rcases frames.session with gone | ⟨same, outbox⟩
    · rw [gone] at h
      cases h
    · rw [outbox]
      exact sound.session k (same ▸ h)
  live k h := by
    rcases frames.live with gone | taken | ⟨same, session⟩
    · rw [gone] at h
      cases h
    · rw [← taken, h]
    · rw [session]
      exact sound.live k (same ▸ h)
  opened box h := by
    rcases frames.outbox with gone | same
    · rw [gone] at h
      cases h
    · rw [frames.connections]
      exact sound.opened box (same ▸ h)
  failed box h := by
    rcases frames.outbox with gone | same
    · rw [gone] at h
      cases h
    · exact sound.failed box (same ▸ h)
  unused k h := by
    rw [frames.accepted, frames.wire]
    exact sound.unused k (frames.connections ▸ h)

/-! ## Changes of an outbox -/

/-- The outbox is replaced by another one of the same connection, and the rest stays, except for
what has been accepted and written on this connection. -/
structure Replaces (c d : Client) (box next : Outbox) : Prop where
  before : c.outbox = some box
  after : d.outbox = some next
  connection : next.connection = box.connection
  failed : next.failure ≠ none → next.inHand = none
  session : d.stage.session? = c.stage.session?
  live : d.live = c.live
  connections : d.connections = c.connections
  elsewhere : ∀ k, k ≠ box.connection →
    d.journal.accepted k = c.journal.accepted k ∧ d.journal.wire k = c.journal.wire k

theorem Sound.replaces {box next : Outbox} (sound : Sound c) (h : Replaces c d box next) :
    Sound d where
  session k hk := by
    obtain ⟨old, outbox, connection⟩ := sound.session k (h.session ▸ hk)
    cases h.before.symm.trans outbox
    exact ⟨next, h.after, h.connection.trans connection⟩
  live k hk := by
    rw [h.session]
    exact sound.live k (h.live ▸ hk)
  opened new hnew := by
    cases h.after.symm.trans hnew
    rw [h.connection, h.connections]
    exact sound.opened box h.before
  failed new hnew := by
    cases h.after.symm.trans hnew
    exact h.failed
  unused k hk := by
    rw [h.connections] at hk
    have older := Nat.lt_of_lt_of_le (sound.opened box h.before) hk
    have other : k ≠ box.connection := Nat.ne_of_gt older
    rw [(h.elsewhere k other).1, (h.elsewhere k other).2]
    exact sound.unused k hk

theorem session?_told (stage : Stage) (outcomes : List (Sender × Outcome)) :
    (told stage outcomes).session? = stage.session? := by
  rcases told_cases stage outcomes with same | ⟨k, before, after, rfl, told⟩
  · rw [same]
  · rw [told]
    rfl

theorem Sound.working (sound : Sound c) {box : Outbox} (outbox : c.outbox = some box)
    {hand : Job × Bytes} (inHand : box.inHand = some hand) : box.failure = none := by
  by_contra failed
  have none := sound.failed box outbox failed
  rw [inHand] at none
  cases none

theorem replaces_move {m : Move} {box next : Outbox} (outbox : c.outbox = some box)
    (sound : Sound c)
    (moved : box.take = some next ∨ ∃ i, m = .advance i ∧ box.advance i = some next) :
    Replaces c { c with outbox := some next } box next := by
  have same : next.connection = box.connection ∧ (next.failure ≠ none → next.inHand = none) := by
    rcases moved with taken | ⟨i, -, advanced⟩
    · obtain ⟨working, -, job, rest, -, rfl⟩ := Outbox.take_eq_some taken
      exact ⟨rfl, fun failed => absurd working failed⟩
    · obtain ⟨job, before, behind, -, -, -, rfl⟩ := Outbox.advance_eq_some advanced
      exact ⟨rfl, sound.failed box outbox⟩
  exact ⟨outbox, rfl, same.1, same.2, rfl, rfl, rfl, fun _ _ => ⟨rfl, rfl⟩⟩

theorem replaces_write {n : Nat} {box next : Outbox} {bytes : Bytes} (outbox : c.outbox = some box)
    (sound : Sound c) (written : box.write n = some (next, bytes)) :
    Replaces c ({ c with outbox := some next }.note (.wrote next.connection bytes)) box next := by
  obtain ⟨job, rest, inHand, -, -, -, rfl⟩ := Outbox.write_eq_some written
  refine ⟨outbox, rfl, rfl, fun failed => ?_, rfl, rfl, rfl, fun k other => ⟨?_, ?_⟩⟩
  · exact absurd (sound.working outbox inHand) failed
  · simp [note]
  · simp [note, Ne.symm other]

theorem replaces_deliver {box next : Outbox} (outbox : c.outbox = some box)
    (same : next.connection = box.connection ∧ next.inHand = none)
    (outcomes : List (Sender × Outcome)) :
    Replaces c ({ c with outbox := some next }.deliver outcomes) box next := by
  rw [deliver_eq]
  exact ⟨outbox, rfl, same.1, fun _ => same.2, session?_told .., rfl, rfl, fun _ _ => ⟨rfl, rfl⟩⟩

theorem replaces_flush {box next : Outbox} {sender : Sender} (outbox : c.outbox = some box)
    (done : box.flush = some (next, sender)) :
    Replaces c ({ c with outbox := some next }.deliver [(sender, .ok ())]) box next := by
  refine replaces_deliver outbox ?_ _
  obtain ⟨job, -, -, rfl⟩ := Outbox.flush_eq_some done
  exact ⟨rfl, rfl⟩

theorem replaces_fail {reason : String} {box next : Outbox} {outcomes : List (Sender × Outcome)}
    (outbox : c.outbox = some box) (failed : box.fail reason = some (next, outcomes)) :
    Replaces c ({ c with outbox := some next }.deliver outcomes) box next := by
  refine replaces_deliver outbox ?_ _
  obtain ⟨job, rest, -, -, rfl⟩ := Outbox.fail_eq_some failed
  exact ⟨rfl, rfl⟩

theorem replaces_accept {k : Nat} {frame : Bytes} {box next : Outbox} (sound : Sound c)
    (live : c.live = some k) (outbox : c.outbox = some box)
    (queued : box.submit ⟨.call c.tickets, frame⟩ = some next) :
    box.connection = k ∧
    Replaces c ({ c with outbox := some next, tickets := c.tickets + 1 }.note
      (.accepted c.tickets k frame)) box next := by
  obtain ⟨old, known, connection⟩ := sound.session k (sound.live k live)
  cases outbox.symm.trans known
  have same : next.connection = box.connection ∧ next.failure = none := by
    obtain ⟨working, ⟨-, rfl⟩ | rfl⟩ := Outbox.submit_eq_some queued
    · exact ⟨rfl, working⟩
    · exact ⟨rfl, working⟩
  refine ⟨connection, outbox, rfl, same.1, fun failed => ?_, rfl, rfl, rfl, fun l other => ?_⟩
  · exact absurd same.2 failed
  · simp [note, ← connection, Ne.symm other]

/-! ## Every step -/

theorem sound_begin (sound : Sound c) (stage : c.stage = .dialing) : Sound c.begin := by
  obtain ⟨frame, -, opened⟩ := c.begin_eq
  rw [opened]
  refine ⟨?_, ?_, ?_, ?_, ?_⟩
  · intro k h
    cases h
    exact ⟨_, rfl, rfl⟩
  · intro k h
    have going := sound.live k h
    rw [stage] at going
    cases going
  · intro box h
    cases h
    exact Nat.lt_succ_self _
  · intro box h failed
    cases h
    rfl
  · intro k h
    simpa using sound.unused k (Nat.le_of_succ_le h)

theorem sound_halt (sound : Sound c) (gone : c.stage.session? = none)
    (outcomes : List (Sender × Outcome)) : Sound ({ c with outbox := none }.deliver outcomes) := by
  rw [deliver_eq]
  refine ⟨?_, ?_, ?_, ?_, sound.unused⟩
  · intro k h
    rw [session?_told, gone] at h
    cases h
  · intro k h
    rw [session?_told]
    exact sound.live k h
  · intro box h
    cases h
  · intro box h
    cases h

theorem sound_of_handles {a : Action} (sound : Sound c) (h : Handles c a d) : Sound d := by
  cases h with
  | nothing frames => exact sound.sameFrames frames
  | opens stage => exact sound_begin sound stage
  | joins =>
    rw [disconnect_eq]
    exact ⟨sound.session, sound.live, sound.opened, sound.failed, by simpa using sound.unused⟩
  | moves outbox moved => exact sound.replaces (replaces_move outbox sound moved)
  | writes outbox written => exact sound.replaces (replaces_write outbox sound written)
  | finishes outbox done => exact sound.replaces (replaces_flush outbox done)
  | fails outbox failed => exact sound.replaces (replaces_fail outbox failed)
  | halts gone => exact sound_halt sound gone _
  | accepts frames same sends encoded live outbox queued =>
    have built := sound.sameFrames frames
    exact built.replaces (replaces_accept built live outbox queued).2

/-- **Every client that can be reached is sound.** -/
theorem Reachable.sound {policy : Policy} (h : Reachable policy c) : Sound c :=
  h.induction (sound_start policy) fun sound happened =>
    sound_of_handles sound (handles_of_happens happened)

end ClimateLink.Client
