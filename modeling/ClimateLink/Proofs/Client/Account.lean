import ClimateLink.Proofs.Client.Cases
import ClimateLink.Proofs.Framer.Cuts

/-!
# Accounts of sessions

A session waits for the version, talks, and is over. `Account` says what this means for the bytes
that came in on its connection, for what was posted and for what was shown, whatever the reads were.

- `Account.hearNothing`, `Account.hearVersion`, `Account.hear`: what comes in, read by read.
- `Account.fail`, `Account.lose`, `Account.again`, `Account.show`: what is posted and shown without
  it.
- `Stage.Agrees`: what the stage of a client says about its session.
-/

namespace ClimateLink

open Framer

/-! ## Accounts -/

/-- How far the session of a connection has come. -/
inductive Course where
  /-- The version has not come in. -/
  | unverified
  /-- The session is verified. -/
  | talking
  /-- The session is over and was not verified. -/
  | failed
  /-- The session was verified, and its loss is posted. -/
  | lost
  deriving DecidableEq, Repr

/-- Whether the session is over, and nothing more is to be said about it. -/
def Course.Over (course : Course) : Prop := course = .failed ∨ course = .lost

/-- The packets before the first version, the version, and the packets behind it. -/
structure Split (packets before : List Packet) (version : Packet) (after : List Packet) :
    Prop where
  parts : packets = before ++ version :: after
  passed : ∀ p ∈ before, !p.payload.isVersion
  isVersion : version.payload.isVersion

theorem Split.dropWhile_eq {packets before after : List Packet} {version : Packet}
    (h : Split packets before version after) :
    packets.dropWhile (fun p => !p.payload.isVersion) = version :: after := by
  rw [h.parts, List.dropWhile_append_of_pos h.passed,
    List.dropWhile_cons_of_neg (by simp [h.isVersion])]

theorem Split.unique {packets before before' after after' : List Packet} {version version' : Packet}
    (h : Split packets before version after) (h' : Split packets before' version' after') :
    version = version' ∧ after = after' :=
  List.cons.inj (h.dropWhile_eq.symm.trans h'.dropWhile_eq)

theorem Split.not_passed {packets before after : List Packet} {version : Packet}
    (h : Split packets before version after) : ¬∀ p ∈ packets, !p.payload.isVersion := by
  intro passed
  have := passed version (by simp [h.parts])
  simp [h.isVersion] at this

/-- What came in on a connection, what was posted and what was shown in its span fit together. -/
inductive Account (heard : Bytes) (posted : List Event) (shown : List Phase) : Course → Prop
  | unverified (passed : ∀ p ∈ (empty.push heard).1, !p.payload.isVersion) (silent : posted = [])
    (hidden : .connected ∉ shown) (kept : .disconnected ∉ shown) :
    Account heard posted shown .unverified
  | talking {before after : List Packet} {version : Packet}
    (split : Split (empty.push heard).1 before version after)
    (told : posted = .connected :: after.map .packet) (kept : .disconnected ∉ shown) :
    Account heard posted shown .talking
  | failed (passed : ∀ p ∈ (empty.push heard).1, !p.payload.isVersion) (silent : posted = [])
    (hidden : .connected ∉ shown) : Account heard posted shown .failed
  | lost {before after : List Packet} {version : Packet}
    (split : Split (empty.push heard).1 before version after)
    (told : posted = .connected :: (after.map .packet ++ [.disconnected]))
    (gone : .disconnected ∈ shown) : Account heard posted shown .lost

section Accounts

variable {heard : Bytes} {posted : List Event} {shown more : List Phase} {course : Course}

/-- Nothing happens to an account while other states are shown. -/
theorem Account.show (h : Account heard posted shown course) (hidden : .connected ∉ more)
    (kept : .disconnected ∉ more) : Account heard posted (shown ++ more) course := by
  cases h with
  | unverified passed silent unshown held =>
    exact .unverified passed silent (by simp [unshown, hidden]) (by simp [held, kept])
  | talking split told held => exact .talking split told (by simp [held, kept])
  | failed passed silent unshown => exact .failed passed silent (by simp [unshown, hidden])
  | lost split told gone => exact .lost split told (by simp [gone])

/-- A session that is not verified is over when the loss of the connection is shown. -/
theorem Account.fail (h : Account heard posted shown .unverified) :
    Account heard posted (shown ++ [.disconnected]) .failed := by
  cases h with
  | unverified passed silent hidden => exact .failed passed silent (by simp [hidden])

/-- A verified session is lost when that is posted and shown. -/
theorem Account.lose (h : Account heard posted shown .talking) :
    Account heard (posted ++ [.disconnected]) (shown ++ [.disconnected]) .lost := by
  cases h with
  | talking split told => exact .lost split (by rw [told, List.cons_append]) (by simp)

theorem Account.again (h : Account heard posted shown course)
    (ended : course.Over) :
    Account heard posted (shown ++ [.disconnected]) course := by
  cases h with
  | unverified | talking => rcases ended with ended | ended <;> cases ended
  | failed passed silent hidden => exact .failed passed silent (by simp [hidden])
  | lost split told => exact .lost split told (by simp)

theorem Account.hearNothing (h : Account heard posted shown .unverified) {chunk : Bytes}
    (passed : ∀ p ∈ ((empty.push heard).2.push chunk).1, !p.payload.isVersion) :
    Account (heard ++ chunk) posted shown .unverified := by
  cases h with
  | unverified before silent hidden kept =>
    refine .unverified ?_ silent hidden kept
    rw [push_append]
    exact List.forall_mem_append.2 ⟨before, passed⟩

/-- The version, perhaps with packets before it and behind it. -/
theorem Account.hearVersion (h : Account heard posted shown .unverified) {chunk : Bytes}
    {before after : List Packet} {version : Packet}
    (split : Split ((empty.push heard).2.push chunk).1 before version after) :
    Account (heard ++ chunk) (.connected :: after.map .packet) (shown ++ [.connected])
      .talking := by
  cases h with
  | unverified passed silent hidden kept =>
    have whole : Split (empty.push (heard ++ chunk)).1 ((empty.push heard).1 ++ before) version
        after := by
      refine ⟨?_, List.forall_mem_append.2 ⟨passed, split.passed⟩, split.isVersion⟩
      rw [push_append, split.parts, List.append_assoc]
    exact .talking whole rfl (by simp [kept])

theorem Account.hear (h : Account heard posted shown .talking) (chunk : Bytes) :
    Account (heard ++ chunk)
      (posted ++ ((empty.push heard).2.push chunk).1.map .packet) shown .talking := by
  cases h with
  | @talking before after version split told kept =>
    have whole : Split (empty.push (heard ++ chunk)).1 before version
        (after ++ ((empty.push heard).2.push chunk).1) := by
      refine ⟨?_, split.passed, split.isVersion⟩
      rw [push_append, split.parts, List.append_assoc, List.cons_append]
    refine .talking whole ?_ kept
    rw [told, List.map_append, List.cons_append]

end Accounts

/-! ## What the stage says -/

/-- The connection of the session, until it is closed. -/
def Stage.connection? : Stage → Option Nat
  | .asking k _ | .verifying k _ | .running k _ | .closing k _ => some k
  | _ => none

/-- What the stage says about the latest connection. -/
def Stage.Agrees : Stage → (heard : Bytes) → Course → Prop
  | .idle, _, _ => False
  | .stopped, _, _ => True
  | .asking _ _, heard, course => heard = [] ∧ course = .unverified
  | .verifying _ framer, heard, course =>
    framer = (empty.push heard).2 ∧ course = .unverified
  | .running _ framer, heard, course => framer = (empty.push heard).2 ∧ course = .talking
  | .closing _ .shutdown, _, course => course = .unverified ∨ course = .talking
  | .closing _ (.lost verified _), _, course =>
    course = if verified then .talking else .unverified
  | .dialing, _, course | .pausing, _, course => course.Over

/-- A session that goes on is verified or not. -/
theorem Stage.Agrees.course {s : Stage} {k : Nat} {heard : Bytes} {course : Course}
    (session : s.session? = some k) (agreed : s.Agrees heard course) :
    course = if s.unverified?.isSome then .unverified else .talking := by
  cases s with
  | idle | dialing | closing | pausing | stopped => cases session
  | asking | verifying | running => exact agreed.2

theorem Stage.Agrees.not_ended {s : Stage} {k : Nat} {heard : Bytes} {course : Course}
    (held : s.connection? = some k) (agreed : s.Agrees heard course) : ¬course.Over := by
  have still (h : course = .unverified ∨ course = .talking) : ¬course.Over := by
    rcases h with rfl | rfl <;> rintro (ended | ended) <;> cases ended
  cases s with
  | idle | dialing | pausing | stopped => cases held
  | asking | verifying => exact still (.inl agreed.2)
  | running => exact still (.inr agreed.2)
  | closing _ ending =>
    rcases ending with _ | ⟨_ | _, _⟩
    · exact still agreed
    · exact still (.inl agreed)
    · exact still (.inr agreed)

/-- Where no connection is open and the client goes on, the last session is over. -/
theorem Stage.Agrees.ended {s : Stage} {heard : Bytes} {course : Course}
    (closed : s.connection? = none) (running : s ≠ .stopped) (agreed : s.Agrees heard course) :
    course.Over := by
  cases s with
  | idle => exact agreed.elim
  | dialing | pausing => exact agreed
  | stopped => exact absurd rfl running
  | asking | verifying | running | closing => cases closed

theorem Stage.connection?_of_session? {s : Stage} {k : Nat} (session : s.session? = some k) :
    s.connection? = some k := by
  cases s with
  | idle | dialing | closing | pausing | stopped => cases session
  | asking | verifying | running => exact session

theorem Stage.session?_of_unverified? {s : Stage} {k : Nat} (unverified : s.unverified? = some k) :
    s.session? = some k := by
  cases s with
  | idle | dialing | running | closing | pausing | stopped => cases unverified
  | asking | verifying => exact unverified

/-- The client reads on the connection of the session, and knows whether it is verified. -/
theorem Client.session?_of_reading {c : Client} {k : Nat} (reading : c.reading = some k) :
    c.stage.session? = some k ∧ c.stage.unverified?.isSome = !c.verified := by
  unfold Client.reading at reading
  split at reading
  · next stage =>
    rw [stage, Client.verified, stage]
    exact ⟨reading, rfl⟩
  · next stage =>
    rw [stage, Client.verified, stage]
    exact ⟨reading, rfl⟩
  · cases reading

end ClimateLink
