import ClimateLink.Proofs.Client.Effects
import Mathlib.Data.List.TakeWhile

/-!
# Everything that can happen to a client

`Client.Happens` lists the steps of a client one by one, each with what must hold before it and the
client after it. What is claimed of every run is proved by going through this list.

**Theorem (`happens_of_step?`).** The list is complete.

**Theorem (`Reachable.induction`).** What holds at the start, and goes on holding whatever happens,
holds of every client that can be reached.
-/

namespace ClimateLink

/-- The connection of the session, as long as it goes on. -/
def Stage.session? : Stage → Option Nat
  | .asking k _ | .verifying k _ | .running k _ => some k
  | _ => none

/-- The connection of a session that is not verified. -/
def Stage.unverified? : Stage → Option Nat
  | .asking k _ | .verifying k _ => some k
  | _ => none

namespace Client

/-- What one read can give. -/
def Readable (c : Client) (chunk : Bytes) : Prop :=
  0 < chunk.length ∧ chunk.length ≤ c.policy.chunk

/-- In the client `c`, the action can happen and gives the client that comes last. -/
inductive Happens (c : Client) : Action → Client → Prop where
  | start (stage : c.stage = .idle) : Happens c (.move .start) c.dial
  /-- It is told to stop while it has no connection. -/
  | heedAlone (told : c.stopping) (stage : c.stage = .dialing ∨ c.stage = .pausing) :
    Happens c (.move .heed) c.stop
  | heed {k : Nat} (told : c.stopping) (stage : c.stage.session? = some k) :
    Happens c (.move .heed) (c.leave k .shutdown)
  | expireDial (due : c.due) (stage : c.stage = .dialing) :
    Happens c (.move .expire) (c.lose false .connectTimeout)
  | expireSession {k : Nat} (due : c.due) (stage : c.stage.unverified? = some k) :
    Happens c (.move .expire) (c.leave k (.lost false (.unverified c.policy.verifyTimeout)))
  | expirePause (due : c.due) (stage : c.stage = .pausing) : Happens c (.move .expire) c.dial
  | learn {k : Nat} (stage : c.stage = .asking k (some (.ok ()))) :
    Happens c (.move .learn) { c with stage := .verifying k .empty }
  | learnFailure {k : Nat} {failure : Failure}
    (stage : c.stage = .asking k (some (.error failure))) :
    Happens c (.move .learn) (c.leave k (.lost false failure))
  | desert {k : Nat} {framer : Framer} {box : Outbox} {reason : String}
    (stage : c.stage = .running k framer) (outbox : c.outbox = some box)
    (failed : box.failure = some reason) :
    Happens c (.move .desert) (c.leave k (.lost true (.stream reason)))
  | halt {k : Nat} {ending : Ending} (stage : c.stage = .closing k ending) (writing : c.writing) :
    Happens c (.move .halt) c.halt
  | close {k : Nat} {ending : Ending} (stage : c.stage = .closing k ending)
    (finished : ¬c.writing) : Happens c (.move .close) (c.close k ending)
  | take {box after : Outbox} (outbox : c.outbox = some box) (taken : box.take = some after) :
    Happens c (.move .take) { c with outbox := some after }
  | advance {i : Nat} {box after : Outbox} (outbox : c.outbox = some box)
    (advanced : box.advance i = some after) :
    Happens c (.move (.advance i)) { c with outbox := some after }
  | collect {ticket : Nat} {outcome : Outcome}
    (known : c.decided.find? (fun d => d.1 == ticket) = some (ticket, outcome)) :
    Happens c (.move (.collect ticket))
      ({ c with decided := c.decided.eraseP fun d => d.1 == ticket }.note
        (.returned ticket outcome))
  | refused {reason : String} (stage : c.stage = .dialing) :
    Happens c (.signal (.refused reason)) (c.lose false (.stream reason))
  | connected (stage : c.stage = .dialing) : Happens c (.signal .connected) c.begin
  /-- What comes in does not have the version yet. -/
  | hearNothing {k : Nat} {framer : Framer} {chunk : Bytes} (size : c.Readable chunk)
    (stage : c.stage = .verifying k framer)
    (passed : ∀ p ∈ (framer.push chunk).1, !p.payload.isVersion) :
    Happens c (.signal (.received chunk))
      { c.note (.heard k chunk) with stage := .verifying k (framer.push chunk).2 }
  /-- The version comes in, and some packets behind it. -/
  | hearVersion {k : Nat} {framer : Framer} {chunk : Bytes} {before after : List Packet}
    {version : Packet} (size : c.Readable chunk) (stage : c.stage = .verifying k framer)
    (packets : (framer.push chunk).1 = before ++ version :: after)
    (passed : ∀ p ∈ before, !p.payload.isVersion) (isVersion : version.payload.isVersion) :
    Happens c (.signal (.received chunk))
      ((((({ c.note (.heard k chunk) with live := some k }.goTo
        (.running k (framer.push chunk).2)).enter .connected).post .connected).reply
          (.ok ())).postAll after)
  | hear {k : Nat} {framer : Framer} {chunk : Bytes} (size : c.Readable chunk)
    (stage : c.stage = .running k framer) :
    Happens c (.signal (.received chunk))
      ({ c.note (.heard k chunk) with stage := .running k (framer.push chunk).2 }.postAll
        (framer.push chunk).1)
  | ended {k : Nat} (reading : c.reading = some k) :
    Happens c (.signal .ended) (c.leave k (.lost c.verified .connectionClosed))
  | readFailed {k : Nat} {reason : String} (reading : c.reading = some k) :
    Happens c (.signal (.readFailed reason)) (c.leave k (.lost c.verified (.stream reason)))
  | wrote {n : Nat} {box after : Outbox} {bytes : Bytes} (outbox : c.outbox = some box)
    (written : box.write n = some (after, bytes)) :
    Happens c (.signal (.wrote n))
      ({ c with outbox := some after }.note (.wrote after.connection bytes))
  | flushed {box after : Outbox} {sender : Sender} (outbox : c.outbox = some box)
    (done : box.flush = some (after, sender)) :
    Happens c (.signal .flushed) ({ c with outbox := some after }.deliver [(sender, .ok ())])
  | writeFailed {reason : String} {box after : Outbox} {outcomes : List (Sender × Outcome)}
    (outbox : c.outbox = some box) (failed : box.fail reason = some (after, outcomes)) :
    Happens c (.signal (.writeFailed reason)) ({ c with outbox := some after }.deliver outcomes)
  | send (payload : Payload) (held : c.held) :
    Happens c (.request (.send payload)) ((c.build payload).2.submit (c.build payload).1)
  | sendPacket (packet : Packet) (held : c.held) :
    Happens c (.request (.sendPacket packet)) (c.submit packet)
  | build (payload : Payload) (held : c.held) :
    Happens c (.request (.build payload)) (c.build payload).2
  | disconnect (held : c.held) : Happens c (.request .disconnect) c.disconnect
  | release (held : c.held) :
    Happens c (.request .release) { c with stopping := true, released := true }
  | elapse {ms : Nat} (some : 0 < ms) (rest : c.atRest) (soon : c.deadline.all (c.clock + ms ≤ ·)) :
    Happens c (.elapse ms) { c with clock := c.clock + ms }

/-! ## The list is complete -/

variable {c d : Client}

theorem happens_of_move? {m : Move} (h : c.move? m = some d) : Happens c (.move m) d := by
  cases m with
  | start =>
    obtain ⟨stage, h⟩ := Option.ite_none_right_eq_some.1 h
    cases h
    exact .start stage
  | heed =>
    obtain ⟨told, h⟩ := Option.ite_none_right_eq_some.1 h
    unfold Client.heed at h
    split at h
    · next stage => cases h; exact .heedAlone told (.inl stage)
    · next stage => cases h; exact .heedAlone told (.inr stage)
    · next stage => cases h; exact .heed told (congrArg Stage.session? stage)
    · next stage => cases h; exact .heed told (congrArg Stage.session? stage)
    · next stage => cases h; exact .heed told (congrArg Stage.session? stage)
    · cases h
  | expire =>
    obtain ⟨due, h⟩ := Option.ite_none_right_eq_some.1 h
    unfold Client.expire at h
    split at h
    · next stage => cases h; exact .expireDial due stage
    · next stage => cases h; exact .expireSession due (congrArg Stage.unverified? stage)
    · next stage => cases h; exact .expireSession due (congrArg Stage.unverified? stage)
    · next stage => cases h; exact .expirePause due stage
    · cases h
  | learn =>
    change c.learn = some d at h
    unfold Client.learn at h
    split at h
    · next stage => cases h; exact .learn stage
    · next stage => cases h; exact .learnFailure stage
    · cases h
  | desert =>
    simp only [move?] at h
    split at h
    · next stage failed =>
      obtain ⟨box, outbox, failed⟩ := Option.bind_eq_some_iff.1 failed
      cases h
      exact .desert stage outbox failed
    · cases h
  | halt =>
    simp only [move?] at h
    split at h
    · next stage =>
      obtain ⟨writing, h⟩ := Option.ite_none_right_eq_some.1 h
      cases h
      exact .halt stage writing
    · cases h
  | close =>
    simp only [move?] at h
    split at h
    · next stage =>
      obtain ⟨finished, h⟩ := Option.ite_none_left_eq_some.1 h
      cases h
      exact .close stage finished
    · cases h
  | take =>
    obtain ⟨after, taken, rfl⟩ := Option.map_eq_some_iff.1 h
    obtain ⟨box, outbox, taken⟩ := Option.bind_eq_some_iff.1 taken
    exact .take outbox taken
  | advance i =>
    obtain ⟨after, advanced, rfl⟩ := Option.map_eq_some_iff.1 h
    obtain ⟨box, outbox, advanced⟩ := Option.bind_eq_some_iff.1 advanced
    exact .advance outbox advanced
  | collect ticket =>
    obtain ⟨⟨found, outcome⟩, known, rfl⟩ := Option.map_eq_some_iff.1 h
    have same : found = ticket := by simpa using List.find?_some known
    subst same
    exact .collect known

theorem happens_of_received {chunk : Bytes} {k : Nat} (size : c.Readable chunk)
    (reading : c.reading = some k) :
    Happens c (.signal (.received chunk)) (c.hear k chunk) := by
  unfold Client.reading at reading
  split at reading
  · next framer stage =>
    cases reading
    -- What is in front of the version is passed over, and what is behind it is posted.
    cases hsplit : (framer.push chunk).1.dropWhile fun p => !p.payload.isVersion with
    | nil =>
      have passed := List.dropWhile_eq_nil_iff.1 hsplit
      have heard : c.hear k chunk =
          { c.note (.heard k chunk) with stage := .verifying k (framer.push chunk).2 } := by
        simp only [hear, note, stage, verify, hsplit]
      rw [heard]
      exact .hearNothing size stage passed
    | cons version after =>
      have packets : (framer.push chunk).1 =
          (framer.push chunk).1.takeWhile (fun p => !p.payload.isVersion) ++ version :: after := by
        rw [← hsplit, List.takeWhile_append_dropWhile]
      have isVersion : version.payload.isVersion := by
        have := List.head?_dropWhile_not (fun p : Packet => !p.payload.isVersion)
          (framer.push chunk).1
        simpa [hsplit] using this
      have heard : c.hear k chunk =
          ((((({ c.note (.heard k chunk) with live := some k }.goTo
            (.running k (framer.push chunk).2)).enter .connected).post .connected).reply
              (.ok ())).postAll after) := by
        simp only [hear, note, stage, verify, hsplit]
      rw [heard]
      refine .hearVersion size stage packets (fun q hq => ?_) isVersion
      exact List.mem_takeWhile_imp (p := fun p : Packet => !p.payload.isVersion) hq
  · next framer stage =>
    cases reading
    have heard : c.hear k chunk =
        { c.note (.heard k chunk) with stage := .running k (framer.push chunk).2 }.postAll
          (framer.push chunk).1 := by
      simp only [hear, note, stage]
    rw [heard]
    exact .hear size stage
  · cases reading

theorem happens_of_signal? {s : Signal} (h : c.signal? s = some d) : Happens c (.signal s) d := by
  cases s with
  | refused reason =>
    obtain ⟨stage, h⟩ := Option.ite_none_right_eq_some.1 h
    cases h
    exact .refused stage
  | connected =>
    obtain ⟨stage, h⟩ := Option.ite_none_right_eq_some.1 h
    cases h
    exact .connected stage
  | received chunk =>
    obtain ⟨size, h⟩ := Option.ite_none_right_eq_some.1 h
    obtain ⟨k, reading, rfl⟩ := Option.map_eq_some_iff.1 h
    exact happens_of_received size reading
  | ended =>
    obtain ⟨k, reading, rfl⟩ := Option.map_eq_some_iff.1 h
    exact .ended reading
  | readFailed reason =>
    obtain ⟨k, reading, rfl⟩ := Option.map_eq_some_iff.1 h
    exact .readFailed reading
  | wrote n =>
    obtain ⟨box, outbox, h⟩ := Option.bind_eq_some_iff.1 h
    obtain ⟨⟨after, bytes⟩, written, h⟩ := Option.bind_eq_some_iff.1 h
    cases h
    exact .wrote outbox written
  | flushed =>
    obtain ⟨box, outbox, h⟩ := Option.bind_eq_some_iff.1 h
    obtain ⟨⟨after, sender⟩, done, h⟩ := Option.bind_eq_some_iff.1 h
    cases h
    exact .flushed outbox done
  | writeFailed reason =>
    obtain ⟨box, outbox, h⟩ := Option.bind_eq_some_iff.1 h
    obtain ⟨⟨after, outcomes⟩, failed, h⟩ := Option.bind_eq_some_iff.1 h
    cases h
    exact .writeFailed outbox failed

theorem happens_of_request? {r : Request} (h : c.request? r = some d) :
    Happens c (.request r) d := by
  obtain ⟨held, h⟩ := Option.ite_none_right_eq_some.1 h
  cases r with
  | send payload => cases h; exact .send payload held
  | sendPacket packet => cases h; exact .sendPacket packet held
  | build payload => cases h; exact .build payload held
  | disconnect => cases h; exact .disconnect held
  | release => cases h; exact .release held

/-- **Nothing else can happen** to a client than what is listed. -/
theorem happens_of_step? {a : Action} (h : c.step? a = some d) : Happens c a d := by
  cases a with
  | move m => exact happens_of_move? h
  | signal s => exact happens_of_signal? h
  | request r => exact happens_of_request? h
  | elapse ms =>
    obtain ⟨⟨some, rest, soon⟩, h⟩ := Option.ite_none_right_eq_some.1 h
    cases h
    exact .elapse some rest soon

/-! ## Runs -/

/-- **What holds at the start and goes on holding whatever happens holds always**. -/
theorem Reachable.induction {policy : Policy} {P : Client → Prop}
    (start : P (.start policy))
    (step : ∀ {c d : Client} {a : Action}, P c → Happens c a d → P d) {c : Client}
    (h : Reachable policy c) : P c := by
  induction h with
  | start => exact start
  | step _ happened ih => exact step ih (happens_of_step? happened)

theorem Reachable.run? {policy : Policy} {actions : List Action} (h : Reachable policy c)
    (run : c.run? actions = some d) : Reachable policy d := by
  induction actions generalizing c with
  | nil => cases run; exact h
  | cons a actions ih =>
    obtain ⟨next, happened, run⟩ := Option.bind_eq_some_iff.1 run
    exact ih (h.step happened) run

theorem run?_append (before after : List Action) :
    c.run? (before ++ after) = (c.run? before).bind fun next => next.run? after :=
  List.foldlM_append

theorem run?_induction {P : Client → Prop}
    (step : ∀ {c d : Client} {a : Action}, P c → Happens c a d → P d)
    {actions : List Action} (start : P c) (h : c.run? actions = some d) : P d := by
  induction actions generalizing c with
  | nil => cases h; exact start
  | cons a actions ih =>
    obtain ⟨next, happened, h⟩ := Option.bind_eq_some_iff.1 h
    exact ih (step start (happens_of_step? happened)) h

/-- The beginning of a run in which the first console takes the request and gives its version. -/
def verification : List Action :=
  [.move .start, .signal .connected, .move .take, .signal (.wrote 14), .signal .flushed,
    .move .learn, .signal (.received [0x55, 0x55, 0x55, 0xAA, 0xB0, 0x90, 0x01, 0x1F, 0x00, 0x05,
      0xFF, 0x30, 0x00, 0x01, 0x31, 0x82, 0xC1])]

end Client

end ClimateLink
