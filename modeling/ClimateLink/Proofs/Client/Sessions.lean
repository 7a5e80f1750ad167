import ClimateLink.Proofs.Client.Cases

/-!
# The events of sessions

What a client posts tells of its sessions: that one is verified, the packets that come in, and
that it is lost. Then comes the next.

**Theorem (`posted_sessions`).** In every run, what has been posted so far is the beginning of such
a report. Each step posts only what comes next in it: nothing outside a verified session, the loss
of one exactly once and before the next, and nothing any more after the client was told to stop.

The proof keeps apart where the report stands (`Telling`) and where the client is (`Stage`). A step
of the client is one step of the report or none; the events follow by induction over the run.
-/

namespace ClimateLink

/-! ## Reports -/

/-- The events of sessions that were verified and lost, one after another. -/
def sessions (received : List (List Packet)) : List Event :=
  received.flatMap fun ps => .connected :: (ps.map .packet ++ [.disconnected])

/-- Where a report stands. -/
inductive Telling where
  /-- No session is verified, and every loss is reported. -/
  | silent
  /-- A session is verified. -/
  | talking
  /-- A verified session is lost, which is still to be reported. -/
  | parting
  /-- The report has ended, because the client was told to stop or never came to a session. -/
  | finished
  deriving DecidableEq, Repr

/-- What is posted on the way from one place of the report to another. -/
inductive Tells : Telling → List Event → Telling → Prop where
  | nothing (t : Telling) : Tells t [] t
  | verified (ps : List Packet) : Tells .silent (.connected :: ps.map .packet) .talking
  | packets (ps : List Packet) : Tells .talking (ps.map .packet) .talking
  | lost : Tells .talking [] .parting
  | reported : Tells .parting [.disconnected] .silent
  | ended {t : Telling} (h : t ≠ .parting) : Tells t [] .finished

/-- What has been posted when the report stands somewhere. -/
def Told (events : List Event) : Telling → Prop
  | .silent => ∃ past, events = sessions past
  | .talking | .parting =>
    ∃ past, ∃ ps : List Packet, events = sessions past ++ .connected :: ps.map .packet
  | .finished => ∃ past, events <+: sessions past

theorem sessions_concat (past : List (List Packet)) (ps : List Packet) :
    sessions (past ++ [ps]) =
      sessions past ++ .connected :: (ps.map .packet ++ [.disconnected]) := by
  simp [sessions]

/-- Wherever a report stands, it is the beginning of one of sessions that were verified and lost. -/
theorem Told.isPrefix {events : List Event} {t : Telling} (h : Told events t) :
    ∃ past, events <+: sessions past := by
  cases t with
  | silent =>
    obtain ⟨past, rfl⟩ := h
    exact ⟨past, List.prefix_refl _⟩
  | talking | parting =>
    obtain ⟨past, ps, rfl⟩ := h
    refine ⟨past ++ [ps], [.disconnected], ?_⟩
    rw [sessions_concat, List.append_assoc, List.cons_append]
  | finished => exact h

theorem Tells.told {events new : List Event} {s t : Telling} (h : Tells s new t)
    (told : Told events s) : Told (events ++ new) t := by
  cases h with
  | nothing => rwa [List.append_nil]
  | verified ps =>
    obtain ⟨past, rfl⟩ := told
    exact ⟨past, ps, rfl⟩
  | packets ps =>
    obtain ⟨past, earlier, rfl⟩ := told
    refine ⟨past, earlier ++ ps, ?_⟩
    rw [List.map_append, List.append_assoc, List.cons_append]
  | lost => rwa [List.append_nil]
  | reported =>
    obtain ⟨past, ps, rfl⟩ := told
    refine ⟨past ++ [ps], ?_⟩
    rw [sessions_concat, List.append_assoc, List.cons_append]
  | ended =>
    rw [List.append_nil]
    exact Told.isPrefix told

/-- Once the report has ended, nothing is posted, whatever happens. -/
theorem Tells.of_finished {new : List Event} {t : Telling} (h : Tells .finished new t) :
    new = [] ∧ t = .finished := by
  cases h with
  | nothing | ended => exact ⟨rfl, rfl⟩

/-! ## The report of a client -/

/-- Where the report of a client stands. -/
def Stage.telling : Stage → Telling
  | .idle | .dialing | .asking _ _ | .verifying _ _ | .pausing => .silent
  | .running _ _ => .talking
  | .closing _ (.lost true _) => .parting
  | .closing _ (.lost false _) => .silent
  | .closing _ .shutdown | .stopped => .finished

namespace Client

/-- The step from `c` to `d` is a step of the report. -/
def Reports (c d : Client) : Prop :=
  ∃ new, d.journal.posted = c.journal.posted ++ new ∧ Tells c.stage.telling new d.stage.telling

/-- Once a session was verified, the call that started the client has its answer. -/
def Answered (c : Client) : Prop :=
  c.stage.telling = .talking ∨ c.stage.telling = .parting → c.answer.isSome

theorem reports_of_silent {c d : Client} (posted : d.journal.posted = c.journal.posted)
    (tells : Tells c.stage.telling [] d.stage.telling) : Reports c d :=
  ⟨[], by rw [posted, List.append_nil], tells⟩

theorem reports_of_still {c d : Client} (posted : d.journal.posted = c.journal.posted)
    (still : d.stage.telling = c.stage.telling) : Reports c d :=
  reports_of_silent posted (still ▸ .nothing _)

theorem Reports.of_eq {b c d : Client} (h : Reports c d)
    (posted : c.journal.posted = b.journal.posted) (stage : c.stage = b.stage) : Reports b d := by
  obtain ⟨new, hnew, tells⟩ := h
  exact ⟨new, posted ▸ hnew, stage ▸ tells⟩

theorem telling_of_session? {s : Stage} {k : Nat} (h : s.session? = some k) :
    s.telling ≠ .parting := by
  cases s with
  | idle | dialing | closing | pausing | stopped => cases h
  | asking | verifying | running => exact Telling.noConfusion

theorem telling_of_unverified? {s : Stage} {k : Nat} (h : s.unverified? = some k) :
    s.telling = .silent := by
  cases s with
  | idle | dialing | running | closing | pausing | stopped => cases h
  | asking | verifying => rfl

/-- The loss of a session on which the client reads is to be reported if it was verified. -/
theorem tells_leave_of_reading {c : Client} {k : Nat} (h : c.reading = some k)
    (failure : Failure) :
    Tells c.stage.telling [] (c.leave k (.lost c.verified failure)).stage.telling := by
  unfold reading at h
  split at h
  · next stage =>
    simp only [leave, goTo, verified, stage]
    exact .nothing _
  · next stage =>
    simp only [leave, goTo, verified, stage]
    exact .lost
  · cases h

theorem reports_lose {c : Client} (silent : c.stage.telling = .silent) (failure : Failure) :
    Reports c (c.lose false failure) := by
  cases answer : c.answer with
  | some outcome =>
    rw [lose_of_answered (Option.isSome_of_mem answer)]
    exact reports_of_still (by simp [goTo, enter, note]) silent.symm
  | none =>
    rw [lose_of_unanswered answer, reply_eq]
    refine reports_of_silent (by simp [stop, goTo, enter, note]) (.ended ?_)
    rw [silent]
    decide

theorem telling_told (stage : Stage) (outcomes : List (Sender × Outcome)) :
    (told stage outcomes).telling = stage.telling := by
  rcases told_cases stage outcomes with same | ⟨k, before, after, rfl, told⟩
  · rw [same]
  · rw [told]
    rfl

theorem telling_deliver (c : Client) (outcomes : List (Sender × Outcome)) :
    (c.deliver outcomes).stage.telling = c.stage.telling := by
  rw [deliver_eq]
  exact telling_told ..

theorem reports_deliver {c : Client} (box : Option Outbox) (outcomes : List (Sender × Outcome)) :
    Reports c ({ c with outbox := box }.deliver outcomes) :=
  reports_of_still (by rw [journal_deliver]) (telling_deliver _ _)

theorem reports_submit (c : Client) (packet : Packet) : Reports c (c.submit packet) := by
  rcases c.submit_cases packet with ⟨failure, h⟩ | ⟨frame, k, box, after, -, -, -, -, h⟩
  · rw [h]
    exact reports_of_still (by simp [note]) rfl
  · rw [h]
    exact reports_of_still (by simp [note]) rfl

/-- Closing the connection of a session that has ended reports the loss if that is due. -/
theorem reports_close {c : Client} {k : Nat} {ending : Ending} (stage : c.stage = .closing k ending)
    (answered : Answered c) : Reports c (c.close k ending) := by
  cases ending with
  | shutdown =>
    exact reports_of_still (by simp [close, stop, goTo, enter, note])
      (congrArg Stage.telling stage).symm
  | lost verified failure =>
    have posted : ({ c with outbox := none }.note (.closed k)).journal.posted =
        c.journal.posted := by simp [note]
    cases verified with
    | false =>
      have silent : ({ c with outbox := none }.note (.closed k)).stage.telling = .silent := by
        show c.stage.telling = .silent
        rw [stage]
        rfl
      exact (reports_lose silent failure).of_eq posted rfl
    | true =>
      have known : ({ c with outbox := none }.note (.closed k)).answer.isSome :=
        answered (.inr (by rw [stage]; rfl))
      refine ⟨[.disconnected], ?_, ?_⟩
      · simp only [close]
        rw [lose_of_answered known]
        simp [goTo, enter, post, note]
      · rw [stage]
        simp only [close]
        rw [lose_of_answered known]
        exact .reported

theorem reports_of_happens {c d : Client} {a : Action} (answered : Answered c)
    (h : Happens c a d) : Reports c d := by
  cases h with
  | start stage | expirePause _ stage =>
    refine reports_of_still (by simp [dial, goTo, enter, note]) ?_
    rw [stage]
    rfl
  | heedAlone told stage =>
    refine reports_of_silent (by simp [stop, goTo, enter, note]) (.ended ?_)
    rcases stage with stage | stage <;> rw [stage] <;> decide
  | heed told stage =>
    exact reports_of_silent (by simp [leave, goTo]) (.ended (telling_of_session? stage))
  | expireDial due stage | refused stage =>
    exact reports_lose (by rw [stage]; rfl) _
  | expireSession due stage =>
    exact reports_of_still rfl (telling_of_unverified? stage).symm
  | learn stage | learnFailure stage =>
    exact reports_of_still rfl (congrArg Stage.telling stage).symm
  | desert stage =>
    refine reports_of_silent rfl ?_
    rw [stage]
    exact .lost
  | halt | flushed | writeFailed => exact reports_deliver _ _
  | close stage => exact reports_close stage answered
  | take | advance | release | elapse => exact reports_of_still rfl rfl
  | collect | wrote | build => exact reports_of_still (by simp [note, build]) rfl
  | connected stage =>
    obtain ⟨frame, -, h⟩ := c.begin_eq
    rw [h]
    exact reports_of_still (by simp) (congrArg Stage.telling stage).symm
  | hearNothing size stage =>
    exact reports_of_still (by simp [note]) (congrArg Stage.telling stage).symm
  | @hearVersion k framer chunk before after version size stage =>
    refine ⟨.connected :: after.map .packet, ?_, ?_⟩
    · rw [postAll_eq, reply_eq]
      simp [post, enter, goTo, note]
    · rw [stage, postAll_eq, reply_eq]
      exact .verified _
  | @hear k framer chunk size stage =>
    refine ⟨(framer.push chunk).1.map .packet, ?_, ?_⟩
    · rw [postAll_eq]
      simp [note]
    · rw [stage, postAll_eq]
      exact .packets _
  | ended reading | readFailed reading =>
    exact reports_of_silent rfl (tells_leave_of_reading reading _)
  | send payload =>
    exact (reports_submit _ _).of_eq (by simp [build, note]) rfl
  | sendPacket packet => exact reports_submit c packet
  | disconnect =>
    rw [disconnect_eq]
    exact reports_of_still (by simp) rfl

theorem answered_lose (c : Client) (verified : Bool) (failure : Failure) :
    Answered (c.lose verified failure) := by
  cases answer : c.answer with
  | some outcome =>
    rw [lose_of_answered (Option.isSome_of_mem answer)]
    rintro (h | h) <;> cases h
  | none =>
    rw [lose_of_unanswered answer, reply_eq]
    exact fun _ => rfl

theorem stage_submit (c : Client) (packet : Packet) : (c.submit packet).stage = c.stage := by
  rcases c.submit_cases packet with ⟨failure, h⟩ | ⟨frame, k, box, after, -, -, -, -, h⟩ <;>
    rw [h] <;> rfl

theorem answered_submit {c : Client} (answered : Answered c) (packet : Packet) :
    Answered (c.submit packet) := by
  rcases c.submit_cases packet with ⟨failure, h⟩ | ⟨frame, k, box, after, -, -, -, -, h⟩ <;>
    rw [h] <;> exact answered

theorem answered_deliver {c : Client} (answered : Answered c) (box : Option Outbox)
    (outcomes : List (Sender × Outcome)) :
    Answered ({ c with outbox := box }.deliver outcomes) := by
  rw [deliver_eq]
  unfold Answered at answered ⊢
  rwa [telling_told]

theorem answered_leave_of_reading {c : Client} {k : Nat} (answered : Answered c)
    (h : c.reading = some k) (failure : Failure) :
    Answered (c.leave k (.lost c.verified failure)) := by
  unfold reading at h
  split at h
  · next stage =>
    simp only [leave, goTo, verified, stage]
    rintro (h | h) <;> cases h
  · next stage => exact fun _ => answered (.inl (by rw [stage]; rfl))
  · cases h

theorem answered_of_happens {c d : Client} {a : Action} (answered : Answered c)
    (h : Happens c a d) : Answered d := by
  cases h with
  | start | expirePause | heedAlone | heed | expireSession | learn | learnFailure | hearNothing =>
    rintro (h | h) <;> cases h
  | expireDial | refused => exact answered_lose _ _ _
  | desert stage => exact fun _ => answered (.inl (by rw [stage]; rfl))
  | halt | flushed | writeFailed => exact answered_deliver answered _ _
  | @close k ending stage =>
    cases ending with
    | shutdown => rintro (h | h) <;> cases h
    | lost => exact answered_lose _ _ _
  | take | advance | collect | wrote | build | release | elapse => exact answered
  | connected =>
    obtain ⟨frame, -, h⟩ := c.begin_eq
    rw [h]
    rintro (h | h) <;> cases h
  | hearVersion =>
    rw [postAll_eq, reply_eq]
    exact fun _ => rfl
  | hear size stage =>
    rw [postAll_eq]
    exact fun _ => answered (.inl (by rw [stage]; rfl))
  | ended reading | readFailed reading => exact answered_leave_of_reading answered reading _
  | send => exact answered_submit (c := (c.build _).2) answered _
  | sendPacket => exact answered_submit answered _
  | disconnect =>
    rw [disconnect_eq]
    exact answered

/-- A verified session that does not end in a loss ends because the client was told to stop. -/
theorem heed_of_finished {c d : Client} {a : Action} (h : Happens c a d)
    (talking : c.stage.telling = .talking) (finished : d.stage.telling = .finished) :
    a = .move .heed := by
  have still : d.stage.telling = c.stage.telling → a = .move .heed := by
    intro same
    rw [same, talking] at finished
    cases finished
  cases h with
  | heed | heedAlone => rfl
  | start stage | expireDial _ stage | expirePause _ stage | learn stage | learnFailure stage
  | refused stage | connected stage | hearNothing _ stage | hearVersion _ stage =>
    rw [stage] at talking
    cases talking
  | expireSession _ stage =>
    rw [telling_of_unverified? stage] at talking
    cases talking
  | @close k ending stage =>
    rw [stage] at talking
    rcases ending with _ | ⟨_ | _, _⟩ <;> cases talking
  | desert => cases finished
  | ended | readFailed => cases hv : c.verified <;> rw [hv] at finished <;> cases finished
  | halt | flushed | writeFailed => exact still (telling_deliver _ _)
  | take | advance | collect | wrote | build | release | elapse => exact still rfl
  | hear =>
    rw [postAll_eq] at finished
    cases finished
  | send => exact still (congrArg Stage.telling (stage_submit _ _))
  | sendPacket => exact still (congrArg Stage.telling (stage_submit c _))
  | disconnect => exact still (by rw [disconnect_eq])

theorem telling_of_atRest {c : Client} (rest : c.atRest) : c.stage.telling ≠ .parting := by
  intro parting
  have idle (m : Move) (listed : m ∈ c.moves) : c.move? m = none :=
    Option.isNone_iff_eq_none.1 (List.all_eq_true.1 rest m listed)
  have halt := idle .halt (by simp [moves])
  have close := idle .close (by simp [moves])
  cases stage : c.stage with
  | closing k ending =>
    simp only [move?, stage] at halt close
    cases writing : c.writing <;> rw [writing] at halt close
    · cases close
    · cases halt
  | _ =>
    rw [stage] at parting
    cases parting

/-- What has been posted goes with where the report stands. -/
theorem Reachable.told {policy : Policy} {c : Client} (h : Reachable policy c) :
    Told c.journal.posted c.stage.telling ∧ Answered c := by
  refine h.induction (P := fun c => Told c.journal.posted c.stage.telling ∧ Answered c) ?_ ?_
  · refine ⟨⟨[], rfl⟩, ?_⟩
    rintro (h | h) <;> cases h
  · rintro c d a ⟨told, answered⟩ happened
    obtain ⟨new, hnew, tells⟩ := reports_of_happens answered happened
    exact ⟨hnew ▸ tells.told told, answered_of_happens answered happened⟩

/-- **What is posted follows the sessions**, in every run.

What has been posted so far is the beginning of a report of sessions that were verified and lost.
Every step is a step of the report: outside a verified session nothing is posted but that one is
verified, with packets behind that; in it, packets; after its loss, the loss and nothing else. A
verified session that is not lost was left because the client was told to stop. A loss does not
stay unreported once the client has nothing more to do. After the end of the report nothing is
posted, however the run goes on. -/
theorem posted_sessions {policy : Policy} {c : Client} (h : Reachable policy c) :
    (∃ received, c.journal.posted <+: sessions received) ∧
    (∀ a d, c.step? a = some d → Reports c d ∧
      (c.stage.telling = .talking → d.stage.telling = .finished → a = .move .heed)) ∧
    (c.atRest → c.stage.telling ≠ .parting) ∧
    (c.stage.telling = .finished → ∀ actions d, c.run? actions = some d →
      d.journal.posted = c.journal.posted) := by
  obtain ⟨told, answered⟩ := h.told
  refine ⟨told.isPrefix, fun a d hstep => ?_, telling_of_atRest, fun finished actions d hrun => ?_⟩
  · have happened := happens_of_step? hstep
    exact ⟨reports_of_happens answered happened, heed_of_finished happened⟩
  · -- Nothing leads out of the end of the report.
    refine (run?_induction (P := fun b => b.stage.telling = .finished ∧ Answered b ∧
      b.journal.posted = c.journal.posted) ?_ ⟨finished, answered, rfl⟩ hrun).2.2
    rintro b e a ⟨finished, answered, same⟩ happened
    obtain ⟨new, hnew, tells⟩ := reports_of_happens answered happened
    obtain ⟨rfl, finished⟩ := (finished ▸ tells).of_finished
    exact ⟨finished, answered_of_happens answered happened, by rw [hnew, List.append_nil, same]⟩

/-- A console gives its version and hangs up. -/
def lostSession : List Action := verification ++ [.signal .ended, .move .halt, .move .close]

theorem posted_sessions_lostSession :
    ∃ c, (Client.start { failFast := false }).run? lostSession = some c ∧
      c.journal.posted = [.connected, .disconnected] ∧
      ∃ received, c.journal.posted <+: sessions received := by
  have run : ((Client.start { failFast := false }).run? lostSession).map (·.journal.posted) =
      some [.connected, .disconnected] := by decide +kernel
  obtain ⟨c, hrun, posted⟩ := Option.map_eq_some_iff.1 run
  exact ⟨c, hrun, posted, (posted_sessions (Reachable.start.run? hrun)).1⟩

end Client

end ClimateLink
