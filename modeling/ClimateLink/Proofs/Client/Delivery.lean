import ClimateLink.Proofs.Client.Account
import ClimateLink.Proofs.Client.Notes
import ClimateLink.Proofs.Client.Sessions
import ClimateLink.Proofs.Client.Spans

/-!
# What a session delivers

A client cuts what comes in on a connection into reads, takes packets out of each, and changes what
it does with them in the middle of one, when the version arrives. None of this shows.

**Theorem (`posted_eq_delivered`).** In every run, for every connection: before the console's
version has come in, nothing is posted and the session is not connected. From then on it has posted
that it is connected, then exactly the packets behind the first version that are in all bytes that
came in, and at last its loss, which is posted once the session is over. Nothing that comes in ends
a session.

The proof keeps an account of every connection, and what the stage says about the latest one: while
the client reads, its framer is that of all bytes that came in. Each step leaves the accounts as
they are or takes that of the latest connection to its next course.
-/

namespace ClimateLink

open Framer Journal

namespace Client

/-! ## The accounts of a client -/

/-- Every connection has its account. The stage goes with that of the latest one; the sessions of
all others are over. -/
structure Faithful (c : Client) : Prop where
  latest : ∀ k, c.journal.latest = some k ↔ k + 1 = c.connections
  unopened : ∀ k, c.connections ≤ k →
    c.journal.heard k = [] ∧ c.journal.postedIn k = [] ∧ c.journal.shownIn k = []
  account : ∀ k, k < c.connections → ∃ course,
    Account (c.journal.heard k) (c.journal.postedIn k) (c.journal.shownIn k) course ∧
      (k + 1 = c.connections → c.stage.Agrees (c.journal.heard k) course) ∧
      (k + 1 ≠ c.connections → course.Over)
  connection : ∀ k, c.stage.connection? = some k → k + 1 = c.connections
  phase : ∀ k, k + 1 = c.connections → (c.journal.shownIn k).getLast? = some c.phase
  live : c.live = none ∨ ∃ k framer, c.live = some k ∧ c.stage = .running k framer
  whole : c.journal.posted = (List.range c.connections).flatMap c.journal.postedIn

/-- From `c` to `d` no connection is opened, and the journal grows by the given entries. -/
structure Extends (c d : Client) (entries : Journal) : Prop where
  journal : d.journal = entries ++ c.journal
  stays : Stays entries
  connections : d.connections = c.connections
  phase : d.phase = entries.shown.getLastD c.phase

variable {c d : Client} {entries : Journal}

theorem faithful_start (policy : Policy) : Faithful (.start policy) where
  latest k := iff_of_false nofun (Nat.succ_ne_zero k)
  unopened _ _ := ⟨rfl, rfl, rfl⟩
  account k inside := absurd inside (Nat.not_lt_zero k)
  connection _ h := nomatch h
  phase k h := absurd h (Nat.succ_ne_zero k)
  live := .inl rfl
  whole := rfl

/-- What happens is posted and shown in the span of the latest connection. -/
theorem Extends.own (ext : Extends c d entries) {k : Nat} (latest : c.journal.latest = some k) :
    d.journal.postedIn k = c.journal.postedIn k ++ entries.posted ∧
      d.journal.shownIn k = c.journal.shownIn k ++ entries.shown := by
  rw [ext.journal, postedIn, span_append _ k ext.stays, if_pos latest, shownIn,
    span_append _ k ext.stays, if_pos latest]
  exact ⟨rfl, rfl⟩

theorem Extends.other (ext : Extends c d entries) {k : Nat} (latest : c.journal.latest ≠ some k) :
    d.journal.postedIn k = c.journal.postedIn k ∧
      d.journal.shownIn k = c.journal.shownIn k := by
  rw [ext.journal, postedIn, span_append _ k ext.stays, if_neg latest, List.append_nil, shownIn,
    span_append _ k ext.stays, if_neg latest, List.append_nil]
  exact ⟨rfl, rfl⟩

/-- It is enough to give the account of the latest connection. -/
theorem Faithful.extends (h : Faithful c) (entries : Journal) (ext : Extends c d entries)
    (elsewhere : ∀ k, k + 1 ≠ c.connections → entries.heard k = [])
    (unposted : c.connections = 0 → entries.posted = [])
    (next : ∀ k course, k + 1 = c.connections →
      Account (c.journal.heard k) (c.journal.postedIn k) (c.journal.shownIn k) course →
      c.stage.Agrees (c.journal.heard k) course → ∃ course,
        Account (c.journal.heard k ++ entries.heard k)
          (c.journal.postedIn k ++ entries.posted) (c.journal.shownIn k ++ entries.shown) course ∧
        d.stage.Agrees (c.journal.heard k ++ entries.heard k) course)
    (connection : ∀ k, d.stage.connection? = some k → c.stage.connection? = some k)
    (live : d.live = none ∨ ∃ k framer, d.live = some k ∧ d.stage = .running k framer) :
    Faithful d := by
  -- What is posted since a connection was opened is its own while it is the latest.
  have own (k : Nat) (now : k + 1 = c.connections) := ext.own ((h.latest k).2 now)
  have other (k : Nat) (before : k + 1 ≠ c.connections) :=
    ext.other fun latest => before ((h.latest k).1 latest)
  have heard (k : Nat) : d.journal.heard k = c.journal.heard k ++ entries.heard k := by
    rw [ext.journal, heard_append]
  refine ⟨fun k => ?_, fun k unopened => ?_, fun k inside => ?_, fun k held => ?_, fun k now => ?_,
    live, ?_⟩
  · rw [ext.journal, latest_append ext.stays, ext.connections]
    exact h.latest k
  · rw [ext.connections] at unopened
    have before : k + 1 ≠ c.connections := by omega
    obtain ⟨silent, posted, shown⟩ := h.unopened k unopened
    rw [heard, silent, elsewhere k before, (other k before).1, (other k before).2]
    exact ⟨rfl, posted, shown⟩
  · rw [ext.connections] at inside ⊢
    obtain ⟨course, account, agrees, ended⟩ := h.account k inside
    by_cases now : k + 1 = c.connections
    · obtain ⟨course, account, agrees⟩ := next k course now account (agrees now)
      rw [heard, (own k now).1, (own k now).2]
      exact ⟨course, account, fun _ => agrees, fun other => absurd now other⟩
    · rw [heard, elsewhere k now, List.append_nil, (other k now).1, (other k now).2]
      exact ⟨course, account, fun same => absurd same now, fun _ => ended now⟩
  · rw [ext.connections]
    exact h.connection k (connection k held)
  · rw [ext.connections] at now
    rw [(own k now).2, ext.phase, List.getLast?_append, h.phase k now, List.getLastD_eq_getLast?]
    cases entries.shown.getLast? <;> rfl
  · rw [ext.journal, posted_append, ← ext.journal, h.whole, ext.connections]
    cases count : c.connections with
    | zero => rw [unposted count]; rfl
    | succ n =>
      have earlier : (List.range n).flatMap d.journal.postedIn =
          (List.range n).flatMap c.journal.postedIn := by
        refine congrArg List.flatten (List.map_congr_left fun k inside => (other k ?_).1)
        have := List.mem_range.1 inside
        omega
      rw [List.range_succ, List.flatMap_append, List.flatMap_append, earlier,
        List.flatMap_singleton, List.flatMap_singleton, (own n count.symm).1, List.append_assoc]

/-- A step that says nothing about a session, in a stage that goes on saying the same. -/
theorem Faithful.sameAccount (h : Faithful c) (ext : Extends c d entries)
    (unheard : ∀ k, entries.heard k = []) (unposted : entries.posted = [])
    (hidden : .connected ∉ entries.shown) (kept : .disconnected ∉ entries.shown)
    (stage : ∀ heard course, c.stage.Agrees heard course → d.stage.Agrees heard course)
    (connection : ∀ k, d.stage.connection? = some k → c.stage.connection? = some k)
    (live : d.live = none ∨ ∃ k framer, d.live = some k ∧ d.stage = .running k framer) :
    Faithful d := by
  refine h.extends entries ext (fun k _ => unheard k) (fun _ => unposted) ?_ connection live
  intro k course now account agrees
  refine ⟨course, ?_, ?_⟩
  · rw [unheard, unposted, List.append_nil, List.append_nil]
    exact account.show hidden kept
  · rw [unheard, List.append_nil]
    exact stage _ _ agrees

/-! ## Steps that tell nothing -/

/-- Whether an entry tells nothing of a session. -/
def sessionless : Occurrence → Bool
  | .opened _ | .heard _ _ | .posted _ | .entered _ => false
  | _ => true

/-- Nothing that concerns a session, except that what became of the request is known. -/
theorem Faithful.same (h : Faithful c) (notes : Notes (fun o => sessionless o) c d)
    (connections : d.connections = c.connections) (phase : d.phase = c.phase)
    (stage : d.stage = c.stage ∨ ∃ k before after, c.stage = .asking k before ∧
      d.stage = .asking k after) (live : d.live = c.live) : Faithful d := by
  obtain ⟨entries, grown, plain⟩ := notes
  have stays : Stays entries := by
    intro e among k opened
    have other := plain e among
    rw [opened] at other
    cases other
  have unseen {α : Type} {view : Occurrence → Option α}
      (hidden : ∀ o, sessionless o → view o = none) : Journal.collect view entries = [] :=
    Journal.collect_eq_nil fun e among => hidden e.2 (plain e among)
  have unheard (k : Nat) : entries.heard k = [] := by
    refine congrArg List.flatten (unseen fun o plain => ?_)
    cases o with
    | heard => cases plain
    | _ => rfl
  have unposted : entries.posted = [] := by
    refine unseen fun o plain => ?_
    cases o with
    | posted => cases plain
    | _ => rfl
  have unshown : entries.shown = [] := by
    refine unseen fun o plain => ?_
    cases o with
    | entered => cases plain
    | _ => rfl
  have ext : Extends c d entries := ⟨grown, stays, connections, by rw [unshown, phase]; rfl⟩
  refine h.sameAccount ext unheard unposted (by simp [unshown]) (by simp [unshown]) ?_ ?_ ?_
  · intro heard course agrees
    rcases stage with same | ⟨k, before, after, asked, told⟩
    · rwa [same]
    · rw [told]
      rw [asked] at agrees
      exact agrees
  · intro k held
    rcases stage with same | ⟨l, before, after, asked, told⟩
    · rwa [same] at held
    · rw [told] at held
      rw [asked]
      exact held
  · rw [live]
    rcases h.live with none | ⟨k, framer, taking, running⟩
    · exact .inl none
    · rcases stage with same | ⟨l, before, after, asked, told⟩
      · exact .inr ⟨k, framer, taking, same.trans running⟩
      · rw [asked] at running
        cases running

theorem faithful_note (h : Faithful c) {o : Occurrence} (plain : sessionless o) :
    Faithful (c.note o) :=
  h.same (notes_one rfl plain) rfl rfl (.inl rfl) rfl

theorem faithful_deliver (h : Faithful c) (box : Option Outbox)
    (outcomes : List (Sender × Outcome)) :
    Faithful ({ c with outbox := box }.deliver outcomes) := by
  rw [deliver_eq]
  exact h.same (notes_nothing rfl) rfl rfl (told_cases c.stage outcomes) rfl

theorem faithful_submit (h : Faithful c) (packet : Packet) : Faithful (c.submit packet) := by
  rcases c.submit_cases packet with
    ⟨failure, refused⟩ | ⟨frame, k, box, after, -, -, -, -, accepted⟩
  · rw [refused]
    exact faithful_note h rfl
  · rw [accepted]
    exact h.same (notes_one rfl rfl) rfl rfl (.inl rfl) rfl

/-! ## The round -/

theorem Faithful.live_eq_none (h : Faithful c) (unverified : c.verified = false) :
    c.live = none := by
  rcases h.live with none | ⟨k, framer, -, running⟩
  · exact none
  · rw [verified, running] at unverified
    cases unverified

theorem faithful_leave (h : Faithful c) {k : Nat} {ending : Ending}
    (session : c.stage.session? = some k)
    (agrees : ∀ heard, (Stage.closing k ending).Agrees heard
      (if c.stage.unverified?.isSome then .unverified else .talking)) :
    Faithful (c.leave k ending) := by
  have ext : Extends c (c.leave k ending) [] := ⟨rfl, stays_nil, rfl, rfl⟩
  refine h.sameAccount ext (fun _ => rfl) rfl List.not_mem_nil List.not_mem_nil ?_ ?_ (.inl rfl)
  · intro heard course agreed
    rw [agreed.course session]
    exact agrees heard
  · rintro l ⟨⟩
    exact Stage.connection?_of_session? session

theorem faithful_stop (h : Faithful c) : Faithful c.stop := by
  have ext : Extends c c.stop [(c.clock, .entered .shutdown)] := ⟨rfl, by simp [Stays], rfl, rfl⟩
  exact h.sameAccount ext (fun _ => rfl) rfl (by simp [phase?]) (by simp [phase?])
    (fun _ _ _ => trivial) (by rintro l ⟨⟩) (.inl rfl)

theorem faithful_reply (h : Faithful c) (outcome : Outcome) : Faithful (c.reply outcome) := by
  rw [reply_eq]
  refine h.same ?_ rfl rfl (.inl rfl) rfl
  cases known : c.answer with
  | some => exact notes_nothing rfl
  | none => exact notes_one rfl rfl

theorem faithful_dial (h : Faithful c) (stage : c.stage = .idle ∨ c.stage = .pausing) :
    Faithful c.dial := by
  have ext : Extends c c.dial [(c.clock, .dialled), (c.clock, .entered .connecting)] :=
    ⟨rfl, by simp [Stays], rfl, rfl⟩
  have quiet : c.dial.live = none := by
    refine h.live_eq_none ?_
    rcases stage with stage | stage <;> rw [verified, stage]
  refine h.sameAccount ext (fun _ => rfl) rfl (by simp [phase?]) (by simp [phase?]) ?_
    (by rintro l ⟨⟩) (.inl quiet)
  intro heard course agrees
  rcases stage with stage | stage <;> rw [stage] at agrees
  · exact agrees.elim
  · exact agrees

theorem faithful_lose (h : Faithful c) {verified : Bool} (failure : Failure)
    (unverified : c.verified = false)
    (opened : verified → c.connections ≠ 0) (answered : verified → c.answer.isSome)
    (agrees : ∀ heard course, c.stage.Agrees heard course →
      if verified then course = .talking else course ≠ .talking) :
    Faithful (c.lose verified failure) := by
  have quiet : c.live = none := h.live_eq_none unverified
  cases answer : c.answer with
  | none =>
    rw [lose_of_unanswered answer]
    exact faithful_reply (faithful_stop h) _
  | some outcome =>
    rw [lose_of_answered (Option.isSome_of_mem answer)]
    cases verified with
    | false =>
      refine h.extends [(c.clock, .entered .disconnected)]
        ⟨rfl, by simp [Stays], rfl, rfl⟩ (fun _ _ => rfl) (fun _ => rfl) ?_ (by rintro l ⟨⟩)
        (.inl quiet)
      · intro k course now account agreed
        cases course with
        | unverified => exact ⟨.failed, by simpa [phase?] using account.fail, .inl rfl⟩
        | talking => exact absurd rfl (agrees _ _ agreed)
        | failed => exact ⟨.failed, by simpa [phase?] using account.again (.inl rfl), .inl rfl⟩
        | lost => exact ⟨.lost, by simpa [phase?] using account.again (.inr rfl), .inr rfl⟩
    | true =>
      refine h.extends
        [(c.clock, .entered .disconnected), (c.clock, .posted .disconnected)]
        ⟨rfl, by simp [Stays], rfl, rfl⟩ (fun _ _ => rfl) ?_ ?_ (by rintro l ⟨⟩) (.inl quiet)
      · exact fun none => absurd none (opened rfl)
      · intro k course now account agreed
        obtain rfl : course = .talking := agrees _ _ agreed
        exact ⟨.lost, by simpa [phase?] using account.lose, .inr rfl⟩

theorem faithful_close (h : Faithful c) (answered : Answered c) {k : Nat} {ending : Ending}
    (stage : c.stage = .closing k ending) : Faithful (c.close k ending) := by
  have closed : Faithful ({ c with outbox := none }.note (.closed k)) :=
    h.same (notes_one rfl rfl) rfl rfl (.inl rfl) rfl
  cases ending with
  | shutdown => exact faithful_stop closed
  | lost verified failure =>
    refine faithful_lose closed failure ?_ ?_ ?_ ?_
    · show c.verified = false
      rw [Client.verified, stage]
    · intro _ none
      have := h.connection k (by rw [stage]; rfl)
      exact Nat.succ_ne_zero k (this.trans none)
    · rintro rfl
      exact answered (.inr (by rw [stage]; rfl))
    · intro heard course agreed
      change c.stage.Agrees heard course at agreed
      rw [stage] at agreed
      cases verified with
      | false => exact agreed ▸ Course.noConfusion
      | true => exact agreed

/-- What observers see of a new connection: that it is to be verified. -/
theorem views_begin (c : Client) : c.begin.journal.latest = some c.connections ∧
    (∀ k, c.begin.journal.heard k = c.journal.heard k) ∧
    (∀ k, c.begin.journal.postedIn k = c.journal.postedIn k) ∧
    (∀ k, c.begin.journal.shownIn k =
      c.journal.shownIn k ++ if c.connections = k then [.verifying] else []) ∧
    c.begin.journal.posted = c.journal.posted := by
  obtain ⟨frame, -, begun⟩ := c.begin_eq
  let entries : Journal :=
    [(c.clock, .built (versionRequest c.numbering.next)), (c.clock, .entered .verifying)]
  have grown : c.begin.journal = entries ++ (c.clock, .opened c.connections) :: c.journal := by
    rw [begun]
    rfl
  have stays : Stays entries := by simp [entries, Stays]
  rw [grown]
  refine ⟨latest_append stays _, fun k => ?_, fun k => ?_, fun k => ?_, ?_⟩
  · simp [entries]
  · rw [postedIn, span_opened rfl k _ stays]
    show _ ++ (if _ then entries.posted else []) = _
    rw [show entries.posted = [] by rfl, ite_self, List.append_nil]
    rfl
  · rw [shownIn, span_opened rfl k _ stays]
    rfl
  · simp [entries]

/-- A new connection has an account of its own, and nothing more is said about the one before. -/
theorem faithful_begin (h : Faithful c) (stage : c.stage = .dialing) : Faithful c.begin := by
  obtain ⟨frame, -, begun⟩ := c.begin_eq
  have connections : c.begin.connections = c.connections + 1 := by rw [begun]
  have asks : c.begin.stage = .asking c.connections none := by rw [begun]
  have quiet : c.begin.live = none := by
    rw [begun]
    exact h.live_eq_none (by rw [verified, stage])
  obtain ⟨opened, heard, posted, shown, whole⟩ := c.views_begin
  obtain ⟨unheard, unposted, unshown⟩ := h.unopened c.connections (Nat.le_refl _)
  refine ⟨fun k => ?_, fun k unopened => ?_, fun k inside => ?_, fun k held => ?_, fun k now => ?_,
    .inl quiet, ?_⟩
  · rw [opened, connections, Option.some.injEq, Nat.succ_inj, eq_comm]
  · rw [connections] at unopened
    have other : c.connections ≠ k := Nat.ne_of_lt unopened
    rw [heard, posted, shown, if_neg other, List.append_nil]
    exact h.unopened k (Nat.le_of_succ_le unopened)
  · rw [connections] at inside ⊢
    rcases Nat.lt_succ_iff_lt_or_eq.1 inside with before | rfl
    · -- The session before is over, since the client has dialled again.
      obtain ⟨course, account, agrees, ended⟩ := h.account k before
      rw [heard, posted, shown, if_neg (Nat.ne_of_gt before), List.append_nil]
      refine ⟨course, account, fun now => ?_, fun _ => ?_⟩
      · exact absurd (Nat.succ_inj.1 now) (Nat.ne_of_lt before)
      · by_cases latest : k + 1 = c.connections
        · have agreed := agrees latest
          rwa [stage] at agreed
        · exact ended latest
    · rw [heard, posted, shown, unheard, unposted, unshown, if_pos rfl, List.nil_append, asks]
      have nothing : (empty.push []).1 = [] := congrArg Prod.fst (push_nil_after [])
      refine ⟨.unverified, .unverified ?_ rfl (by decide) (by decide), fun _ => ⟨rfl, rfl⟩,
        fun other => absurd rfl other⟩
      rw [nothing]
      exact List.forall_mem_nil _
  · rw [asks] at held
    cases held
    exact connections.symm
  · rw [connections] at now
    obtain rfl : k = c.connections := Nat.succ_inj.1 now
    rw [shown, unshown, if_pos rfl, begun]
    rfl
  · rw [whole, h.whole, connections, List.range_succ, List.flatMap_append, List.flatMap_singleton,
      posted, unposted, List.append_nil]
    exact congrArg List.flatten (List.map_congr_left fun k _ => (posted k).symm)

/-! ## What comes in -/

theorem faithful_learn (h : Faithful c) {k : Nat} (stage : c.stage = .asking k (some (.ok ()))) :
    Faithful { c with stage := .verifying k .empty } := by
  have quiet : c.live = none := h.live_eq_none (by rw [verified, stage])
  have ext : Extends c { c with stage := .verifying k .empty } [] := ⟨rfl, stays_nil, rfl, rfl⟩
  refine h.sameAccount ext (fun _ => rfl) rfl List.not_mem_nil List.not_mem_nil ?_ ?_ (.inl quiet)
  · intro heard course agreed
    rw [stage] at agreed
    obtain ⟨rfl, rfl⟩ := agreed
    exact ⟨(congrArg Prod.snd (push_nil_after [])).symm, rfl⟩
  · rw [stage]
    exact fun l held => held

/-- A read on the connection of the session, and what is posted and shown for it. -/
theorem Faithful.hears (h : Faithful c) {k : Nat} (chunk : Bytes) (more : Journal)
    (held : c.stage.connection? = some k)
    (ext : Extends c d (more ++ [(c.clock, .heard k chunk)])) (unheard : ∀ l, more.heard l = [])
    (next : ∀ course,
      Account (c.journal.heard k) (c.journal.postedIn k) (c.journal.shownIn k) course →
      c.stage.Agrees (c.journal.heard k) course → ∃ course,
        Account (c.journal.heard k ++ chunk) (c.journal.postedIn k ++ more.posted)
          (c.journal.shownIn k ++ more.shown) course ∧
        d.stage.Agrees (c.journal.heard k ++ chunk) course)
    (still : d.stage.connection? = some k)
    (live : d.live = none ∨ ∃ k framer, d.live = some k ∧ d.stage = .running k framer) :
    Faithful d := by
  have own : k + 1 = c.connections := h.connection k held
  let entries : Journal := more ++ [(c.clock, .heard k chunk)]
  have heard (l : Nat) : entries.heard l = if k = l then chunk else [] := by
    rw [heard_append, unheard]
    simp
  have posted : entries.posted = more.posted := by
    rw [posted_append]
    simp
  have shown : entries.shown = more.shown := by
    rw [Journal.shown, collect_append]
    rfl
  refine h.extends entries ext ?_ ?_ ?_ ?_ live
  · intro l other
    rw [heard, if_neg]
    rintro rfl
    exact other own
  · exact fun none => absurd (own.trans none) (Nat.succ_ne_zero k)
  · intro l course now account agreed
    obtain rfl : l = k := Nat.succ_inj.1 (now.trans own.symm)
    rw [heard, posted, shown, if_pos rfl]
    exact next course account agreed
  · intro l same
    rwa [held, ← still]

theorem faithful_hearNothing (h : Faithful c) {k : Nat} {framer : Framer} {chunk : Bytes}
    (stage : c.stage = .verifying k framer)
    (passed : ∀ p ∈ (framer.push chunk).1, !p.payload.isVersion) :
    Faithful { c.note (.heard k chunk) with stage := .verifying k (framer.push chunk).2 } := by
  have quiet : c.live = none := h.live_eq_none (by rw [verified, stage])
  have held : c.stage.connection? = some k := by rw [stage]; rfl
  refine h.hears chunk [] held ⟨rfl, by simp [Stays], rfl, rfl⟩ (fun _ => rfl) ?_ rfl (.inl quiet)
  intro course account agreed
  rw [stage] at agreed
  obtain ⟨rfl, rfl⟩ := agreed
  refine ⟨.unverified, by simpa using account.hearNothing passed, ?_, rfl⟩
  rw [push_append]

theorem faithful_hearVersion (h : Faithful c) {k : Nat} {framer : Framer} {chunk : Bytes}
    {before after : List Packet} {version : Packet} (stage : c.stage = .verifying k framer)
    (split : Split (framer.push chunk).1 before version after) :
    Faithful ((((({ c.note (.heard k chunk) with live := some k }.goTo
        (.running k (framer.push chunk).2)).enter .connected).post .connected).reply
          (.ok ())).postAll after) := by
  have held : c.stage.connection? = some k := by rw [stage]; rfl
  rw [postAll_eq, reply_eq]
  let more : Journal := Journal.packets c.clock after ++
    (Journal.answer c.clock c.answer (.ok ()) ++
      [(c.clock, .posted .connected), (c.clock, .entered .connected)])
  have views : more.posted = .connected :: after.map .packet ∧ more.shown = [.connected] := by
    simp [more, phase?]
  refine h.hears chunk more held ⟨?_, ?_, rfl, ?_⟩ (by simp [more]) ?_ rfl
    (.inr ⟨k, _, rfl, rfl⟩)
  · simp [more, post, enter, goTo, note]
  · refine .append ((stays_packets _ _).append ((stays_answer _ _ _).append ?_)) ?_
    · simp [Stays]
    · simp [Stays]
  · rw [shown, collect_append, ← shown, ← shown, views.2]
    rfl
  · intro course account agreed
    rw [stage] at agreed
    obtain ⟨rfl, rfl⟩ := agreed
    have silent : c.journal.postedIn k = [] := by cases account; assumption
    rw [views.1, views.2, silent]
    refine ⟨.talking, account.hearVersion split, ?_, rfl⟩
    rw [push_append]

theorem faithful_hear (h : Faithful c) {k : Nat} {framer : Framer} {chunk : Bytes}
    (stage : c.stage = .running k framer) :
    Faithful ({ c.note (.heard k chunk) with stage := .running k (framer.push chunk).2 }.postAll
      (framer.push chunk).1) := by
  have held : c.stage.connection? = some k := by rw [stage]; rfl
  rw [postAll_eq]
  let more : Journal := Journal.packets c.clock (framer.push chunk).1
  have views : more.posted = (framer.push chunk).1.map .packet ∧ more.shown = [] ∧
      ∀ l, more.heard l = [] := by
    rw [← List.append_nil more]
    simp only [more, posted_packets, shown_packets, heard_packets]
    exact ⟨rfl, rfl, fun _ => rfl⟩
  refine h.hears chunk more held ⟨?_, ?_, rfl, ?_⟩ views.2.2 ?_ rfl ?_
  · simp [more, note]
  · refine (stays_packets _ _).append ?_
    simp [Stays]
  · rw [shown, collect_append, ← shown, ← shown, views.2.1]
    rfl
  · intro course account agreed
    rw [stage] at agreed
    obtain ⟨rfl, rfl⟩ := agreed
    rw [views.1, views.2.1, List.append_nil]
    refine ⟨.talking, account.hear chunk, ?_, rfl⟩
    rw [push_append]
  · rcases h.live with none | ⟨l, earlier, taking, running⟩
    · exact .inl none
    · cases stage.symm.trans running
      exact .inr ⟨k, _, taking, rfl⟩

/-! ## All steps -/

theorem faithful_of_happens {a : Action} (h : Faithful c) (answered : Answered c)
    (happened : Happens c a d) : Faithful d := by
  cases happened with
  | start stage => exact faithful_dial h (.inl stage)
  | expirePause _ stage => exact faithful_dial h (.inr stage)
  | heedAlone => exact faithful_stop h
  | heed told session =>
    refine faithful_leave h session fun heard => ?_
    by_cases unverified : c.stage.unverified?.isSome
    · exact .inl (if_pos unverified)
    · exact .inr (if_neg unverified)
  | expireDial _ stage | refused stage =>
    refine faithful_lose h _ (by rw [verified, stage]) nofun nofun
      fun heard course agreed => ?_
    rw [stage] at agreed
    rcases agreed with rfl | rfl <;> exact Course.noConfusion
  | expireSession _ unverified =>
    have session := Stage.session?_of_unverified? unverified
    exact faithful_leave h session fun heard => if_pos (Option.isSome_of_mem unverified)
  | learn stage => exact faithful_learn h stage
  | learnFailure stage | desert stage =>
    refine faithful_leave h (congrArg Stage.session? stage) fun heard => ?_
    rw [stage]
    rfl
  | halt | flushed | writeFailed => exact faithful_deliver h _ _
  | close stage => exact faithful_close h answered stage
  | take | advance | release | elapse => exact h.same (notes_nothing rfl) rfl rfl (.inl rfl) rfl
  | collect | wrote | build => exact h.same (notes_one rfl rfl) rfl rfl (.inl rfl) rfl
  | connected stage => exact faithful_begin h stage
  | hearNothing _ stage passed => exact faithful_hearNothing h stage passed
  | hearVersion _ stage packets passed isVersion =>
    exact faithful_hearVersion h stage ⟨packets, passed, isVersion⟩
  | hear _ stage => exact faithful_hear h stage
  | ended reading | readFailed reading =>
    obtain ⟨session, unverified⟩ := session?_of_reading reading
    refine faithful_leave h session fun heard => ?_
    rw [unverified]
    cases c.verified <;> rfl
  | send payload =>
    have built : Faithful (c.build payload).2 :=
      h.same (notes_one rfl rfl) rfl rfl (.inl rfl) rfl
    exact faithful_submit built _
  | sendPacket packet => exact faithful_submit h packet
  | disconnect =>
    rw [disconnect_eq]
    exact h.same (notes_one rfl rfl) rfl rfl (.inl rfl) rfl

/-! ## Runs -/

theorem faithful_of_reachable {policy : Policy} (h : Reachable policy c) : Faithful c := by
  refine (h.induction (P := fun c => Faithful c ∧ Answered c) ⟨faithful_start policy, ?_⟩ ?_).1
  · rintro (h | h) <;> cases h
  · rintro c d a ⟨faithful, answered⟩ happened
    exact ⟨faithful_of_happens faithful answered happened, answered_of_happens answered happened⟩

/-- Before the version has come in, nothing is posted and the session is not connected. -/
theorem Faithful.silent (h : Faithful c) {k : Nat}
    (passed : ∀ p ∈ (empty.push (c.journal.heard k)).1, !p.payload.isVersion) :
    c.journal.postedIn k = [] ∧ .connected ∉ c.journal.shownIn k ∧ c.live ≠ some k ∧
      (c.journal.latest = some k → c.phase ≠ .connected) := by
  obtain ⟨silent, hidden, apart⟩ : c.journal.postedIn k = [] ∧ .connected ∉ c.journal.shownIn k ∧
      ∀ framer, c.stage ≠ .running k framer := by
    by_cases inside : k < c.connections
    · obtain ⟨course, account, agrees, -⟩ := h.account k inside
      have untalking (other : course ≠ .talking) (framer : Framer) :
          c.stage ≠ .running k framer := by
        intro running
        have agreed := agrees (h.connection k (by rw [running]; rfl))
        rw [running] at agreed
        exact other agreed.2
      cases account with
      | unverified _ silent hidden | failed _ silent hidden =>
        exact ⟨silent, hidden, untalking Course.noConfusion⟩
      | talking split | lost split => exact (split.not_passed passed).elim
    · obtain ⟨-, silent, unshown⟩ := h.unopened k (Nat.le_of_not_lt inside)
      refine ⟨silent, unshown ▸ List.not_mem_nil, fun framer running => inside ?_⟩
      have := h.connection k (by rw [running]; rfl)
      omega
  refine ⟨silent, hidden, fun live => ?_, fun latest connected => hidden ?_⟩
  · rcases h.live with none | ⟨l, framer, taking, running⟩
    · rw [none] at live
      cases live
    · obtain rfl : l = k := Option.some.inj (taking.symm.trans live)
      exact apart framer running
  · have last := h.phase k ((h.latest k).1 latest)
    rw [connected] at last
    exact List.mem_of_getLast? last

/-- With the version, the session is connected, and posts what is behind the version. Its loss is
posted when it is over, unless the client was told to stop. -/
theorem Faithful.told (h : Faithful c) {k : Nat} {before after : List Packet} {version : Packet}
    (split : Split (empty.push (c.journal.heard k)).1 before version after) :
    c.journal.postedIn k = .connected :: (after.map .packet ++
        if .disconnected ∈ c.journal.shownIn k then [.disconnected] else []) ∧
      (c.stage.connection? = some k → .disconnected ∉ c.journal.shownIn k) ∧
      (c.stage.connection? ≠ some k → c.stage ≠ .stopped →
        .disconnected ∈ c.journal.shownIn k) := by
  have inside : k < c.connections := by
    by_contra outside
    obtain ⟨unheard, -⟩ := h.unopened k (Nat.le_of_not_lt outside)
    have nothing : (empty.push []).1 = [] := congrArg Prod.fst (push_nil_after [])
    have parts := split.parts
    rw [unheard, nothing] at parts
    simp at parts
  obtain ⟨course, account, agrees, ended⟩ := h.account k inside
  cases account with
  | unverified passed | failed passed => exact (split.not_passed passed).elim
  | talking first told kept =>
    rw [told, if_neg kept, List.append_nil, (first.unique split).2]
    refine ⟨rfl, fun _ => kept, fun closed running => ?_⟩
    by_cases latest : k + 1 = c.connections
    · have none : c.stage.connection? = none := by
        refine Option.eq_none_iff_forall_ne_some.2 fun l held => closed ?_
        rw [held, Nat.succ_inj.1 ((h.connection l held).trans latest.symm)]
      rcases (agrees latest).ended none running with ended | ended <;> cases ended
    · rcases ended latest with ended | ended <;> cases ended
  | lost first told gone =>
    rw [told, if_pos gone, (first.unique split).2]
    refine ⟨rfl, fun held => ?_, fun _ _ => gone⟩
    exact absurd (.inr rfl) ((agrees (h.connection k held)).not_ended held)

theorem reading_of_received {k : Nat} {chunk : Bytes} (reading : c.reading = some k)
    (size : c.Readable chunk) :
    ∃ d, c.step? (.signal (.received chunk)) = some d ∧ d.reading = some k := by
  refine ⟨c.hear k chunk, ?_, ?_⟩
  · simp only [step?, signal?, reading, Option.map_some]
    exact if_pos size
  · have happened := happens_of_received size reading
    generalize c.hear k chunk = d at happened
    cases happened with
    | hearNothing _ stage =>
      rw [Client.reading, stage] at reading
      exact reading
    | hearVersion _ stage =>
      rw [Client.reading, stage] at reading
      rw [postAll_eq, reply_eq]
      exact reading
    | hear _ stage =>
      rw [Client.reading, stage] at reading
      rw [postAll_eq]
      exact reading

/-- **A session delivers what is behind the version**, in every run, however what comes in is cut
into reads.

As long as the packets that came in on a connection do not have the version among them, its session
has posted nothing and is not connected. From then on it has posted that it is connected, then the
packets behind the first version, in order, and at last its loss, which is posted when the session
is over unless the client was told to stop. What is posted in all is what the sessions have posted,
one after another. Whatever the client reads, it can read on. -/
theorem posted_eq_delivered {policy : Policy} {c : Client} (h : Reachable policy c) :
    (∀ k, (∀ p ∈ (empty.push (c.journal.heard k)).1, !p.payload.isVersion) →
      c.journal.postedIn k = [] ∧ .connected ∉ c.journal.shownIn k ∧ c.live ≠ some k ∧
        (c.journal.latest = some k → c.phase ≠ .connected)) ∧
    (∀ k before version after, Split (empty.push (c.journal.heard k)).1 before version after →
      c.journal.postedIn k = .connected :: (after.map .packet ++
          if .disconnected ∈ c.journal.shownIn k then [.disconnected] else []) ∧
        (c.stage.connection? = some k → .disconnected ∉ c.journal.shownIn k) ∧
        (c.stage.connection? ≠ some k → c.stage ≠ .stopped →
          .disconnected ∈ c.journal.shownIn k)) ∧
    c.journal.posted = (List.range c.connections).flatMap c.journal.postedIn ∧
    ∀ k chunk, c.reading = some k → c.Readable chunk →
      ∃ d, c.step? (.signal (.received chunk)) = some d ∧ d.reading = some k := by
  have faithful := faithful_of_reachable h
  refine ⟨fun k passed => faithful.silent passed, fun k before version after split => ?_,
    faithful.whole, fun k chunk reading size => reading_of_received reading size⟩
  exact faithful.told split

theorem posted_eq_delivered_lostSession :
    ∃ c, (Client.start { failFast := false }).run? lostSession = some c ∧
      Split (empty.push (c.journal.heard 0)).1 [] ⟨0xB090, 1, .version false "1"⟩ [] ∧
      c.journal.postedIn 0 = [.connected, .disconnected] := by
  have run : ((Client.start { failFast := false }).run? lostSession).map
      (fun c => ((empty.push (c.journal.heard 0)).1, c.journal.shownIn 0)) =
        some ([⟨0xB090, 1, .version false "1"⟩], [.verifying, .connected, .disconnected]) := by
    decide +kernel
  obtain ⟨c, hrun, views⟩ := Option.map_eq_some_iff.1 run
  obtain ⟨packets, shown⟩ := Prod.mk.inj views
  have split : Split (empty.push (c.journal.heard 0)).1 [] ⟨0xB090, 1, .version false "1"⟩ [] :=
    ⟨packets, nofun, rfl⟩
  refine ⟨c, hrun, split, ?_⟩
  have posted := ((posted_eq_delivered (Reachable.start.run? hrun)).2.1 0 _ _ _ split).1
  rw [posted, shown]
  rfl

end Client

end ClimateLink
