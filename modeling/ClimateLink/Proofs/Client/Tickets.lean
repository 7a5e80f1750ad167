import ClimateLink.Proofs.Client.Handling
import Mathlib.Data.List.Nodup

/-!
# The tickets of calls

Every call that hands in a frame, and every call that asks the client to stop, has a ticket of its
own, in the order in which the calls are made. So what becomes of one call is never taken for what
becomes of another.
-/

namespace ClimateLink.Client

/-- Tickets tell calls apart. -/
structure Ticketed (c : Client) : Prop where
  increasing : ∀ k, ((c.journal.accepted k).map Prod.fst).Pairwise (· < ·)
  unique : ∀ {k l t f g}, (t, f) ∈ c.journal.accepted k → (t, g) ∈ c.journal.accepted l → k = l
  accepted_lt : ∀ {k t f}, (t, f) ∈ c.journal.accepted k → t < c.tickets
  fates_lt : ∀ {t o}, (t, o) ∈ c.fates → t < c.tickets
  fates_once : (c.fates.map Prod.fst).Nodup
  leavers_apart : ∀ {t k f}, t ∈ c.leavers → (t, f) ∉ c.journal.accepted k

variable {c d : Client}

theorem ticketed_start (policy : Policy) : Ticketed (.start policy) where
  increasing _ := .nil
  unique h := nomatch h
  accepted_lt h := nomatch h
  fates_lt h := nomatch h
  fates_once := .nil
  leavers_apart h := nomatch h

/-- What accepts nothing and settles nothing keeps the tickets. -/
theorem Ticketed.of_same (ticketed : Ticketed c) (tickets : d.tickets = c.tickets)
    (accepted : ∀ k, d.journal.accepted k = c.journal.accepted k) (fates : d.fates.Perm c.fates)
    (leavers : d.leavers ⊆ c.leavers) : Ticketed d where
  increasing k := accepted k ▸ ticketed.increasing k
  unique {k l t f g} hf hg := ticketed.unique (accepted k ▸ hf) (accepted l ▸ hg)
  accepted_lt {k t f} h := tickets ▸ ticketed.accepted_lt (accepted k ▸ h)
  fates_lt h := tickets ▸ ticketed.fates_lt (fates.mem_iff.1 h)
  fates_once := (fates.map Prod.fst).nodup_iff.2 ticketed.fates_once
  leavers_apart {t k f} h := by
    rw [accepted k]
    exact ticketed.leavers_apart (leavers h)

theorem Ticketed.sameFrames (ticketed : Ticketed c) (frames : SameFrames c d) : Ticketed d :=
  ticketed.of_same frames.tickets frames.accepted frames.fates frames.leavers

theorem ticketed_begin (ticketed : Ticketed c) : Ticketed c.begin := by
  obtain ⟨frame, -, opened⟩ := c.begin_eq
  rw [opened]
  refine ticketed.of_same rfl ?_ ?_ (List.Subset.refl _)
  · simp
  · simp [fates, outcomes]

theorem ticketed_disconnect (ticketed : Ticketed c) : Ticketed c.disconnect := by
  have fates : c.disconnect.fates.Perm ((c.tickets, .ok ()) :: c.fates) := by
    rw [disconnect_eq]
    by_cases stopped : c.stage = .stopped
    · simp [Client.fates, outcomes, stopped, List.perm_middle]
    · simp only [Client.fates, outcomes, stopped, if_false, List.map_append, List.map_singleton,
        Journal.returned_cons, Option.toList_none, List.append_nil]
      rw [← List.append_assoc]
      exact List.perm_append_singleton _ _
  have accepted (k : Nat) : c.disconnect.journal.accepted k = c.journal.accepted k := by
    simp [disconnect_eq]
  have tickets : c.disconnect.tickets = c.tickets + 1 := by rw [disconnect_eq]
  have leavers (t : Nat) (h : t ∈ c.disconnect.leavers) : t ∈ c.leavers ∨ t = c.tickets := by
    rw [disconnect_eq] at h
    by_cases stopped : c.stage = .stopped
    · simp only [stopped, if_true] at h
      exact .inl h
    · simpa [stopped] using h
  refine ⟨?_, ?_, ?_, ?_, ?_, ?_⟩
  · intro k
    rw [accepted]
    exact ticketed.increasing k
  · intro k l t f g
    rw [accepted, accepted]
    exact ticketed.unique
  · intro k t f h
    rw [accepted] at h
    rw [tickets]
    exact Nat.lt_succ_of_lt (ticketed.accepted_lt h)
  · intro t o h
    rw [tickets]
    rcases List.mem_cons.1 (fates.mem_iff.1 h) with same | known
    · cases same
      exact Nat.lt_succ_self _
    · exact Nat.lt_succ_of_lt (ticketed.fates_lt known)
  · rw [(fates.map Prod.fst).nodup_iff, List.map_cons, List.nodup_cons]
    refine ⟨fun h => ?_, ticketed.fates_once⟩
    obtain ⟨⟨t, o⟩, known, same⟩ := List.mem_map.1 h
    exact absurd same (Nat.ne_of_lt (ticketed.fates_lt known))
  · intro t k f h
    rw [accepted]
    rcases leavers t h with waiting | rfl
    · exact ticketed.leavers_apart waiting
    · exact fun listed => absurd (ticketed.accepted_lt listed) (Nat.lt_irrefl _)

theorem ticketed_accept (ticketed : Ticketed c) (box : Outbox) (k : Nat) (frame : Bytes) :
    Ticketed ({ c with outbox := some box, tickets := c.tickets + 1 }.note
      (.accepted c.tickets k frame)) := by
  have accepted (l : Nat) : ({ c with outbox := some box, tickets := c.tickets + 1 }.note
      (.accepted c.tickets k frame)).journal.accepted l =
        c.journal.accepted l ++ if k = l then [(c.tickets, frame)] else [] := by
    by_cases same : k = l <;> simp [note, same]
  have known {l t : Nat} {f : Bytes} (h : (t, f) ∈ c.journal.accepted l ++
      if k = l then [(c.tickets, frame)] else []) :
      (t, f) ∈ c.journal.accepted l ∨ t = c.tickets ∧ k = l := by
    by_cases same : k = l
    · rw [if_pos same, List.mem_append, List.mem_singleton] at h
      exact h.imp_right fun last => ⟨(Prod.mk.inj last).1, same⟩
    · rw [if_neg same, List.append_nil] at h
      exact .inl h
  -- The ticket is above all that were given before.
  have fresh {l : Nat} {f : Bytes} : (c.tickets, f) ∉ c.journal.accepted l :=
    fun h => absurd (ticketed.accepted_lt h) (Nat.lt_irrefl _)
  have fates : ({ c with outbox := some box, tickets := c.tickets + 1 }.note
      (.accepted c.tickets k frame)).fates = c.fates := by
    simp [Client.fates, outcomes, note]
  refine ⟨?_, ?_, ?_, ?_, ?_, ?_⟩
  · intro l
    rw [accepted]
    by_cases same : k = l
    · rw [if_pos same, List.map_append, List.pairwise_append]
      refine ⟨ticketed.increasing l, List.pairwise_singleton _ _, fun t ht s hs => ?_⟩
      obtain ⟨⟨t, f⟩, listed, rfl⟩ := List.mem_map.1 ht
      rw [List.map_singleton, List.mem_singleton] at hs
      exact hs ▸ ticketed.accepted_lt listed
    · rw [if_neg same, List.append_nil]
      exact ticketed.increasing l
  · intro l m t f g hf hg
    rw [accepted] at hf hg
    rcases known hf with hf | ⟨rfl, hl⟩ <;> rcases known hg with hg | ⟨hm, hkm⟩
    · exact ticketed.unique hf hg
    · exact absurd (hm ▸ hf) fresh
    · exact absurd hg fresh
    · exact hl.symm.trans hkm
  · intro l t f h
    rw [accepted] at h
    rcases known h with h | ⟨rfl, -⟩
    · exact Nat.lt_succ_of_lt (ticketed.accepted_lt h)
    · exact Nat.lt_succ_self _
  · intro t o h
    exact Nat.lt_succ_of_lt (ticketed.fates_lt (fates ▸ h))
  · rw [fates]
    exact ticketed.fates_once
  · intro t l f waiting h
    rw [accepted] at h
    rcases known h with h | ⟨rfl, -⟩
    · exact ticketed.leavers_apart waiting h
    · exact absurd (ticketed.fates_lt (mem_fates.2 (.inr ⟨waiting, rfl⟩))) (Nat.lt_irrefl _)

/-! ## Outcomes that become known -/

theorem mem_callOutcomes {outcomes : List (Sender × Outcome)} {t : Nat} {o : Outcome} :
    (t, o) ∈ callOutcomes outcomes ↔ (.call t, o) ∈ outcomes := by
  refine List.mem_filterMap.trans ⟨?_, fun h => ⟨_, h, rfl⟩⟩
  rintro ⟨⟨sender, r⟩, listed, same⟩
  obtain ⟨s, ticket, same⟩ := Option.map_eq_some_iff.1 same
  cases same
  exact Sender.ticket?_eq_some.1 ticket ▸ listed

theorem mem_outcomes_deliver (box : Option Outbox) (outcomes : List (Sender × Outcome)) {t : Nat}
    {o : Outcome} : (t, o) ∈ ({ c with outbox := box }.deliver outcomes).outcomes ↔
      (t, o) ∈ c.outcomes ∨ (.call t, o) ∈ outcomes := by
  rw [deliver_eq, ← mem_callOutcomes]
  simp only [Client.outcomes, List.mem_append]
  exact or_right_comm

theorem fates_deliver (box : Option Outbox) (outcomes : List (Sender × Outcome)) :
    ({ c with outbox := box }.deliver outcomes).fates.Perm (callOutcomes outcomes ++ c.fates) := by
  rw [deliver_eq]
  simp only [fates, Client.outcomes, ← List.append_assoc]
  exact (List.perm_append_comm.append_right _).append_right _

/-- Calls whose frames are settled are told once. -/
theorem ticketed_deliver (ticketed : Ticketed c) (box : Option Outbox)
    {outcomes : List (Sender × Outcome)} (once : (outcomes.map Prod.fst).Nodup)
    (fresh : ∀ t o, (.call t, o) ∈ outcomes →
      (∃ k f, (t, f) ∈ c.journal.accepted k) ∧ ∀ r, (t, r) ∉ c.outcomes) :
    Ticketed ({ c with outbox := box }.deliver outcomes) := by
  have tickets : (callOutcomes outcomes).map Prod.fst =
      (outcomes.map Prod.fst).filterMap Sender.ticket? := by
    rw [callOutcomes, List.map_filterMap, List.filterMap_map]
    refine List.filterMap_congr fun o _ => ?_
    rw [Option.map_map]
    exact Option.map_id' ..
  have calls : ((callOutcomes outcomes).map Prod.fst).Nodup := by
    rw [tickets]
    refine once.filterMap fun s r t hs hr => ?_
    rw [Sender.ticket?_eq_some.1 hs, Sender.ticket?_eq_some.1 hr]
  have fates := fates_deliver (c := c) box outcomes
  -- Only the last but one part is about more than one call: nobody is told twice.
  refine ⟨?_, ?_, ?_, ?_, ?_, ?_⟩
  · rw [journal_deliver]
    exact ticketed.increasing
  · rw [journal_deliver]
    exact ticketed.unique
  · rw [journal_deliver, tickets_deliver]
    exact ticketed.accepted_lt
  · intro t o h
    rw [tickets_deliver]
    rcases List.mem_append.1 (fates.mem_iff.1 h) with new | known
    · obtain ⟨⟨k, f, accepted⟩, -⟩ := fresh t o (mem_callOutcomes.1 new)
      exact ticketed.accepted_lt accepted
    · exact ticketed.fates_lt known
  · rw [(fates.map Prod.fst).nodup_iff, List.map_append, List.nodup_append]
    refine ⟨calls, ticketed.fates_once, fun t ht s hs same => ?_⟩
    obtain ⟨⟨t, o⟩, new, rfl⟩ := List.mem_map.1 ht
    obtain ⟨⟨s, r⟩, known, rfl⟩ := List.mem_map.1 hs
    cases same
    obtain ⟨⟨k, f, accepted⟩, undecided⟩ := fresh t o (mem_callOutcomes.1 new)
    rcases mem_fates.1 known with known | ⟨waiting, -⟩
    · exact undecided r known
    · exact ticketed.leavers_apart waiting accepted
  · rw [journal_deliver, leavers_deliver]
    exact ticketed.leavers_apart

end ClimateLink.Client
