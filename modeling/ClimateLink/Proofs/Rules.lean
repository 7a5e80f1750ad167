import Mathlib.Data.List.Forall2

/-!
# Rules and the faults of breaking them

A format is a list of rules, each with the fault that is reported for breaking it. Later rules may
make sense only where the earlier ones are obeyed, so what counts is the first that is broken.

**`Checks`.** A computation checks rules if it gives a result when all of them are obeyed, and the
fault of the first one that is broken otherwise. `Checks.rule` shows this rule by rule,
`Checks.bind` and `Checks.mapM` part by part.

- `Checks.ok_iff`, `Checks.error_iff`: such a computation is decided by its rules alone.
-/

namespace ClimateLink

/-- A rule, and the fault of breaking it. -/
structure Rule (ε : Type) where
  holds : Prop
  fault : ε

variable {ε α β : Type}

/-- All rules are obeyed. -/
def Obeyed (rules : List (Rule ε)) : Prop := ∀ r ∈ rules, r.holds

/-- Some rule is broken, and the fault is that of the first. -/
def FirstBroken : List (Rule ε) → ε → Prop
  | [], _ => False
  | r :: rules, e => ¬r.holds ∧ r.fault = e ∨ r.holds ∧ FirstBroken rules e

theorem obeyed_cons {r : Rule ε} {rules : List (Rule ε)} :
    Obeyed (r :: rules) ↔ r.holds ∧ Obeyed rules := List.forall_mem_cons

theorem obeyed_append {rules more : List (Rule ε)} :
    Obeyed (rules ++ more) ↔ Obeyed rules ∧ Obeyed more := List.forall_mem_append

theorem FirstBroken.append {rules : List (Rule ε)} {e : ε} (h : FirstBroken rules e)
    (more : List (Rule ε)) : FirstBroken (rules ++ more) e := by
  induction rules with
  | nil => exact h.elim
  | cons r rules ih =>
    rcases h with broken | ⟨holds, later⟩
    · exact .inl broken
    · exact .inr ⟨holds, ih later⟩

theorem FirstBroken.append_left {rules : List (Rule ε)} (obeyed : Obeyed rules)
    {more : List (Rule ε)} {e : ε} (h : FirstBroken more e) : FirstBroken (rules ++ more) e := by
  induction rules with
  | nil => exact h
  | cons r rules ih =>
    obtain ⟨holds, obeyed⟩ := obeyed_cons.1 obeyed
    exact .inr ⟨holds, ih obeyed⟩

theorem FirstBroken.not_obeyed {rules : List (Rule ε)} {e : ε} (h : FirstBroken rules e) :
    ¬Obeyed rules := by
  induction rules with
  | nil => exact h.elim
  | cons r rules ih =>
    rw [obeyed_cons]
    rintro ⟨holds, obeyed⟩
    rcases h with ⟨broken, -⟩ | ⟨-, later⟩
    · exact broken holds
    · exact ih later obeyed

theorem FirstBroken.unique {rules : List (Rule ε)} {e f : ε} (he : FirstBroken rules e)
    (hf : FirstBroken rules f) : e = f := by
  induction rules with
  | nil => exact he.elim
  | cons r rules ih =>
    rcases he with ⟨broken, rfl⟩ | ⟨holds, he⟩
    · rcases hf with ⟨-, rfl⟩ | ⟨holds, -⟩
      · rfl
      · exact absurd holds broken
    · rcases hf with ⟨broken, -⟩ | ⟨-, hf⟩
      · exact absurd holds broken
      · exact ih he hf

/-- The computation gives a result if all rules are obeyed, of which `post` holds then; otherwise
it gives the fault of the first rule that is broken. -/
inductive Checks : Except ε α → List (Rule ε) → (α → Prop) → Prop
  | ok {a : α} {rules : List (Rule ε)} {post : α → Prop} (obeyed : Obeyed rules) (holds : post a) :
    Checks (.ok a) rules post
  | error {e : ε} {rules : List (Rule ε)} {post : α → Prop} (broken : FirstBroken rules e) :
    Checks (.error e) rules post

namespace Checks

variable {x : Except ε α} {r : Rule ε} {rules : List (Rule ε)} {post : α → Prop}

theorem done {a : α} (h : post a) : Checks (.ok a : Except ε α) [] post :=
  .ok (fun _ listed => absurd listed List.not_mem_nil) h

/-- One more rule in front: where it is broken, its fault is what the computation gives. -/
theorem rule (broken : ¬r.holds → x = .error r.fault) (kept : r.holds → Checks x rules post) :
    Checks x (r :: rules) post := by
  by_cases holds : r.holds
  · cases kept holds with
    | ok obeyed result => exact .ok (obeyed_cons.2 ⟨holds, obeyed⟩) result
    | error later => exact .error (.inr ⟨holds, later⟩)
  · rw [broken holds]
    exact .error (.inl ⟨holds, rfl⟩)

/-- A computation with a single fault checks what decides whether it has a result. -/
theorem only (sole : ∀ e, x = .error e → e = r.fault) (decides : (∃ a, x = .ok a) ↔ r.holds)
    (result : ∀ a, x = .ok a → post a) : Checks x [r] post := by
  refine .rule (fun broken => ?_) fun holds => ?_
  · cases found : x with
    | ok a => exact (broken (decides.1 ⟨a, found⟩)).elim
    | error e => rw [sole e found]
  · obtain ⟨a, found⟩ := decides.2 holds
    rw [found]
    exact .done (result a found)

theorem map {f : α → β} {goal : β → Prop} (h : Checks x rules post)
    (next : ∀ a, post a → goal (f a)) : Checks (f <$> x) rules goal := by
  cases h with
  | ok obeyed result => exact .ok obeyed (next _ result)
  | error broken => exact .error broken

/-- Two computations one after the other check the rules of the first and then those of the
second. -/
theorem bind {f : α → Except ε β} {more : List (Rule ε)} {goal : β → Prop}
    (h : Checks x rules post) (next : ∀ a, post a → Checks (f a) more goal) :
    Checks (x >>= f) (rules ++ more) goal := by
  cases h with
  | @ok a _ _ obeyed result =>
    have later := next a result
    show Checks (f a) (rules ++ more) goal
    generalize f a = y at later ⊢
    cases later with
    | ok also holds => exact .ok (obeyed_append.2 ⟨obeyed, also⟩) holds
    | error broken => exact .error (broken.append_left obeyed)
  | error broken => exact .error (broken.append more)

/-- A list checks the rules of its elements, one element after the other. -/
theorem mapM {f : α → Except ε β} {demands : α → List (Rule ε)} {result : α → β → Prop}
    (each : ∀ a, Checks (f a) (demands a) (result a)) (as : List α) :
    Checks (as.mapM f) (as.flatMap demands) (List.Forall₂ result as) := by
  induction as with
  | nil =>
    rw [List.mapM_nil]
    exact .done .nil
  | cons a as ih =>
    rw [List.mapM_cons, List.flatMap_cons]
    refine (each a).bind fun b first => ?_
    have rest : Checks (as.mapM f >>= fun bs => pure (b :: bs)) (as.flatMap demands ++ [])
        (List.Forall₂ result (a :: as)) := ih.bind fun bs others => .done (.cons first others)
    rwa [List.append_nil] at rest

theorem mono {goal : α → Prop} (h : Checks x rules post) (next : ∀ a, post a → goal a) :
    Checks x rules goal := by
  cases h with
  | ok obeyed result => exact .ok obeyed (next _ result)
  | error broken => exact .error broken

/-- What is known of results anyway holds of this one. -/
theorem known {goal : α → Prop} (h : Checks x rules post) (next : ∀ a, x = .ok a → goal a) :
    Checks x rules goal := by
  cases h with
  | ok obeyed => exact .ok obeyed (next _ rfl)
  | error broken => exact .error broken

theorem ok_iff (h : Checks x rules post) : (∃ a, x = .ok a) ↔ Obeyed rules := by
  cases h with
  | ok obeyed => exact iff_of_true ⟨_, rfl⟩ obeyed
  | error broken => exact iff_of_false nofun broken.not_obeyed

theorem error_iff (h : Checks x rules post) (e : ε) : x = .error e ↔ FirstBroken rules e := by
  cases h with
  | ok obeyed => exact iff_of_false nofun fun broken => broken.not_obeyed obeyed
  | error broken =>
    refine ⟨fun same => ?_, fun first => congrArg _ (broken.unique first)⟩
    cases same
    exact broken

theorem post_of_ok {a : α} (h : Checks x rules post) (result : x = .ok a) : post a := by
  cases h with
  | ok _ holds => cases result; exact holds
  | error => cases result

end Checks

end ClimateLink
