import Mathlib.Data.List.Forall2

/-!
# Computations that can fail

What a computation in `Except` or `Option` must have done when it gave a result.

- `bind_eq_ok`, `map_eq_ok`, `map_eq_error`: what a sequence gave, its first part gave.
- `mapM_eq_ok`: over a list, every element gave the result in its place.
- `exists_mapM_ok_iff`: a list has results if every element has one.
- `map_eq_map_some_filterMap`: if every element gives something, nothing is left out of what is
  kept.
-/

namespace ClimateLink

variable {ε α β : Type}

theorem bind_eq_ok {x : Except ε α} {f : α → Except ε β} {b : β} :
    (x >>= f) = .ok b ↔ ∃ a, x = .ok a ∧ f a = .ok b := by
  constructor
  · intro h
    cases x with
    | error e => cases h
    | ok a => exact ⟨a, rfl, h⟩
  · rintro ⟨a, rfl, h⟩
    exact h

theorem map_eq_ok {x : Except ε α} {f : α → β} {b : β} :
    f <$> x = .ok b ↔ ∃ a, x = .ok a ∧ f a = b := by
  constructor
  · intro h
    cases x with
    | error e => cases h
    | ok a => cases h; exact ⟨a, rfl, rfl⟩
  · rintro ⟨a, rfl, rfl⟩
    rfl

theorem map_eq_error {x : Except ε α} {f : α → β} {e : ε} : f <$> x = .error e ↔ x = .error e := by
  cases x with
  | ok a => exact iff_of_false nofun nofun
  | error fault =>
    show Except.error fault = .error e ↔ _
    rw [Except.error.injEq, Except.error.injEq]

theorem mapM_eq_ok {f : α → Except ε β} {as : List α} {bs : List β} :
    as.mapM f = .ok bs ↔ List.Forall₂ (fun a b => f a = .ok b) as bs := by
  induction as generalizing bs with
  | nil =>
    rw [List.mapM_nil, List.forall₂_nil_left_iff]
    exact ⟨fun h => by cases h; rfl, fun h => by rw [h]; rfl⟩
  | cons a as ih =>
    rw [List.mapM_cons, bind_eq_ok, List.forall₂_cons_left_iff]
    constructor
    · rintro ⟨b, hb, h⟩
      obtain ⟨rest, hrest, h⟩ := bind_eq_ok.1 h
      cases h
      exact ⟨b, rest, hb, ih.1 hrest, rfl⟩
    · rintro ⟨b, rest, hb, hrest, rfl⟩
      exact ⟨b, hb, bind_eq_ok.2 ⟨rest, ih.2 hrest, rfl⟩⟩

theorem exists_error_iff {x : Except ε α} : (∃ e, x = .error e) ↔ ¬∃ a, x = .ok a := by
  cases x with
  | ok a => exact iff_of_false nofun (not_not_intro ⟨a, rfl⟩)
  | error e => exact iff_of_true ⟨e, rfl⟩ nofun

theorem exists_mapM_ok_iff {f : α → Except ε β} {as : List α} :
    (∃ bs, as.mapM f = .ok bs) ↔ ∀ a ∈ as, ∃ b, f a = .ok b := by
  simp only [mapM_eq_ok]
  induction as with
  | nil => exact iff_of_true ⟨[], .nil⟩ nofun
  | cons a as ih =>
    rw [List.forall_mem_cons, ← ih]
    constructor
    · rintro ⟨bs, h⟩
      obtain ⟨b, rest, hb, hrest, -⟩ := List.forall₂_cons_left_iff.1 h
      exact ⟨⟨b, hb⟩, rest, hrest⟩
    · rintro ⟨⟨b, hb⟩, rest, hrest⟩
      exact ⟨b :: rest, .cons hb hrest⟩

/-- If every element gives something, what is kept is one for each of them. -/
theorem map_eq_map_some_filterMap {f : α → Option β} {as : List α}
    (h : ∀ a ∈ as, (f a).isSome) : as.map f = (as.filterMap f).map some := by
  induction as with
  | nil => rfl
  | cons a as ih =>
    obtain ⟨b, found⟩ := Option.isSome_iff_exists.1 (h a List.mem_cons_self)
    rw [List.map_cons, List.filterMap_cons_some found, List.map_cons, found,
      ih fun c among => h c (List.mem_cons_of_mem a among)]

theorem isSome_of_map_eq {f : α → Option β} {as : List α} {bs : List β}
    (h : as.map f = bs.map some) {a : α} (among : a ∈ as) : (f a).isSome := by
  obtain ⟨b, -, found⟩ := List.mem_map.1 (h ▸ List.mem_map_of_mem among)
  rw [← found]
  rfl

theorem exists_of_map_eq {f : α → Option β} {as : List α} {bs : List β}
    (h : as.map f = bs.map some) {b : β} (among : b ∈ bs) : ∃ a ∈ as, f a = some b :=
  List.mem_map.1 (h ▸ List.mem_map_of_mem among)

end ClimateLink
