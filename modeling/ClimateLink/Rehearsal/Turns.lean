/-!
# Taking turns

Whoever has something to do gets in line and has its turn when it comes to the front. A turn ends
when there is nothing more to do, or when its strength is used up. Whoever has no strength left
rests, so that the others come first: those who rest get in line again when the line is empty, and
otherwise after a number of turns, the one that began to rest last in front.
-/

namespace ClimateLink.Rehearsal

/-- Who is in line for a turn, and who rests. -/
structure Turns (α : Type) where
  /-- The one with the next turn first. -/
  line : List α
  /-- The one that began to rest last first. -/
  resting : List α
  /-- The number of turns since those who rested got in line again. -/
  taken : Nat
  deriving DecidableEq, Repr

namespace Turns

/-- How much can be done in one turn. -/
def strength : Nat := 128

/-- After how many turns those who rest get in line again. -/
def patience : Nat := 61

variable {α : Type} [DecidableEq α]

/-- The turns at the start. -/
def start (line : List α) : Turns α := ⟨line, [], 0⟩

/-- Gets someone in line who is not in line. -/
def join (t : Turns α) (a : α) : Turns α :=
  if a ∈ t.line then t else { t with line := t.line ++ [a] }

/-- Lets someone rest. -/
def rest (t : Turns α) (a : α) : Turns α :=
  if t.resting.head? = some a then t else { t with resting := a :: t.resting }

/-- Gets those who rest in line again. -/
def rejoin (t : Turns α) : Turns α := { t.resting.foldl join t with resting := [], taken := 0 }

/-- Who has the next turn, and the turns after that. -/
def next? (t : Turns α) : Option (α × Turns α) :=
  let t := if t.line = [] ∨ t.taken = patience then t.rejoin else t
  match t.line with
  | [] => none
  | a :: line => some (a, { t with line := line, taken := t.taken + 1 })

end Turns

end ClimateLink.Rehearsal
