/-!
# Named values with codes

Many fields hold one of a few named values, each written as a number. Reading never fails: a
number that is nobody's code stands for the fallback value, which means "leave as it is" in
requests and "not available" in reports.

- `ofCode_code`: a value written and read back is itself.
-/

namespace ClimateLink

/-- A type of named values, each with the number that stands for it. -/
class Coded (α : Type) where
  /-- The values, in the order of their codes. -/
  members : List α
  /-- The number written for a value. -/
  code : α → UInt8
  /-- The name of a value. -/
  label : α → String
  /-- What an unknown number means. -/
  fallback : α
  /-- No two values share a code. -/
  find_code : ∀ a : α, (members.find? fun b => code b == code a) = some a := by
    intro a; cases a <;> rfl

namespace Coded

variable {α : Type} [Coded α]

/-- The value with the given code, or the fallback. -/
def ofCode (n : UInt8) : α := ((members (α := α)).find? fun a => code a == n).getD fallback

/-- The value with the given name. -/
def ofLabel? (s : String) : Option α := (members (α := α)).find? fun a => label a == s

@[simp] theorem ofCode_code (a : α) : ofCode (code a) = a := by
  rw [ofCode, find_code, Option.getD_some]

end Coded

end ClimateLink
