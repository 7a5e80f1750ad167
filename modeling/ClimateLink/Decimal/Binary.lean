/-!
# Doubles as integers times powers of two

A finite double is `±m · 2^q`. From that form the nearest integer is exact.
-/

namespace ClimateLink.Decimal

/-- The number `±mantissa · 2 ^ exponent`. -/
structure Binary where
  negative : Bool
  mantissa : Nat
  exponent : Int
  deriving DecidableEq, Repr

/-- The bit in front of the fraction, which normal doubles have without storing it. -/
def hidden : Nat := 0x10000000000000

/-- A finite double in its integer form, with the least exponent that doubles of its size have;
nothing for an infinity or for a value that is not a number. -/
def Binary.ofFloat? (x : Float) : Option Binary :=
  let word : Nat := x.toBits.toNat
  let negative := word >>> 63 == 1
  let field : Nat := word >>> 52 % 2048
  let fraction : Nat := word % hidden
  if field == 2047 then none
  else if field == 0 then some ⟨negative, fraction, -1074⟩
  else some ⟨negative, hidden + fraction, (field : Int) - 1075⟩

/-- The natural number nearest to the magnitude; a half goes up. -/
def Binary.nearestNat (d : Binary) : Nat :=
  match d.exponent with
  | .ofNat q => d.mantissa <<< q
  | .negSucc q => (d.mantissa + (1 <<< q)) >>> (q + 1)

/-- The nearest integer; a half goes away from zero. -/
def Binary.nearest (d : Binary) : Int :=
  if d.negative then -(d.nearestNat : Int) else d.nearestNat

/-- The integer nearest to a finite double; a half goes away from zero. -/
def nearest? (x : Float) : Option Int := (Binary.ofFloat? x).map Binary.nearest

end ClimateLink.Decimal
