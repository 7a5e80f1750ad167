import ClimateLink.Decimal.Binary

/-!
# The shortest numeral of a double

A double is written with the fewest digits that read back as the same double, and of the numerals
with that many digits, as the one nearest to it. Every real number between the midpoints to the
two neighbouring doubles reads back as the double, and the midpoints themselves do if its integer
part in binary form is even. So the coarsest power of ten with a multiple in that interval gives
the digits, and only the two multiples next to the double have to be looked at.
-/

namespace ClimateLink.Decimal

/-- The numeral `±digits · 10 ^ exponent`. -/
structure Numeral where
  negative : Bool
  digits : Nat
  exponent : Int
  deriving DecidableEq, Repr

/-- The power, or 1 for a negative exponent. -/
def powerOrOne (base : Nat) : Int → Nat
  | .ofNat n => Nat.pow base n
  | .negSucc _ => 1

/-- The multiples of `10 ^ place` next to a number that read back as it, nearest first, counted in
that unit. Everything is compared in a unit in which the number, its midpoints and the multiples
are all whole. -/
def candidates (b : Binary) (place : Int) : List Nat :=
  let quarter := b.exponent - 2
  let up := powerOrOne 2 quarter * powerOrOne 10 (-place)
  let unit := powerOrOne 2 (-quarter) * powerOrOne 10 place
  let value := 4 * b.mantissa * up
  let below := if b.mantissa = hidden ∧ -1074 < b.exponent then 1 else 2
  let lower := (4 * b.mantissa - below) * up
  let upper := (4 * b.mantissa + 2) * up
  let reads (n : Nat) : Bool :=
    if b.mantissa % 2 = 0 then lower ≤ n * unit && n * unit ≤ upper
    else lower < n * unit && n * unit < upper
  let floor := value / unit
  let nearFirst := if value - floor * unit ≤ (floor + 1) * unit - value
    then [floor, floor + 1] else [floor + 1, floor]
  nearFirst.filter fun n => n ≠ 0 && reads n

/-- The numeral on the coarsest of the next `fuel` grids, from `place` down. -/
def search (b : Binary) : (fuel : Nat) → (place : Int) → Numeral
  | 0, _ => ⟨b.negative, 0, 0⟩
  | fuel + 1, place =>
    match candidates b place with
    | n :: _ => ⟨b.negative, n, place⟩
    | [] => search b fuel (place - 1)

/-- The number of decimal digits before the point. -/
def wholeDigits (b : Binary) : Nat :=
  let whole := b.mantissa * powerOrOne 2 b.exponent / powerOrOne 2 (-b.exponent)
  (Nat.toDigits 10 whole).length

/-- The shortest numeral of a finite double; nothing for other doubles. No double needs a place
below `10 ^ -400`. -/
def shortest? (x : Float) : Option Numeral :=
  (Binary.ofFloat? x).map fun b =>
    if b.mantissa = 0 then ⟨b.negative, 0, 0⟩
    else search b (wholeDigits b + 401) (wholeDigits b)

end ClimateLink.Decimal
