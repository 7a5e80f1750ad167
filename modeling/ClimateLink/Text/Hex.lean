/-!
# Hexadecimal numbers

A number written as `0x` and lower-case digits, with zeros in front up to a least width.
-/

namespace ClimateLink.Text

/-- The number as `0x` and at least `width` hexadecimal digits. -/
def hex (width n : Nat) : String :=
  let digits := Nat.toDigits 16 n
  "0x" ++ String.ofList (List.replicate (width - digits.length) '0' ++ digits)

end ClimateLink.Text
