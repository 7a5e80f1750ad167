/-!
# Spans of time as text

A span of milliseconds is written in seconds from one second on, with as many decimals as it
needs, and in whole milliseconds below. No time at all is written in the smallest unit.
-/

namespace ClimateLink.Text

/-- The digits of a list without the zeros at its end. -/
def trimZeros (digits : List Char) : List Char :=
  (digits.reverse.dropWhile (· == '0')).reverse

/-- A span of milliseconds as text. -/
def duration (ms : Nat) : String :=
  if ms = 0 then "0ns"
  else if ms < 1000 then s!"{ms}ms"
  else
    let thousandths := Nat.toDigits 10 (ms % 1000)
    let decimals := trimZeros (List.replicate (3 - thousandths.length) '0' ++ thousandths)
    if decimals.isEmpty then s!"{ms / 1000}s"
    else s!"{ms / 1000}." ++ String.ofList decimals ++ "s"

end ClimateLink.Text
