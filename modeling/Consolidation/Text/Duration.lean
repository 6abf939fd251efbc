/-
# `Text.Duration` — spans of time as text

A span is written in seconds from one second on, with as many decimals as it needs, and in milliseconds
below.  No time at all is written in nanoseconds.
-/
import Consolidation.Text.Lines

namespace Consolidation.Text

/-- The decimals of some thousandths, without zeros at the end. -/
def thousandths (n : Nat) : List Char :=
  dropEndWhile (· == '0') ((Nat.toDigits 10 (1000 + n % 1000)).drop 1)

/-- The text of a number of milliseconds. -/
def durationText (milliseconds : Nat) : String :=
  if milliseconds == 0 then "0ns"
  else if milliseconds < 1000 then toString milliseconds ++ "ms"
  else
    let decimals := thousandths milliseconds
    let whole := toString (milliseconds / 1000)
    if decimals.isEmpty then whole ++ "s" else whole ++ "." ++ String.ofList decimals ++ "s"

end Consolidation.Text
