/-
# `Number.FixedPoint` — numbers with a fixed number of decimals

A quotient is written with so many decimals; of two numbers that are equally near, the one with an even last digit
is taken.
-/
import Consolidation.Number.BinaryFormat

namespace Consolidation.Number

/-- The text of `num / den` with `places` decimals, at least one. -/
def fixedText (places num den : Nat) : String :=
  let scaled := divNearest (num * Nat.pow 10 places) den
  let decimals := (Nat.toDigits 10 (Nat.pow 10 places + scaled % Nat.pow 10 places)).drop 1
  toString (scaled / Nat.pow 10 places) ++ "." ++ String.ofList decimals

/-- A number of thousandths as a double, with two decimals. -/
def thousandthsText (n : Nat) : String :=
  let (whole, one) := double.quotient (double.nearest n 1)
  let (num, den) := double.quotient (double.nearest whole (one * 1000))
  fixedText 2 num den

end Consolidation.Number
