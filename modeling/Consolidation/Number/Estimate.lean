/-
# `Number.Estimate` — doubles that are read without long arithmetic

A reader of data files takes the digits of a decimal as a double, as far as they fit into eight bytes, and multiplies or
divides it by the double nearest to a power of ten.  So it may round three times or more, and does not always find
the nearest double.
-/
import Consolidation.Number.Decimal
import Consolidation.Number.Width

namespace Consolidation.Number

namespace BinaryFormat

variable (f : BinaryFormat)

/-- The magnitude nearest to the product of two finite ones. -/
def product (a b : Nat) : Nat :=
  f.nearest ((f.quotient a).1 * (f.quotient b).1) ((f.quotient a).2 * (f.quotient b).2)

/-- The magnitude nearest to the quotient of two finite ones. -/
def ratio (a b : Nat) : Nat :=
  f.nearest ((f.quotient a).1 * (f.quotient b).2) ((f.quotient a).2 * (f.quotient b).1)

end BinaryFormat

namespace Decimal

/-- The greatest exponent whose power of ten is a finite double. -/
def greatestPower : Nat := 308

/-- The double nearest to a power of ten. -/
def powerOfTen (k : Nat) : Nat := double.nearest (Nat.pow 10 k) 1

/-- Drops digits at the end until the others fit into eight bytes. -/
def fitDigits : Nat → Nat → Int → Nat × Int
  | 0, digits, exponent => (digits, exponent)
  | fuel + 1, digits, exponent =>
    if digits ≤ maxLong then (digits, exponent) else fitDigits fuel (digits / 10) (exponent + 1)

/-- The double for which some digits with an exponent are taken, if they are not too large. -/
def estimateOf? (digits : Nat) (exponent : Int) : Option Nat :=
  let start := double.nearest digits 1
  if exponent < -2 * greatestPower then some 0
  else if exponent < -greatestPower then
    some (double.ratio (double.ratio start (powerOfTen greatestPower))
      (powerOfTen (-exponent - greatestPower).toNat))
  else if exponent < 0 then some (double.ratio start (powerOfTen (-exponent).toNat))
  else if exponent ≤ greatestPower then
    let scaled := double.product start (powerOfTen exponent.toNat)
    if scaled == double.infinity then none else some scaled
  else if digits = 0 then some 0
  else none

/-- The magnitude of the double for which a decimal is taken, if it is not too large. -/
def estimate? (d : Decimal) : Option Nat :=
  let (digits, exponent) := fitDigits (digitCount d.digits) d.digits d.exponent
  estimateOf? digits exponent

/-- The single nearest to the double for which a decimal is taken. -/
def toSingleByEstimate? (d : Decimal) : Option Single :=
  d.estimate?.map (fun magnitude =>
    .ofQuotient d.negative (double.quotient magnitude).1 (double.quotient magnitude).2)

end Decimal

end Consolidation.Number
