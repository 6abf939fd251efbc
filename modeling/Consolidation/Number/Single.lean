/-
# `Number.Single` — single precision numbers

A single has a sign and a magnitude.  Sums, products, quotients and roots are computed
exactly and rounded once; comparisons are those of the signed magnitudes, so both
zeros are equal and what is not a number compares with nothing.
-/
import Consolidation.Number.BinaryFormat

namespace Consolidation.Number

/-- A number of four bytes: its sign, and its bits without the sign. -/
structure Single where
  negative : Bool
  magnitude : Nat
  bound : magnitude < 0x80000000
deriving DecidableEq

namespace Single

/-- The least magnitude that is not a number is above this one. -/
def infinityMagnitude : Nat := single.infinity

def zero : Single := ⟨false, 0, by decide⟩

def negZero : Single := ⟨true, 0, by decide⟩

def one : Single := ⟨false, 0x3F800000, by decide⟩

def nan : Single := ⟨false, 0x7FC00000, by decide⟩

def infinite (negative : Bool) : Single := ⟨negative, 0x7F800000, by decide⟩

instance : Inhabited Single := ⟨zero⟩

def isNaN (x : Single) : Bool := infinityMagnitude < x.magnitude

def isInfinite (x : Single) : Bool := x.magnitude == infinityMagnitude

def isFinite (x : Single) : Bool := x.magnitude < infinityMagnitude

/-- The number whose bytes, read as an unsigned integer, are `bits`. -/
def ofBits (bits : UInt32) : Single :=
  ⟨0x80000000 ≤ bits.toNat, bits.toNat % 0x80000000, Nat.mod_lt _ (by decide)⟩

/-- The bytes of a number as an unsigned integer. -/
def toBits (x : Single) : Nat := (if x.negative then 0x80000000 else 0) + x.magnitude

/-- The place of a number in the order of singles; the two zeros share one. -/
def rank (x : Single) : Int := if x.negative then -(x.magnitude : Int) else x.magnitude

/-- Equality of numbers: what is not a number differs from everything. -/
def eq (x y : Single) : Bool := !x.isNaN && !y.isNaN && x.rank == y.rank

/-- `x` is at most `y`, both being numbers. -/
def le (x y : Single) : Bool := !x.isNaN && !y.isNaN && x.rank ≤ y.rank

/-- `x` is below `y`, both being numbers. -/
def lt (x y : Single) : Bool := !x.isNaN && !y.isNaN && x.rank < y.rank

/-- The number with the given sign nearest to `num / den`. -/
def ofQuotient (negative : Bool) (num den : Nat) : Single :=
  ⟨negative, single.nearest num den, Nat.lt_of_le_of_lt (single.nearest_le_infinity num den)
    (by decide)⟩

/-- The number nearest to an integer. -/
def ofInt (n : Int) : Single := ofQuotient (n < 0) n.natAbs 1

/-- A finite number as a signed quotient. -/
def toQuotient (x : Single) : Int × Nat :=
  let (num, den) := single.quotient x.magnitude
  (if x.negative then -(num : Int) else num, den)

/-- The number nearest to a signed quotient; a zero is positive unless `zeroSign`. -/
def ofSigned (zeroSign : Bool) (num : Int) (den : Nat) : Single :=
  ofQuotient (num < 0 || (num == 0 && zeroSign)) num.natAbs den

/-- The sum, rounded. -/
def add (x y : Single) : Single :=
  if x.isNaN || y.isNaN then nan
  else if x.isInfinite then
    if y.isInfinite && x.negative != y.negative then nan else x
  else if y.isInfinite then y
  else
    let (a, b) := x.toQuotient
    let (c, d) := y.toQuotient
    ofSigned (x.negative && y.negative) (a * d + c * b) (b * d)

/-- The product, rounded. -/
def mul (x y : Single) : Single :=
  if x.isNaN || y.isNaN then nan
  else if x.isInfinite || y.isInfinite then
    if x.magnitude == 0 || y.magnitude == 0 then nan else infinite (x.negative != y.negative)
  else
    let (a, b) := single.quotient x.magnitude
    let (c, d) := single.quotient y.magnitude
    ofQuotient (x.negative != y.negative) (a * c) (b * d)

/-- The quotient, rounded. -/
def div (x y : Single) : Single :=
  let negative := x.negative != y.negative
  if x.isNaN || y.isNaN then nan
  else if x.isInfinite then
    if y.isInfinite then nan else infinite negative
  else if y.isInfinite then ⟨negative, 0, by decide⟩
  else if y.magnitude == 0 then
    if x.magnitude == 0 then nan else infinite negative
  else
    let (a, b) := single.quotient x.magnitude
    let (c, d) := single.quotient y.magnitude
    ofQuotient negative (a * d) (b * c)

/-- `⌊√n⌋` by bisection: the root lies in `lo … hi`, and `fuel` halvings single it out. -/
def rootBetween (n : Nat) : Nat → Nat → Nat → Nat
  | 0, lo, _ => lo
  | fuel + 1, lo, hi =>
    if lo < hi then
      let mid := (lo + hi + 1) / 2
      if mid * mid ≤ n then rootBetween n fuel mid hi else rootBetween n fuel lo (mid - 1)
    else lo

/-- `⌊√n⌋`. -/
def floorRoot (n : Nat) : Nat :=
  let bits := n.log2 / 2 + 1
  rootBetween n (bits + 1) 0 (Nat.pow 2 bits)

/-- The square root, rounded.  The radicand is scaled to an integer with at least twice the
bits of a significand to spare, and a last bit is added when its root is not exact, so that
rounding sees on which side of a half it lies. -/
def sqrt (x : Single) : Single :=
  if x.isNaN || x.magnitude == 0 then x
  else if x.negative then nan
  else if x.isInfinite then x
  else
    let (m, e) := single.parts x.magnitude
    let shift : Nat := if e % 2 == 0 then 60 else 61
    let scaled := m * Nat.pow 2 shift
    let root := floorRoot scaled
    let sticky := if root * root == scaled then 0 else 1
    let exponent : Int := (e - shift) / 2 - 1
    ofQuotient false ((2 * root + sticky) * Nat.pow 2 exponent.toNat) (Nat.pow 2 (-exponent).toNat)

/-- The sum of a list from left to right.  The sum of nothing is the negative zero, which
changes no number that is added to it. -/
def sum (xs : List Single) : Single := xs.foldl add negZero

/-- The double nearest to a quotient, rounded again to a single. -/
def ofDoubleQuotient (negative : Bool) (num den : Nat) : Single :=
  let magnitude := double.nearest num den
  if magnitude == double.infinity then infinite negative
  else
    let (a, b) := double.quotient magnitude
    ofQuotient negative a b

end Single

end Consolidation.Number
