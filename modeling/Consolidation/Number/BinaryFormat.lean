/-
# `Number.BinaryFormat` — rounding to binary floating point

A format fixes how many fraction bits a number has and the exponent of its smallest positive
value.  Non-negative numbers of a format are numbered in increasing order by their
*magnitude*: zero is 0, the smallest positive value 1, and infinity comes last.
`nearest` gives the magnitude of the number nearest to a quotient, halves going to the even one.
-/
namespace Consolidation.Number

/-- A binary floating-point format. -/
structure BinaryFormat where
  /-- Stored bits of the significand; one more is implied. -/
  fractionBits : Nat
  /-- The smallest positive value is two to minus this. -/
  leastExponent : Nat
  /-- The magnitude of infinity. -/
  infinity : Nat

/-- Four bytes. -/
def single : BinaryFormat := ⟨23, 149, 0x7F800000⟩

/-- Eight bytes. -/
def double : BinaryFormat := ⟨52, 1074, 0x7FF0000000000000⟩

/-- The nearest integer to `num / den`, halves going to the even one. -/
def divNearest (num den : Nat) : Nat :=
  let q := num / den
  let r := num % den
  if den < 2 * r || (2 * r == den && q % 2 == 1) then q + 1 else q

/-- `⌊log₂ (num / den)⌋` for positive arguments. -/
def log2Quotient (num den : Nat) : Int :=
  let guess : Int := (num.log2 : Int) - den.log2
  if den * Nat.pow 2 guess.toNat ≤ num * Nat.pow 2 (-guess).toNat then guess else guess - 1

namespace BinaryFormat

/-- The magnitude nearest to `num / den`. -/
def nearest (f : BinaryFormat) (num den : Nat) : Nat :=
  if num = 0 then 0
  else
    let lead : Int := log2Quotient num den - f.fractionBits
    let unit : Int := max lead (-(f.leastExponent : Int))
    let q := divNearest (num * Nat.pow 2 (-unit).toNat) (den * Nat.pow 2 unit.toNat)
    min ((unit + f.leastExponent).toNat * Nat.pow 2 f.fractionBits + q) f.infinity

/-- The significand and the exponent of a finite magnitude. -/
def parts (f : BinaryFormat) (magnitude : Nat) : Nat × Int :=
  let field := magnitude / Nat.pow 2 f.fractionBits
  let fraction := magnitude % Nat.pow 2 f.fractionBits
  if field = 0 then (fraction, -(f.leastExponent : Int))
  else (Nat.pow 2 f.fractionBits + fraction, (field : Int) - 1 - f.leastExponent)

/-- A finite magnitude as a quotient. -/
def quotient (f : BinaryFormat) (magnitude : Nat) : Nat × Nat :=
  let (m, e) := f.parts magnitude
  (m * Nat.pow 2 e.toNat, Nat.pow 2 (-e).toNat)

theorem nearest_le_infinity (f : BinaryFormat) (num den : Nat) :
    f.nearest num den ≤ f.infinity := by
  unfold nearest
  split
  · exact Nat.zero_le _
  · exact Nat.min_le_right _ _

end BinaryFormat

end Consolidation.Number
