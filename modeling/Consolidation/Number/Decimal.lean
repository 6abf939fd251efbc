/-
# `Number.Decimal` — decimal numbers and their texts

A decimal is a signed integer times a power of ten.  `Decimal.shortest` is the shortest decimal that
reads back as a given single, the nearest one if several are equally short; `positional` and
`scientific` are the two ways in which it is written.
-/
import Consolidation.Number.Single

namespace Consolidation.Number

/-- `± digits · 10 ^ exponent`. -/
structure Decimal where
  negative : Bool
  digits : Nat
  exponent : Int
deriving DecidableEq, Repr

namespace Decimal

/-- How many decimal digits a positive number has. -/
def digitCount (n : Nat) : Nat := (Nat.toDigits 10 n).length

/-- The magnitude of a decimal as a quotient, which is zero or infinite when its exponent is
far beyond those of all doubles. -/
def quotient? (d : Decimal) : Option (Nat × Nat) :=
  if d.digits = 0 then some (0, 1)
  else
    let lead : Int := d.exponent + digitCount d.digits
    if 400 < lead then none
    else if lead < -400 then some (0, 1)
    else some (d.digits * Nat.pow 10 d.exponent.toNat, Nat.pow 10 (-d.exponent).toNat)

/-- The single nearest to a decimal. -/
def toSingle (d : Decimal) : Single :=
  match d.quotient? with
  | some (num, den) => .ofQuotient d.negative num den
  | none => .infinite d.negative

/-- The single nearest to the double nearest to a decimal. -/
def toSingleViaDouble (d : Decimal) : Single :=
  match d.quotient? with
  | some (num, den) => .ofDoubleQuotient d.negative num den
  | none => .infinite d.negative

/-- Is the double nearest to a decimal infinite? -/
def overflowsDouble (d : Decimal) : Bool :=
  match d.quotient? with
  | some (num, den) => double.nearest num den == double.infinity
  | none => true

/-- The decimal exponent of the first digit of `num / den`, counted up or down from `guess`. -/
def leadExponent (num den : Nat) : Nat → Int → Int
  | 0, guess => guess
  | fuel + 1, guess =>
    let at10 (k : Int) := den * Nat.pow 10 k.toNat ≤ num * Nat.pow 10 (-k).toNat
    if at10 (guess + 1) then leadExponent num den fuel (guess + 1)
    else if at10 guess then guess
    else leadExponent num den fuel (guess - 1)

/-- Of the decimals that are multiples of `10 ^ unit`, the nearest one to `num / den`
that reads back as `magnitude`. -/
def onGrid? (magnitude num den : Nat) (unit : Int) : Option Nat :=
  let scaledNum := num * Nat.pow 10 (-unit).toNat
  let scaledDen := den * Nat.pow 10 unit.toNat
  let readsBack (k : Nat) :=
    single.nearest (k * Nat.pow 10 unit.toNat) (Nat.pow 10 (-unit).toNat) == magnitude
  let below := scaledNum / scaledDen
  let near := divNearest scaledNum scaledDen
  let far := if near = below then below + 1 else below
  if readsBack near then some near else if readsBack far then some far else none

/-- The first grid, from the coarsest on, that has a decimal which reads back. -/
def shortestFrom (magnitude num den : Nat) (lead : Int) : Nat → Nat → Option (Nat × Int)
  | 0, _ => none
  | fuel + 1, count =>
    let unit := lead + 1 - count
    match onGrid? magnitude num den unit with
    | some k => some (k, unit)
    | none => shortestFrom magnitude num den lead fuel (count + 1)

/-- Drops zeros at the end of the digits. -/
def dropZeros : Nat → Nat → Int → Nat × Int
  | 0, digits, exponent => (digits, exponent)
  | fuel + 1, digits, exponent =>
    if digits ≠ 0 && digits % 10 == 0 then dropZeros fuel (digits / 10) (exponent + 1)
    else (digits, exponent)

/-- The shortest decimal that reads back as the finite single `x`. -/
def shortest (x : Single) : Decimal :=
  if x.magnitude = 0 then ⟨x.negative, 0, 0⟩
  else
    let (num, den) := single.quotient x.magnitude
    let guess : Int := log2Quotient num den * 3 / 10
    let lead := leadExponent num den 60 guess
    match shortestFrom x.magnitude num den lead 9 1 with
    | some (k, unit) =>
      let (digits, exponent) := dropZeros 12 k unit
      ⟨x.negative, digits, exponent⟩
    | none => ⟨x.negative, 0, 0⟩

/-- The digits of a decimal in positional notation, without an exponent. -/
def positionalDigits (digits : List Char) (exponent : Int) : List Char :=
  let count : Int := digits.length + exponent
  if 0 ≤ exponent then digits ++ List.replicate exponent.toNat '0'
  else if 0 < count then digits.take count.toNat ++ '.' :: digits.drop count.toNat
  else '0' :: '.' :: List.replicate (-count).toNat '0' ++ digits

/-- A decimal in positional notation. -/
def positional (d : Decimal) : List Char :=
  (if d.negative then ['-'] else []) ++ positionalDigits (Nat.toDigits 10 d.digits) d.exponent

/-- A decimal as data files write it: with a fraction, or with an exponent where the point would
lie more than thirteen digits to the right or more than five zeros to the left of the digits. -/
def dataText (d : Decimal) : List Char :=
  let digits := Nat.toDigits 10 d.digits
  let count : Int := digits.length + d.exponent
  let sign := if d.negative then ['-'] else []
  if d.digits = 0 then sign ++ "0.0".toList
  else if 0 ≤ d.exponent && count ≤ 13 then
    sign ++ positionalDigits digits d.exponent ++ ".0".toList
  else if -5 ≤ count && count ≤ 13 then sign ++ positionalDigits digits d.exponent
  else
    let exponent := (toString (count - 1)).toList
    match digits with
    | [c] => sign ++ c :: 'e' :: exponent
    | c :: rest => sign ++ c :: '.' :: rest ++ 'e' :: exponent
    | [] => sign ++ exponent

end Decimal

namespace Single

/-- A single in positional notation with the fewest digits that read back. -/
def toText (x : Single) : String :=
  if x.isNaN then "NaN"
  else if x.isInfinite then if x.negative then "-inf" else "inf"
  else String.ofList (Decimal.shortest x).positional

end Single

end Consolidation.Number
