/-
# `Number.Reading` — numbers that are typed by hand

A single may be written with a sign, with digits on one side of the point only, and with an exponent, or by one
of the names of what is infinite or not a number.  It is rounded once.
-/
import Consolidation.Json.Reader
import Consolidation.Text.Lines

namespace Consolidation.Number

open Text

/-- A magnitude that is named instead of written. -/
def namedMagnitude? (negative : Bool) (s : List Char) : Option Single :=
  let name := String.ofList (s.map smallLatin)
  if name == "inf" || name == "infinity" then some (.infinite negative)
  else if name == "nan" then some .nan
  else none

/-- The digits behind a point, if there is one. -/
def digitsBehindPoint (s : List Char) : List Char × List Char :=
  match s with
  | '.' :: rest => (rest.takeWhile Char.isDigit, rest.dropWhile Char.isDigit)
  | _ => ([], s)

/-- The exponent that is all of a text. -/
def exponentOf? (s : List Char) : Option Int :=
  match s with
  | [] => some 0
  | c :: rest =>
    if smallLatin c != 'e' then none
    else
      let (negative, digits) := match rest with
        | '-' :: r => (true, r)
        | '+' :: r => (false, r)
        | r => (false, r)
      if digits.isEmpty || !digits.all Char.isDigit then none
      else
        let n : Int := Json.digitsNat digits
        some (if negative then -n else n)

/-- The single that a text writes. -/
def Single.ofText? (text : String) : Option Single :=
  let (negative, s) := match text.toList with
    | '-' :: r => (true, r)
    | '+' :: r => (false, r)
    | r => (false, r)
  match namedMagnitude? negative s with
  | some x => some x
  | none =>
    let before := s.takeWhile Char.isDigit
    let (behind, rest) := digitsBehindPoint (s.dropWhile Char.isDigit)
    if before.isEmpty && behind.isEmpty then none
    else (exponentOf? rest).map (fun exponent =>
      Decimal.toSingle ⟨negative, Json.digitsNat (before ++ behind), exponent - behind.length⟩)

end Consolidation.Number
