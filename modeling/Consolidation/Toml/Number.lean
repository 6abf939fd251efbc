/-
# `Toml.Number` — numbers, dates and times

Low lines may stand between the digits of a number.  A whole number has eight bytes and may be written in
base two, eight or sixteen.  A date has to be one of the calendar.
-/
import Consolidation.Toml.Text

namespace Consolidation.Toml

open Number

/-- Digits with low lines between them, from the first on; gives the digits alone. -/
def readGroup? (isDigit : Char → Bool) (s : List Char) : Option (List Char × List Char) :=
  let run := s.takeWhile (fun c => isDigit c || c == '_')
  let pieces := Text.splitOn '_' run
  if pieces.any (·.isEmpty) then none
  else some (pieces.flatten, s.dropWhile (fun c => isDigit c || c == '_'))

/-- The digits before a point: a zero stands alone. -/
def readWholeDigits? (s : List Char) : Option (List Char × List Char) :=
  match s with
  | '0' :: rest => some (['0'], rest)
  | _ => readGroup? Char.isDigit s

def readSign : List Char → Bool × List Char
  | '-' :: rest => (true, rest)
  | '+' :: rest => (false, rest)
  | rest => (false, rest)

/-- A whole number, unless it has too many bytes. -/
def wholeOf? (negative : Bool) (magnitude : Nat) : Option Toml :=
  let n : Int := if negative then -(magnitude : Int) else magnitude
  if leastWhole ≤ n && n ≤ greatestWhole then some (whole n) else none

/-- The value of digits in a base. -/
def valueIn (base : Nat) (digits : List Char) : Nat :=
  digits.foldl (fun n c => n * base + (Json.hexValue? c).getD 0) 0

/-- A whole number in a base that its start names. -/
def readBased? (base : Nat) (isDigit : Char → Bool) (s : List Char) : Option (Toml × List Char) := do
  let (digits, rest) ← readGroup? isDigit s
  some (← wholeOf? false (valueIn base digits), rest)

/-- A decimal number that is too large for a double, but not too far below zero, is refused. -/
def realOf? (d : Decimal) : Option Toml :=
  if d.overflowsDouble then if d.negative then some (real (.infinite true)) else none
  else some (real (.finite d))

/-- What may follow a point: digits, or nothing if there is no point. -/
def readFraction? (s : List Char) : Option (List Char × List Char) :=
  match s with
  | '.' :: rest => readGroup? Char.isDigit rest
  | _ => some ([], s)

/-- An exponent, if there is one. -/
def readExponent? (s : List Char) : Option (Option Int × List Char) :=
  match s with
  | c :: rest =>
    if c == 'e' || c == 'E' then do
      let (negative, rest) := readSign rest
      let (digits, rest) ← readGroup? Char.isDigit rest
      let n : Int := Json.digitsNat digits
      some (some (if negative then -n else n), rest)
    else some (none, s)
  | [] => some (none, [])

/-- A decimal number, whole or not. -/
def readDecimal? (negative : Bool) (s : List Char) : Option (Toml × List Char) := do
  let (before, rest) ← readWholeDigits? s
  let isWhole := rest.head? != some '.'
  let (fraction, rest) ← readFraction? rest
  let (exponent, rest) ← readExponent? rest
  if isWhole && exponent.isNone then
    some (← wholeOf? negative (Json.digitsNat before), rest)
  else
    let d : Decimal :=
      ⟨negative, Json.digitsNat (before ++ fraction), exponent.getD 0 - fraction.length⟩
    some (← realOf? d, rest)

/-- A number. -/
def readNumber? (s : List Char) : Option (Toml × List Char) :=
  match s with
  | '0' :: 'x' :: rest => readBased? 16 (fun c => (Json.hexValue? c).isSome) rest
  | '0' :: 'o' :: rest => readBased? 8 (fun c => '0' ≤ c && c ≤ '7') rest
  | '0' :: 'b' :: rest => readBased? 2 (fun c => c == '0' || c == '1') rest
  | _ =>
    let (negative, unsigned) := readSign s
    match unsigned with
    | 'i' :: 'n' :: 'f' :: rest => some (real (.infinite negative), rest)
    | 'n' :: 'a' :: 'n' :: rest => some (real .notANumber, rest)
    | _ => readDecimal? negative unsigned

/-! ## Dates and times -/

/-- A number of exactly `count` digits that lies between two others. -/
def readField? (count low high : Nat) (s : List Char) : Option (Nat × List Char) :=
  let digits := s.take count
  let n := Json.digitsNat digits
  if digits.length == count && digits.all Char.isDigit && low ≤ n && n ≤ high then
    some (n, s.drop count)
  else none

def skipChar? (c : Char) : List Char → Option (List Char)
  | d :: rest => if c == d then some rest else none
  | [] => none

def isLeapYear (year : Nat) : Bool := year % 4 == 0 && (year % 100 != 0 || year % 400 == 0)

def daysIn (year month : Nat) : Nat :=
  if month == 2 then if isLeapYear year then 29 else 28
  else if [4, 6, 9, 11].contains month then 30
  else 31

/-- What follows a date. -/
def skipDate? (s : List Char) : Option (List Char) := do
  let (year, s) ← readField? 4 0 9999 s
  let (month, s) ← readField? 2 1 12 (← skipChar? '-' s)
  let (_, s) ← readField? 2 1 (daysIn year month) (← skipChar? '-' s)
  some s

/-- What follows a time of day. -/
def skipTime? (s : List Char) : Option (List Char) := do
  let (_, s) ← readField? 2 0 23 s
  let (_, s) ← readField? 2 0 59 (← skipChar? ':' s)
  let (_, s) ← readField? 2 0 60 (← skipChar? ':' s)
  match s with
  | '.' :: rest =>
    if (rest.takeWhile Char.isDigit).isEmpty then some s else some (rest.dropWhile Char.isDigit)
  | _ => some s

/-- What follows the difference to universal time, if it is given. -/
def skipOffset (s : List Char) : List Char :=
  match s with
  | [] => []
  | c :: rest =>
    if c == 'Z' || c == 'z' then rest
    else if c == '+' || c == '-' then
      (do
        let (_, r) ← readField? 2 0 23 rest
        let (_, r) ← readField? 2 0 59 (← skipChar? ':' r)
        some r).getD s
    else s

/-- What follows the time behind a date, if there is one. -/
def skipTimeOfDate (s : List Char) : List Char :=
  match s with
  | c :: rest =>
    if c == 'T' || c == 't' || c == ' ' then ((skipTime? rest).map skipOffset).getD s else s
  | [] => []

/-- A date, a time, or both. -/
def readMoment? (s : List Char) : Option (Toml × List Char) := do
  let rest ← match skipDate? s with
    | some rest => some (skipTimeOfDate rest)
    | none => skipTime? s
  some (moment (String.ofList (s.take (s.length - rest.length))), rest)

end Consolidation.Toml
