/-
# `Json.Reader` — reading JSON text

`Json.ofText?` reads a whole text: one value, with nothing but white space around it.  Each reader
of a part returns what it read and the rest of the text.  Readers of values take a bound on
the number of values that are still to come, for which the length of the text is enough.
-/
import Consolidation.Json.Basic
import Consolidation.Text.Utf8

namespace Consolidation.Json

/-- The white space of JSON. -/
def isSpace (c : Char) : Bool := c == ' ' || c == '\t' || c == '\n' || c == '\r'

/-- Drops white space. -/
def skipSpace (s : List Char) : List Char := s.dropWhile isSpace

/-- The value of a hexadecimal digit. -/
def hexValue? (c : Char) : Option Nat :=
  if '0' ≤ c && c ≤ '9' then some (c.toNat - 48)
  else if 'a' ≤ c && c ≤ 'f' then some (c.toNat - 87)
  else if 'A' ≤ c && c ≤ 'F' then some (c.toNat - 55)
  else none

/-- Four hexadecimal digits. -/
def readHex4? : List Char → Option (Nat × List Char)
  | a :: b :: c :: d :: rest => do
    let a ← hexValue? a
    let b ← hexValue? b
    let c ← hexValue? c
    let d ← hexValue? d
    some (((a * 16 + b) * 16 + c) * 16 + d, rest)
  | _ => none

/-- The character of a code point outside the surrogates. -/
def charOfCode? (n : Nat) : Option Char :=
  if n < 0xD800 || (0xDFFF < n && n < 0x110000) then some (Char.ofNat n) else none

/-- What a backslash and `u` start: one code point, or two halves of one.  A half by itself stands for
no character. -/
def readUnicode? (s : List Char) : Option (Option Char × List Char) := do
  let (high, rest) ← readHex4? s
  if 0xD800 ≤ high && high < 0xDC00 then
    match rest with
    | '\\' :: 'u' :: rest' =>
      let (low, rest'') ← readHex4? rest'
      if 0xDC00 ≤ low && low < 0xE000 then
        some (some (Char.ofNat (0x10000 + (high - 0xD800) * 0x400 + (low - 0xDC00))), rest'')
      else some (none, rest)
    | _ => some (none, rest)
  else some (charOfCode? high, rest)

/-- The character that an escape of one letter stands for. -/
def simpleEscape? : Char → Option Char
  | '"' => some '"'
  | '\\' => some '\\'
  | '/' => some '/'
  | 'b' => some '\x08'
  | 'f' => some '\x0c'
  | 'n' => some '\n'
  | 'r' => some '\r'
  | 't' => some '\t'
  | _ => none

/-- The rest of a string after its opening quotation mark, `none` for what stands for no character. -/
def readString? : Nat → List Char → Option (List (Option Char) × List Char)
  | 0, _ => none
  | _ + 1, [] => none
  | fuel + 1, c :: rest =>
    if c == '"' then some ([], rest)
    else if c == '\\' then
      match rest with
      | 'u' :: rest' => do
        let (decoded, rest'') ← readUnicode? rest'
        let (text, after) ← readString? fuel rest''
        some (decoded :: text, after)
      | e :: rest' => do
        let decoded ← simpleEscape? e
        let (text, after) ← readString? fuel rest'
        some (some decoded :: text, after)
      | [] => none
    else if c.toNat < 0x20 then none
    else do
      let (text, after) ← readString? fuel rest
      some (some c :: text, after)

/-- The text of a string, if it is one. -/
def textOf? (chars : List (Option Char)) : Option String := (chars.mapM id).map String.ofList

/-- The value that a string is. -/
def ofString (chars : List (Option Char)) : Json :=
  match textOf? chars with
  | some text => str text
  | none => noText

/-- The value that members make. -/
def ofMembers (members : List (List (Option Char) × Json)) : Json :=
  match members.mapM (fun m => (textOf? m.1).map (fun key => (key, m.2))) with
  | some named => obj named
  | none => noText

/-- The value of decimal digits. -/
def digitsNat (digits : List Char) : Nat :=
  digits.foldl (fun n c => n * 10 + (c.toNat - 48)) 0

/-- The digits of an integer part: no zero stands before another digit. -/
def readInteger? (s : List Char) : Option (List Char × List Char) :=
  match s with
  | '0' :: rest =>
    match rest with
    | c :: _ => if c.isDigit then none else some (['0'], rest)
    | [] => some (['0'], [])
  | _ =>
    let digits := s.takeWhile Char.isDigit
    if digits.isEmpty then none else some (digits, s.dropWhile Char.isDigit)

/-- An optional fraction. -/
def readFraction? (s : List Char) : Option (List Char × List Char) :=
  match s with
  | '.' :: rest =>
    let digits := rest.takeWhile Char.isDigit
    if digits.isEmpty then none else some (digits, rest.dropWhile Char.isDigit)
  | _ => some ([], s)

/-- An optional exponent. -/
def readExponent? (s : List Char) : Option (Option Int × List Char) :=
  match s with
  | c :: rest =>
    if c == 'e' || c == 'E' then
      let (negative, rest) := match rest with
        | '-' :: r => (true, r)
        | '+' :: r => (false, r)
        | r => (false, r)
      let digits := rest.takeWhile Char.isDigit
      if digits.isEmpty then none
      else
        let n : Int := digitsNat digits
        some (some (if negative then -n else n), rest.dropWhile Char.isDigit)
    else some (none, s)
  | [] => some (none, [])

/-- A number. -/
def readNumber? (s : List Char) : Option (JsonNumber × List Char) := do
  let (negative, rest) := match s with
    | '-' :: r => (true, r)
    | r => (false, r)
  let (whole, rest) ← readInteger? rest
  let hasFraction := rest.head? == some '.'
  let (fraction, rest) ← readFraction? rest
  let (exponent, rest) ← readExponent? rest
  let value : Number.Decimal :=
    ⟨negative, digitsNat (whole ++ fraction), exponent.getD 0 - fraction.length⟩
  some (⟨value, !hasFraction && exponent.isNone⟩, rest)

mutual

/-- One value; white space before it is skipped. -/
def readValue? : Nat → List Char → Option (Json × List Char)
  | 0, _ => none
  | fuel + 1, s =>
    match skipSpace s with
    | 'n' :: 'u' :: 'l' :: 'l' :: rest => some (null, rest)
    | 't' :: 'r' :: 'u' :: 'e' :: rest => some (bool true, rest)
    | 'f' :: 'a' :: 'l' :: 's' :: 'e' :: rest => some (bool false, rest)
    | '"' :: rest => (readString? (rest.length + 1) rest).map
        (fun (chars, after) => (ofString chars, after))
    | '[' :: rest =>
      match skipSpace rest with
      | ']' :: after => some (arr [], after)
      | _ => (readItems? fuel rest).map (fun (items, after) => (arr items, after))
    | '\x7b' :: rest =>
      match skipSpace rest with
      | '\x7d' :: after => some (obj [], after)
      | _ => (readMembers? fuel rest).map (fun (members, after) => (ofMembers members, after))
    | rest => (readNumber? rest).map (fun (n, after) => (num n, after))

/-- The items of an array up to its closing bracket. -/
def readItems? : Nat → List Char → Option (List Json × List Char)
  | 0, _ => none
  | fuel + 1, s => do
    let (item, rest) ← readValue? fuel s
    match skipSpace rest with
    | ',' :: rest' =>
      let (items, after) ← readItems? fuel rest'
      some (item :: items, after)
    | ']' :: after => some ([item], after)
    | _ => none

/-- The members of an object up to its closing brace. -/
def readMembers? : Nat → List Char → Option (List (List (Option Char) × Json) × List Char)
  | 0, _ => none
  | fuel + 1, s =>
    match skipSpace s with
    | '"' :: rest => do
      let (key, rest) ← readString? (rest.length + 1) rest
      match skipSpace rest with
      | ':' :: rest =>
        let (value, rest) ← readValue? fuel rest
        match skipSpace rest with
        | ',' :: rest' =>
          let (members, after) ← readMembers? fuel rest'
          some ((key, value) :: members, after)
        | '\x7d' :: after => some ([(key, value)], after)
        | _ => none
      | _ => none
    | _ => none

end

/-- The value that a whole text stands for. -/
def ofText? (s : List Char) : Option Json :=
  match readValue? (s.length + 1) s with
  | some (value, rest) => if (skipSpace rest).isEmpty then some value else none
  | none => none

/-- The value that a file stands for. -/
def ofBytes? (bytes : List UInt8) : Option Json :=
  (Text.Utf8.decode? bytes).bind ofText?

end Consolidation.Json
