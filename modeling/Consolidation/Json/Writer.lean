/-
# `Json.Writer` — writing JSON text

`toText` writes a value on one line, `toPrettyText` over several, two spaces deeper at each
level.  Characters other than controls, quotation marks and backslashes stand for themselves.
What is no text is written like nothing.
-/
import Consolidation.Json.Basic
import Consolidation.Text.Quoted
import Consolidation.Text.Utf8

namespace Consolidation.Json

/-- One character of a string. -/
def escapeChar (c : Char) : List Char :=
  match c with
  | '"' => ['\\', '"']
  | '\\' => ['\\', '\\']
  | '\x08' => ['\\', 'b']
  | '\x0c' => ['\\', 'f']
  | '\n' => ['\\', 'n']
  | '\r' => ['\\', 'r']
  | '\t' => ['\\', 't']
  | c =>
    if c.toNat < 0x20 then
      let digits := Text.hexDigits c.toNat
      ['\\', 'u'] ++ List.replicate (4 - digits.length) '0' ++ digits
    else [c]

/-- A string with its quotation marks. -/
def stringText (s : String) : List Char :=
  '"' :: s.toList.flatMap escapeChar ++ ['"']

/-- A number: integers by their digits, others with a fraction or an exponent. -/
def numberText (n : JsonNumber) : List Char :=
  if n.integral then n.value.positional else n.value.dataText

mutual

/-- A value on one line. -/
def toText : Json → List Char
  | null | noText => "null".toList
  | bool true => "true".toList
  | bool false => "false".toList
  | num n => numberText n
  | str s => stringText s
  | arr items => '[' :: itemsText items ++ [']']
  | obj members => '\x7b' :: membersText members ++ ['\x7d']

def itemsText : List Json → List Char
  | [] => []
  | [item] => toText item
  | item :: rest => toText item ++ ',' :: itemsText rest

def membersText : List (String × Json) → List Char
  | [] => []
  | [(key, value)] => stringText key ++ ':' :: toText value
  | (key, value) :: rest => stringText key ++ ':' :: toText value ++ ',' :: membersText rest

end

/-- A new line, indented to the given depth. -/
def newLine (depth : Nat) : List Char := '\n' :: List.replicate (2 * depth) ' '

mutual

/-- A value over several lines, its inner lines one level deeper than `depth`. -/
def prettyText (depth : Nat) : Json → List Char
  | arr [] => ['[', ']']
  | arr items => '[' :: prettyItems (depth + 1) items ++ newLine depth ++ [']']
  | obj [] => ['\x7b', '\x7d']
  | obj members => '\x7b' :: prettyMembers (depth + 1) members ++ newLine depth ++ ['\x7d']
  | null | noText => toText null
  | bool b => toText (bool b)
  | num n => toText (num n)
  | str s => toText (str s)

def prettyItems (depth : Nat) : List Json → List Char
  | [] => []
  | [item] => newLine depth ++ prettyText depth item
  | item :: rest => newLine depth ++ prettyText depth item ++ ',' :: prettyItems depth rest

def prettyMembers (depth : Nat) : List (String × Json) → List Char
  | [] => []
  | [(key, value)] => newLine depth ++ stringText key ++ ':' :: ' ' :: prettyText depth value
  | (key, value) :: rest =>
    newLine depth ++ stringText key ++ ':' :: ' ' :: prettyText depth value ++
      ',' :: prettyMembers depth rest

end

/-- A value over several lines. -/
def toPrettyText (j : Json) : List Char := prettyText 0 j

/-- The bytes of a value on one line. -/
def toBytes (j : Json) : List UInt8 := Text.Utf8.encode j.toText

/-- The bytes of a value over several lines. -/
def toPrettyBytes (j : Json) : List UInt8 := Text.Utf8.encode j.toPrettyText

end Consolidation.Json
