/-
# `ParseError` — what went wrong with one file, and its line of text

A parse error names a file, says what is wrong and may point at a line.  It is kept as one
text, `path:line: message` or `path: message`.  Reading such a text back takes the path up to the
first colon that a space follows; a number behind a last colon of the path is the line.
-/
import Consolidation.Number.Width
import Consolidation.Text.Lines
import Consolidation.Text.Quoted

namespace Consolidation

open Text

/-- A recoverable problem with one file. -/
structure ParseError where
  filePath : String
  message : String
  lineNumber : Option Nat
deriving DecidableEq, Repr

/-- Why a text is no parse error. -/
inductive ParseErrorFault where
  | malformed (raw : String)
  | noPath (raw : String)
deriving DecidableEq, Repr

namespace ParseErrorFault

def message : ParseErrorFault → String
  | malformed raw => "malformed parse error entry: " ++ quoted raw
  | noPath raw => "parse error entry without a path: " ++ quoted raw

end ParseErrorFault

/-- The number that decimal digits write, the digits before them writing `acc`. -/
def digitsValue (acc : Nat) : List Char → Option Nat
  | [] => some acc
  | c :: rest =>
    if c.isDigit then digitsValue (acc * 10 + (c.toNat - '0'.toNat)) rest else none

/-- A number up to `limit`, in decimal digits after an optional plus sign. -/
def readNatUpTo? (limit : Nat) (s : List Char) : Option Nat :=
  let digits := match s with
    | '+' :: rest => rest
    | s => s
  if digits.isEmpty then none
  else (digitsValue 0 digits).filter (· ≤ limit)

namespace ParseError

/-- The text of a parse error. -/
def display (e : ParseError) : String :=
  match e.lineNumber with
  | some line => e.filePath ++ ":" ++ toString line ++ ": " ++ e.message
  | none => e.filePath ++ ": " ++ e.message

/-- Splits what precedes the message into a path and a line. -/
def splitLocation (head : List Char) : List Char × Option Nat :=
  match splitLast? ':' head with
  | some (path, line) =>
    if path.isEmpty then (head, none)
    else match readNatUpTo? maxWord line with
      | some n => (path, some n)
      | none => (head, none)
  | none => (head, none)

/-- The parse error that a text stands for. -/
def ofText (raw : String) : Except ParseErrorFault ParseError :=
  match splitOnce? [':', ' '] raw.toList with
  | none => .error (.malformed raw)
  | some (head, message) =>
    let (path, line) := splitLocation head
    if path.isEmpty then .error (.noPath raw)
    else .ok ⟨String.ofList path, String.ofList message, line⟩

end ParseError

end Consolidation
