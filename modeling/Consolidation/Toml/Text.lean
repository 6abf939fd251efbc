/-
# `Toml.Text` — quoted texts, keys and blanks

A text stands between quotes on one line, or between three quotes on several.  Between double quotes a
backslash starts an escape; between single quotes nothing does.  The line end after
three opening quotes is dropped, and any other line end reads as a line feed.
-/
import Consolidation.Json.Reader
import Consolidation.Text.Lines
import Consolidation.Toml.Basic

namespace Consolidation.Toml

/-! ## Blanks, comments and line ends -/

def isGap (c : Char) : Bool := c == ' ' || c == '\t'

/-- May a character stand in a comment? -/
def isCommentChar (c : Char) : Bool := c == '\t' || (0x20 ≤ c.toNat && c.toNat != 0x7F)

def skipGaps (s : List Char) : List Char := s.dropWhile isGap

/-- What follows a line end. -/
def skipNewline? : List Char → Option (List Char)
  | '\n' :: rest => some rest
  | '\r' :: '\n' :: rest => some rest
  | _ => none

/-- What follows the rest of a line that may only hold a comment. -/
def skipLine? (s : List Char) : Option (List Char) :=
  let s := skipGaps s
  let s := if s.head? == some '#' then s.dropWhile isCommentChar else s
  if s.isEmpty then some [] else skipNewline? s

/-- Skips blanks, line ends and comments, which a line end has to close. -/
def skipBetween? (comment : Bool) : List Char → Option (List Char)
  | [] => if comment then none else some []
  | '\n' :: rest => skipBetween? false rest
  | '\r' :: '\n' :: rest => skipBetween? false rest
  | c :: rest =>
    if comment then if isCommentChar c then skipBetween? true rest else none
    else if c == '#' then skipBetween? true rest
    else if isGap c then skipBetween? false rest
    else some (c :: rest)

/-! ## Texts -/

/-- May a character stand for itself between double quotes? -/
def isPlain (c : Char) : Bool := isCommentChar c && c != '"' && c != '\\'

/-- May a character stand between single quotes? -/
def isLiteral (c : Char) : Bool := isCommentChar c && c != '\''

/-- The character whose code `count` hexadecimal digits write. -/
def readCode? (count : Nat) (s : List Char) : Option (Char × List Char) := do
  let digits := s.take count
  if digits.length < count then none
  else
    let values ← digits.mapM Json.hexValue?
    let c ← Json.charOfCode? (values.foldl (fun n d => n * 16 + d) 0)
    some (c, s.drop count)

/-- The character that stands for what follows a backslash. -/
def readEscape? : List Char → Option (Char × List Char)
  | 'b' :: rest => some ('\x08', rest)
  | 't' :: rest => some ('\t', rest)
  | 'n' :: rest => some ('\n', rest)
  | 'f' :: rest => some ('\x0c', rest)
  | 'r' :: rest => some ('\r', rest)
  | '"' :: rest => some ('"', rest)
  | '\\' :: rest => some ('\\', rest)
  | 'u' :: rest => readCode? 4 rest
  | 'U' :: rest => readCode? 8 rest
  | _ => none

/-- The rest of a text on one line, up to its closing double quote. -/
def readLineText? : Nat → List Char → Option (List Char × List Char)
  | 0, _ => none
  | _ + 1, [] => none
  | fuel + 1, c :: rest =>
    if c == '"' then some ([], rest)
    else if c == '\\' then do
      let (decoded, rest) ← readEscape? rest
      let (more, after) ← readLineText? fuel rest
      some (decoded :: more, after)
    else if isPlain c then do
      let (more, after) ← readLineText? fuel rest
      some (c :: more, after)
    else none

/-- The quotes at the end of a text on several lines: of up to five the last three close it. -/
def closingQuotes? (quote : Char) (s : List Char) : Option (List Char × List Char) :=
  let count := (s.takeWhile (· == quote)).length
  if 3 ≤ count && count ≤ 5 then some (List.replicate (count - 3) quote, s.drop count) else none

/-- Skips blanks and line ends. -/
def skipSpace : List Char → List Char
  | '\r' :: '\n' :: rest => skipSpace rest
  | c :: rest => if c == '\n' || isGap c then skipSpace rest else c :: rest
  | [] => []

/-- The rest of a text on several lines, up to its three closing quotes; `escapes` says whether backslashes
start escapes. -/
def readBlockText? (quote : Char) (escapes : Bool) : Nat → List Char → Option (List Char × List Char)
  | 0, _ => none
  | fuel + 1, s =>
    match s with
    | [] => none
    | c :: rest =>
      if c == quote then
        if (s.take 3).length == 3 && (s.take 3).all (· == quote) then closingQuotes? quote s
        else do
          let (more, after) ← readBlockText? quote escapes fuel rest
          some (c :: more, after)
      else if c == '\\' && escapes then
        if (skipNewline? (skipGaps rest)).isSome then readBlockText? quote escapes fuel (skipSpace rest)
        else do
          let (decoded, rest) ← readEscape? rest
          let (more, after) ← readBlockText? quote escapes fuel rest
          some (decoded :: more, after)
      else match skipNewline? s with
        | some rest => do
          let (more, after) ← readBlockText? quote escapes fuel rest
          some ('\n' :: more, after)
        | none =>
          if isCommentChar c then do
            let (more, after) ← readBlockText? quote escapes fuel rest
            some (c :: more, after)
          else none

/-- The rest of a text between single quotes on one line. -/
def readLiteral? (s : List Char) : Option (List Char × List Char) :=
  match s.dropWhile isLiteral with
  | '\'' :: rest => some (s.takeWhile isLiteral, rest)
  | _ => none

/-- A text in any of the four forms. -/
def readText? (s : List Char) : Option (List Char × List Char) :=
  let block (quote : Char) (escapes : Bool) (rest : List Char) :=
    readBlockText? quote escapes (rest.length + 1) ((skipNewline? rest).getD rest)
  match s with
  | '"' :: '"' :: '"' :: rest => block '"' true rest
  | '"' :: rest => readLineText? (rest.length + 1) rest
  | '\'' :: '\'' :: '\'' :: rest => block '\'' false rest
  | '\'' :: rest => readLiteral? rest
  | _ => none

/-! ## Keys -/

def isBareKeyChar (c : Char) : Bool := c.isAlphanum || c == '-' || c == '_'

/-- One part of a key: quoted on one line, or bare. -/
def readKeyPart? (s : List Char) : Option (String × List Char) :=
  match s with
  | '"' :: rest => (readLineText? (rest.length + 1) rest).map (fun (t, r) => (String.ofList t, r))
  | '\'' :: rest => (readLiteral? rest).map (fun (t, r) => (String.ofList t, r))
  | _ =>
    let bare := s.takeWhile isBareKeyChar
    if bare.isEmpty then none else some (String.ofList bare, s.dropWhile isBareKeyChar)

/-- The parts of a key between dots, with blanks around them. -/
def readKeyParts? : Nat → List Char → Option (List String × List Char)
  | 0, _ => none
  | fuel + 1, s => do
    let (part, rest) ← readKeyPart? (skipGaps s)
    match skipGaps rest with
    | '.' :: rest =>
      let (parts, after) ← readKeyParts? fuel rest
      some (part :: parts, after)
    | rest => some ([part], rest)

/-- A key: its parts, at most so many as a key may have levels. -/
def readKey? (s : List Char) : Option (List String × List Char) :=
  (readKeyParts? (s.length + 1) s).filter (fun k => k.1.length < levelLimit)

end Consolidation.Toml
