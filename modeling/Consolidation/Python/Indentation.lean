/-
# `Python.Indentation` — the block structure of a source

A source is a sequence of logical lines.  A logical line goes on over brackets, strings and backslashes at
the ends of lines; it has the indentation of its first line, and it opens a block if it ends
with a colon.  Blank lines and lines with only a comment between logical lines do not count.

Indentation is measured twice, with tab stops eight columns apart and with one column for a tab.  A
source whose blocks depend on the width of a tab is refused, as are a block that is not indented, a
line indented for no reason, and a line indented like none of the blocks around it.
-/
import Consolidation.Text.Lines

namespace Consolidation.Python

open Text

/-! ## Measuring -/

/-- The indentation of a line, measured in two ways. -/
structure Indent where
  /-- With tab stops eight columns apart. -/
  columns : Nat
  /-- With one column for each character. -/
  characters : Nat
deriving DecidableEq, Repr

namespace Indent

def zero : Indent := ⟨0, 0⟩

def tabStop : Nat := 8

/-- Measures on from an indentation; a form feed starts anew. -/
def measureFrom (i : Indent) : List Char → Indent
  | [] => i
  | c :: rest =>
    if c == ' ' then measureFrom ⟨i.columns + 1, i.characters + 1⟩ rest
    else if c == '\t' then
      measureFrom ⟨(i.columns / tabStop + 1) * tabStop, i.characters + 1⟩ rest
    else if c == '\x0c' then measureFrom zero rest
    else i

def measure (line : List Char) : Indent := measureFrom zero line

end Indent

/-! ## Logical lines -/

/-- A string that is open at the end of a line. -/
structure OpenString where
  quote : Char
  triple : Bool
deriving DecidableEq, Repr

/-- What one line leaves open for the next. -/
structure LineState where
  /-- Brackets that are open. -/
  depth : Nat
  openString : Option OpenString
  /-- Did the line end in a backslash? -/
  escaped : Bool
deriving DecidableEq, Repr

namespace LineState

def start : LineState := ⟨0, none, false⟩

/-- Does the next line belong to the same logical line? -/
def continues (s : LineState) : Bool := 0 < s.depth || s.openString.isSome || s.escaped

/-- The state after a character of code, and whether it counts as the last one of its line: it does outside
brackets, and if it closes one. -/
def afterSign (s : LineState) (c : Char) : LineState × Bool :=
  if ['(', '[', '\x7b'].contains c then ({ s with depth := s.depth + 1 }, false)
  else if [')', ']', '\x7d'].contains c then ({ s with depth := s.depth - 1 }, true)
  else (s, s.depth == 0)

/-- The state when the characters of a string have been read up to where it ends, or to the end of
the line, with what is left of the line.  `quotes` is the number of quotes just before. -/
def readString (o : OpenString) (s : LineState) (quotes : Nat) :
    List Char → LineState × Option (List Char)
  | [] => (s, none)
  | ['\\'] => ({ s with escaped := !o.triple }, none)
  | '\\' :: _ :: rest => readString o s 0 rest
  | c :: rest =>
    if c != o.quote then readString o s 0 rest
    else if !o.triple || quotes == 2 then ({ s with openString := none }, some rest)
    else readString o s (quotes + 1) rest

/-- Reads a line on, with the last character of code so far.  Every round takes a character. -/
def read : Nat → LineState → Option Char → List Char → LineState × Option Char
  | 0, s, last, _ => (s, last)
  | _ + 1, s, last, [] => (s, last)
  | fuel + 1, s, last, c :: rest =>
    match s.openString with
    | some o =>
      match readString o s 0 (c :: rest) with
      | (s', some rest') => read fuel s' (some o.quote) rest'
      | (s', none) => (s', last)
    | none =>
      if c == '#' then (s, last)
      else if c == '\\' && rest.isEmpty then ({ s with escaped := true }, last)
      else if c == '"' || c == '\'' then
        let opened (triple : Bool) : LineState := { s with openString := some ⟨c, triple⟩ }
        let last' := if s.depth == 0 then some c else last
        if rest.head? != some c then read fuel (opened false) last' rest
        else if rest.tail.head? != some c then read fuel s (some c) rest.tail
        else read fuel (opened true) last' rest.tail.tail
      else if isBlank c then read fuel s last rest
      else
        let (s', counts) := s.afterSign c
        read fuel s' (if counts then some c else last) rest

/-- A string of one line does not go on without a backslash. -/
def closeLine (s : LineState) : LineState :=
  match s.openString with
  | some o => if !o.triple && !s.escaped then { s with openString := none } else s
  | none => s

/-- The state after a line, and the last character of code in it. -/
def consume (s : LineState) (line : List Char) : LineState × Option Char :=
  let (s', last) := read line.length { s with escaped := false } none line
  (s'.closeLine, last)

end LineState

/-- A logical line: the number of its first line, its indentation, and whether it opens a block. -/
structure LogicalLine where
  number : Nat
  indent : Indent
  opens : Bool
deriving DecidableEq, Repr

namespace LogicalLine

/-- Is there nothing on a line but blanks and a comment? -/
def isVoid (line : List Char) : Bool :=
  match line.dropWhile (fun c => c == ' ' || c == '\t' || c == '\x0c') with
  | [] => true
  | c :: _ => c == '#'

/-- The logical lines of some lines, the first of which has the given number.  `current` is the logical
line that goes on. -/
def ofLines (s : LineState) (current : Option LogicalLine) (number : Nat) :
    List (List Char) → List LogicalLine
  | [] => current.toList
  | line :: rest =>
    let (s', last) := s.consume line
    match (if s.continues then current else none) with
    | some logical =>
      let opens := if last.isSome then last == some ':' && !s'.continues else logical.opens
      ofLines s' (some { logical with opens := opens }) (number + 1) rest
    | none =>
      if isVoid line then current.toList ++ ofLines s none (number + 1) rest
      else
        let opens := last == some ':' && !s'.continues
        current.toList ++ ofLines s' (some ⟨number, .measure line, opens⟩) (number + 1) rest

/-- The logical lines of a source. -/
def ofSource (source : List Char) : List LogicalLine := ofLines .start none 1 (lines source)

end LogicalLine

/-! ## Blocks -/

/-- What can be wrong with an indentation. -/
inductive IndentationCause where
  | expectedBlock
  | unexpectedIndent
  | inconsistentTabs
  | unknownLevel
deriving DecidableEq, Repr

namespace IndentationCause

def message : IndentationCause → String
  | expectedBlock => "expected an indented block"
  | unexpectedIndent => "unexpected indent"
  | inconsistentTabs => "inconsistent use of tabs and spaces in indentation"
  | unknownLevel => "unindent does not match any outer indentation level"

end IndentationCause

/-- A wrong indentation, and where it is. -/
structure IndentationFault where
  cause : IndentationCause
  line : Nat
  column : Nat
deriving DecidableEq, Repr

/-- The blocks around a line, the innermost first; the block of the whole source is not listed. -/
abbrev Levels := List Indent

namespace Levels

def innermost (levels : Levels) : Indent := levels.headD .zero

/-- The blocks that go on at a line with an indentation, or why it fits none of them.  `expected`
says that the line before opens a block. -/
def enter (levels : Levels) (expected : Bool) (indent : Indent) : Except IndentationCause Levels :=
  let current := levels.innermost
  if expected then
    if indent.columns ≤ current.columns then .error .expectedBlock
    else if indent.characters ≤ current.characters then .error .inconsistentTabs
    else .ok (indent :: levels)
  else if current.columns < indent.columns then .error .unexpectedIndent
  else
    let rest : Levels := levels.dropWhile (fun level => indent.columns < level.columns)
    if rest.innermost.columns != indent.columns then .error .unknownLevel
    else if rest.innermost.characters != indent.characters then .error .inconsistentTabs
    else .ok rest

end Levels

/-- Checks logical lines one after the other.  `finish` is the number of the line behind the
last one. -/
def checkLines (finish : Nat) : Levels → Bool → List LogicalLine → Except IndentationFault Unit
  | _, expected, [] => if expected then .error ⟨.expectedBlock, finish, 1⟩ else .ok ()
  | levels, expected, line :: rest =>
    match levels.enter expected line.indent with
    | .error cause => .error ⟨cause, line.number, line.indent.columns + 1⟩
    | .ok levels' => checkLines finish levels' line.opens rest

/-- Checks the indentation of a source. -/
def checkIndentation (source : List Char) : Except IndentationFault Unit :=
  checkLines ((lines source).length + 1) [] false (LogicalLine.ofSource source)

end Consolidation.Python
