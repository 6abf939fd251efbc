/-
# `Python.LineScan` — function definitions found line by line

`scanLines` finds function definitions in a source whose grammar is broken.  A line that
starts a header and closes it, or is followed within three lines by one that closes it, gives a
definition.  Its body goes on as long as the lines are indented more than the header; tabs count as
four spaces.  There is no tree to count decisions in, so the complexity is a low guess.

The parameters are read from the header on one line: strings become empty, groups of brackets vanish from
the inside out, and what commas separate before the closing bracket are the parameters.
-/
import Consolidation.Python.Definition
import Consolidation.Text.Utf8

namespace Consolidation.Python

open Text

/-- A line without its end. -/
abbrev Line := List Char

namespace Line

/-! ## Comments -/

/-- What follows the first `quote`, if there is one. -/
def afterQuote? (quote : Char) : List Char → Option (List Char)
  | [] => none
  | c :: rest => if c == quote then some rest else afterQuote? quote rest

/-- The length of the code up to a comment, or to a quote that is not closed. -/
def codeLength : Nat → Line → Nat
  | 0, _ => 0
  | _ + 1, [] => 0
  | fuel + 1, c :: rest =>
    if c == '#' then 0
    else if isQuote c then
      match afterQuote? c rest with
      | some rest' => (1 + rest.length - rest'.length) + codeLength fuel rest'
      | none => 0
    else 1 + codeLength fuel rest

/-- A line without its comment. -/
def withoutComment (line : Line) : Line :=
  let length := codeLength line.length line
  if (line.drop length).head? == some '#' then line.take length else line

/-! ## Headers -/

/-- Where a header starts: its indentation, the name, and what follows the opening bracket. -/
structure HeaderStart where
  indent : Nat
  name : List Char
  rest : List Char
deriving DecidableEq, Repr

/-- The name at the front, and what follows it. -/
def leadingName? (s : List Char) : Option (List Char × List Char) :=
  match s with
  | c :: _ =>
    if isWordChar c && !isDecimalDigit c then some (s.takeWhile isWordChar, s.dropWhile isWordChar)
    else none
  | [] => none

/-- Drops blanks, of which there has to be one. -/
def dropBlanks? (s : List Char) : Option (List Char) :=
  if (s.head?.map isBlank).getD false then some (trimStart s) else none

/-- What follows the word `async` and blanks at the front, or everything. -/
def afterAsync (s : List Char) : List Char :=
  ((stripStart? "async".toList s).bind dropBlanks?).getD s

/-- The header that starts on a line. -/
def headerStart? (line : Line) : Option HeaderStart := do
  let isIndent (c : Char) : Bool := c == ' ' || c == '\t'
  let afterDef ← stripStart? "def".toList (afterAsync (line.dropWhile isIndent))
  let (name, afterName) ← leadingName? (← dropBlanks? afterDef)
  let rest ← stripStart? ['('] (trimStart afterName)
  some ⟨(line.takeWhile isIndent).length, name, rest⟩

/-- What follows the colon of a header, if a closing bracket has just been read. -/
def afterClose? (s : List Char) : Option (List Char) :=
  let s := trimStart s
  match stripStart? "->".toList s with
  | some result => stripStart? [':'] (result.dropWhile (· != ':'))
  | none => stripStart? [':'] s

/-- What follows the first place where a header can end. -/
def headerEnd? : List Char → Option (List Char)
  | [] => none
  | c :: rest =>
    match (if c == ')' then afterClose? rest else none) with
    | some behind => some behind
    | none => headerEnd? rest

/-- Does a header end on a line? -/
def closesHeader (line : Line) : Bool := (headerEnd? (withoutComment line)).isSome

/-- Does the body stand on the line where the header ends? -/
def hasInlineBody (line : Line) : Bool :=
  match headerEnd? (withoutComment line) with
  | some behind => !(trim behind).isEmpty
  | none => false

/-- How many lines behind its first one a header may take. -/
def maxContinuation : Nat := 3

/-- How many lines a header takes behind its first one, if it ends in time. -/
def continuation? (first : Line) (rest : List Line) : Option Nat :=
  if closesHeader first then some 0
  else ((rest.take maxContinuation).findIdx? closesHeader).map (· + 1)

/-! ## Parameters -/

/-- Makes the string literals of one line empty. -/
def emptyStrings : Nat → List Char → List Char
  | 0, s => s
  | _ + 1, [] => []
  | fuel + 1, c :: rest =>
    match (if isQuote c then afterQuote? c rest else none) with
    | some rest' => '"' :: '"' :: emptyStrings fuel rest'
    | none => c :: emptyStrings fuel rest

/-- The bracket that closes a group. -/
def closer? (c : Char) : Option Char :=
  if c == '(' then some ')'
  else if c == '[' then some ']'
  else if c == '\x7b' then some '\x7d'
  else none

def isBracket (c : Char) : Bool := ['(', ')', '[', ']', '\x7b', '\x7d'].contains c

/-- What follows a group without brackets inside, behind its opening bracket. -/
def afterGroup? (close : Char) : List Char → Option (List Char)
  | [] => none
  | c :: rest =>
    if c == close then some rest else if isBracket c then none else afterGroup? close rest

/-- What is left behind a group is shorter. -/
theorem length_afterGroup? {close : Char} {s r : List Char} (h : afterGroup? close s = some r) :
    r.length < s.length := by
  induction s with
  | nil => simp [afterGroup?] at h
  | cons c rest ih =>
    unfold afterGroup? at h
    split at h
    · cases h
      simp
    · split at h
      · cases h
      · have := ih h
        simp
        omega

/-- The group without brackets inside at the front, if there is one: what follows it. -/
def dropGroup? : List Char → Option (List Char)
  | [] => none
  | c :: rest => (closer? c).bind (fun close => afterGroup? close rest)

theorem length_dropGroup? {c : Char} {s r : List Char} (h : dropGroup? (c :: s) = some r) :
    r.length < s.length := by
  obtain ⟨_, _, hr⟩ := Option.bind_eq_some_iff.1 h
  exact length_afterGroup? hr

/-- Drops the groups that hold no brackets. -/
def dropGroups : List Char → List Char
  | [] => []
  | c :: rest =>
    match h : dropGroup? (c :: rest) with
    | some rest' =>
      have : rest'.length < rest.length := length_dropGroup? h
      dropGroups rest'
    | none => c :: dropGroups rest
termination_by s => s.length

/-- Dropping groups shortens a text or leaves it alone. -/
theorem dropGroups_eq_or_length_lt (s : List Char) :
    dropGroups s = s ∨ (dropGroups s).length < s.length := by
  fun_induction dropGroups s with
  | case1 => exact .inl rfl
  | case2 c rest rest' h hlt ih =>
    right
    rcases ih with ih | ih
    · rw [ih]
      simp
      omega
    · simp
      omega
  | case3 c rest h ih =>
    rcases ih with ih | ih
    · exact .inl (by rw [ih])
    · right
      simpa using ih

/-- Drops all groups of brackets, from the inside out. -/
def flattenGroups (s : List Char) : List Char :=
  if h : dropGroups s = s then s
  else
    have : (dropGroups s).length < s.length := (dropGroups_eq_or_length_lt s).resolve_left h
    flattenGroups (dropGroups s)
termination_by s.length

/-- The name of the parameter that a piece of the list declares. -/
def parameterName? (piece : List Char) : Option (List Char) := do
  let start := trimStart piece
  let stars := ((start.takeWhile (· == '*')).take 2).length
  let (name, rest) ← leadingName? (trimStart (start.drop stars))
  match trimStart rest with
  | [] => some name
  | c :: _ => if c == ':' || c == '=' then some name else none

/-- The names of the parameters of a header on one line. -/
def parameterNames (header : Line) : List (List Char) :=
  match headerStart? header with
  | none => []
  | some start =>
    let list := flattenGroups (emptyStrings start.rest.length start.rest)
    (splitOn ',' (list.takeWhile (· != ')'))).filterMap parameterName?

/-! ## Bodies -/

def isVoid (line : Line) : Bool := (trim line).isEmpty

/-- The number of bytes of the blanks at the start. -/
def indentation (line : Line) : Nat :=
  (Utf8.encode (line.takeWhile isBlank)).length

/-- How many of some lines belong to the body of a header indented by `indent`: those up to the
last line that is not blank before one that is not indented more. -/
def bodyLength (indent : Nat) : List Line → Nat
  | [] => 0
  | line :: rest =>
    if isVoid line then
      match bodyLength indent rest with
      | 0 => 0
      | n + 1 => n + 2
    else if indentation line ≤ indent then 0
    else bodyLength indent rest + 1

/-- The quotes of a literal over several lines at the front. -/
def tripleQuotes? (body : List Char) : Option (List Char) :=
  [['"', '"', '"'], ['\'', '\'', '\'']].find? (fun quotes => startsWith quotes body)

/-- The text of a literal that has been open so far and ends on one of some lines. -/
def closeLiteral? (quotes literal : List Char) : List Line → Option (List Char)
  | [] => none
  | line :: rest =>
    let literal := literal ++ '\n' :: trim line
    if occursIn quotes line then literalText? literal else closeLiteral? quotes literal rest

/-- The docstring of a header indented by `indent`, on the lines behind it. -/
def docstring? (indent : Nat) (lines : List Line) : Option (List Char) :=
  match lines.dropWhile isVoid with
  | [] => none
  | first :: rest =>
    if indentation first ≤ indent then none
    else do
      let literal := trim first
      let (_, body) ← splitLiteral? literal
      match tripleQuotes? body with
      | none => literalText? literal
      | some quotes =>
        if occursIn quotes (body.drop quotes.length) then literalText? literal
        else closeLiteral? quotes literal rest

/-! ## The scan -/

/-- The definition whose header starts on the line of this number and takes `more` lines
behind it; `rest` are the lines behind the first one. -/
def definition (number : Nat) (start : HeaderStart) (first : Line) (rest : List Line) (more : Nat) :
    Definition :=
  let header := first :: rest.take more
  let behind := rest.drop more
  let body := bodyLength start.indent behind
  {
    name := start.name
    args := parameterNames (joinWith [' '] (header.map (fun line => trim (withoutComment line))))
    firstLine := number
    lastLine := number + more + body
    docstring :=
      if hasInlineBody (header.getLastD first) then none else docstring? start.indent behind
    complexity := if more == 0 then 1 else 2
    source := joinWith ['\n'] (header ++ behind.take body) }

/-- The header that starts on the first line and ends in time, with the number of lines behind the
first one that it takes. -/
def header? (first : Line) (rest : List Line) : Option (HeaderStart × Nat) := do
  let start ← headerStart? first
  let more ← continuation? first rest
  some (start, more)

/-- The definitions on some lines, the first of which has the given number. -/
def scanFrom (number : Nat) : List Line → List Definition
  | [] => []
  | first :: rest =>
    match header? first rest with
    | some (start, more) =>
      definition number start first rest more :: scanFrom (number + more + 1) (rest.drop more)
    | none => scanFrom (number + 1) rest
termination_by lines => lines.length
decreasing_by
  · simp only [List.length_drop, List.length_cons]
    omega
  · simp only [List.length_cons]
    omega

/-- A line with four spaces for each tab. -/
def expandTabs (line : Line) : Line :=
  line.flatMap (fun c => if c == '\t' then [' ', ' ', ' ', ' '] else [c])

end Line

/-- The function definitions found line by line. -/
def scanLines (source : List Char) : List Definition :=
  Line.scanFrom 1 ((lines source).map Line.expandTabs)

end Consolidation.Python
