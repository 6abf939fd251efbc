/-
# `Python.Lexer` — from source text to tokens

`tokens` cuts a source into tokens.  One step looks at what stands at the front of the text, in one
of three modes: code, the text of a formatted string, or the format of one of its holes.  Each step
takes at least one character, so the length of the source bounds the number of steps.

Blanks, comments and escaped line ends only separate tokens.  The indentation of a line is
counted with tabs as eight columns; a form feed or carriage return starts the count anew.
-/
import Consolidation.Python.Token
import Consolidation.Text.CharClass

namespace Consolidation.Python

open Text

namespace Lexer

/-! ## What stands at the front of a text -/

def isIdentStart (c : Char) : Bool := c == '_' || isNameStart c

def isIdentChar (c : Char) : Bool := c == '_' || isNameContinue c

def isHexDigit (c : Char) : Bool :=
  c.isDigit || ('a' ≤ c && c ≤ 'f') || ('A' ≤ c && c ≤ 'F')

def isOctalDigit (c : Char) : Bool := '0' ≤ c && c ≤ '7'

def isBinaryDigit (c : Char) : Bool := c == '0' || c == '1'

/-- The length of a run of digits in which single low lines may separate digits, and if
`trailing` is set follow the last one. -/
def digitRun (isDigit : Char → Bool) (trailing : Bool) : List Char → Nat
  | [] => 0
  | c :: rest =>
    if isDigit c then 1 + digitRun isDigit trailing rest
    else if c == '_' then
      match rest with
      | d :: _ =>
        if isDigit d then 1 + digitRun isDigit trailing rest else if trailing then 1 else 0
      | [] => if trailing then 1 else 0
    else 0

/-- The length of an exponent. -/
def exponentLength (s : List Char) : Nat :=
  match s with
  | c :: rest =>
    if c == 'e' || c == 'E' then
      let signLength := match rest with
        | '+' :: _ => 1
        | '-' :: _ => 1
        | _ => 0
      match rest.drop signLength with
      | d :: digits =>
        if d.isDigit then 1 + signLength + digitRun Char.isDigit true (d :: digits) else 0
      | [] => 0
    else 0
  | [] => 0

/-- The length of one of some letters at the front. -/
def suffixLength (letters : List Char) : List Char → Nat
  | c :: _ => if letters.contains c then 1 else 0
  | [] => 0

/-- The length of a number with a base of its own, after `0` and the letter of the base. -/
def basedLength (isDigit : Char → Bool) (rest : List Char) : Nat :=
  let digits := digitRun isDigit false rest
  if digits == 0 then 1 else 2 + digits + suffixLength ['L', 'l'] (rest.drop digits)

/-- The length of a decimal number that may have a fraction, an exponent and a suffix. -/
def decimalLength (s : List Char) : Nat :=
  let whole := match s with
    | '_' :: _ => 0
    | _ => digitRun Char.isDigit true s
  let rest := s.drop whole
  let fraction := match rest with
    | '.' :: d :: more =>
      if d.isDigit then 1 + digitRun Char.isDigit true (d :: more) else if whole == 0 then 0 else 1
    | ['.'] => if whole == 0 then 0 else 1
    | _ => 0
  if whole + fraction == 0 then 0
  else
    let rest := rest.drop fraction
    let exponent := exponentLength rest
    let rest := rest.drop exponent
    let suffix :=
      if fraction == 0 && exponent == 0 then suffixLength ['L', 'l', 'J', 'j'] rest
      else suffixLength ['J', 'j'] rest
    whole + fraction + exponent + suffix

/-- The length of the number at the front, zero if there is none. -/
def numberLength (s : List Char) : Nat :=
  match s with
  | '0' :: c :: rest =>
    if c == 'x' || c == 'X' then basedLength isHexDigit rest
    else if c == 'o' || c == 'O' then basedLength isOctalDigit rest
    else if c == 'b' || c == 'B' then basedLength isBinaryDigit rest
    else decimalLength s
  | _ => decimalLength s

/-- The signs, longer ones before those they start with. -/
def signs : List String := [
  "**=", "//=", ">>=", "<<=", "...", "->", ":=", "==", "!=", "<>", "<=", ">=", "**", "//", "<<",
  ">>", "+=", "-=", "*=", "/=", "%=", "@=", "&=", "|=", "^=", "(", ")", "[", "]", "\x7b", "\x7d",
  ",", ":", ";", ".", "=", "<", ">", "+", "-", "*", "/", "%", "@", "&", "|", "^", "~"]

/-- The sign at the front. -/
def signAt? (s : List Char) : Option String := signs.find? (fun sign => sign.toList.isPrefixOf s)

/-- How a string literal opens. -/
structure Opening where
  /-- The characters up to and with the opening quotes. -/
  length : Nat
  quote : Char
  triple : Bool
  raw : Bool
  formatted : Bool

def isPrefixLetter (c : Char) : Bool := "fFrRbBuU".toList.contains c

/-- The string literal that opens at the front. -/
def opening? (s : List Char) : Option Opening :=
  let letters := s.takeWhile isPrefixLetter
  let raw := letters.any (fun c => c == 'r' || c == 'R')
  let formatted := letters.any (fun c => c == 'f' || c == 'F')
  match s.drop letters.length with
  | q :: rest =>
    if q == '\'' || q == '"' then
      if [q, q].isPrefixOf rest then some ⟨letters.length + 3, q, true, raw, formatted⟩
      else some ⟨letters.length + 1, q, false, raw, formatted⟩
    else none
  | [] => none

/-- The length of the closing quotes at the front, zero if there are none. -/
def closingLength (quote : Char) (triple : Bool) (s : List Char) : Nat :=
  if triple then if [quote, quote, quote].isPrefixOf s then 3 else 0
  else if [quote].isPrefixOf s then 1 else 0

/-- The length of an escape in a raw string: the backslash keeps a quote or another backslash
from being read on their own. -/
def rawEscapeLength (quote : Char) (rest : List Char) : Nat :=
  match rest with
  | c :: _ => if c == quote || c == '\\' || c == '\n' || c == '\r' then 2 else 1
  | [] => 1

/-- The length of a string from behind its opening quotes to behind its closing ones; `none` if
it is not closed, or a line end stands in a string of one line.  `skip` characters are escaped. -/
def bodyLength? (quote : Char) (triple raw : Bool) : Nat → List Char → Option Nat
  | _, [] => none
  | skip + 1, _ :: rest => (bodyLength? quote triple raw skip rest).map (· + 1)
  | 0, c :: rest =>
    if c == '\\' then
      let skip := if raw then rawEscapeLength quote rest - 1 else 1
      (bodyLength? quote triple raw skip rest).map (· + 1)
    else if closingLength quote triple (c :: rest) != 0 then
      some (closingLength quote triple (c :: rest))
    else if c == '\n' && !triple then none
    else (bodyLength? quote triple raw 0 rest).map (· + 1)

/-! ## The modes -/

inductive Mode where
  /-- Code, inside so many brackets; code below other modes is a hole. -/
  | code (depth : Nat)
  /-- The text of a formatted string. -/
  | text (quote : Char) (triple raw : Bool)
  /-- The format of a hole. -/
  | format
deriving DecidableEq, Repr

/-- What is known between two steps. -/
structure Scan where
  place : Place
  /-- The innermost mode comes first. -/
  modes : List Mode
  /-- Does the logical line have a token yet? -/
  begun : Bool
  /-- Where the last token or comment of the logical line ended. -/
  last : Place
  /-- Has the logical line ended? -/
  ended : Bool
  /-- Comments on lines of their own since then, the last one first. -/
  comments : List Comment
  /-- The indentation counted so far on the current line. -/
  indent : Nat

def Scan.start : Scan := ⟨.start, [.code 0], false, .start, false, [], 0⟩

/-- What a step does: the tokens it finds, what is known after it, how many characters it takes. -/
structure Step where
  found : List Token
  scan : Scan
  taken : Nat

namespace Scan

/-- Takes characters that make no token. -/
def skip (s : Scan) (text : List Char) : Step :=
  ⟨[], { s with place := s.place.after text }, text.length⟩

/-- The token that ends the logical line before the current place, if it has ended. -/
def pendingLineEnd (s : Scan) (indent : Nat) : List Token :=
  if s.ended then [⟨.lineEnd s.comments.reverse indent, "", s.last, s.last⟩] else []

/-- Takes a token. -/
def token (s : Scan) (kind : TokenKind) (text : List Char) (modes : List Mode) : Step :=
  let stop := s.place.after text
  ⟨s.pendingLineEnd s.indent ++ [⟨kind, String.ofList text, s.place, stop⟩],
    { s with
      place := stop, modes := modes, begun := true, last := stop, ended := false, comments := [] },
    text.length⟩

/-- The tokens at the end of the source. -/
def finish (s : Scan) : List Token :=
  ({ s with ended := s.ended || s.begun }.pendingLineEnd 0) ++ [⟨.finish, "", s.place, s.place⟩]

/-- Takes a line end outside brackets. -/
def lineEnd (s : Scan) : Step :=
  ⟨[], { s with
      place := s.place.next '\n', begun := false, ended := s.ended || s.begun, indent := 0 }, 1⟩

/-- Takes a comment.  One on a line of its own is kept, one behind a token belongs to its line. -/
def comment (s : Scan) (text : List Char) : Step :=
  let stop := s.place.after text
  let s' :=
    if s.begun then { s with last := stop }
    else { s with comments := ⟨s.indent, stop⟩ :: s.comments }
  ⟨[], { s' with place := stop }, text.length⟩

end Scan

/-- Blanks that only separate tokens, and the count of the indentation behind them. -/
def blankIndent? (c : Char) (indent : Nat) : Option Nat :=
  if c == ' ' then some (indent + 1)
  else if c == '\t' then some (indent + 8)
  else if c == '\r' || c == '\x0c' then some 0
  else if c == '\x0b' || c == '\ufeff' || c == '\u2060' || c == '\u200b' then some indent
  else none

/-- The length of an escaped line end, zero if there is none. -/
def continuationLength : List Char → Nat
  | '\\' :: '\n' :: _ => 2
  | '\\' :: '\r' :: '\n' :: _ => 3
  | ['\\'] => 1
  | _ => 0

/-- Takes a string literal that opens at the front of `s`. -/
def stepString (scan : Scan) (modes : List Mode) (o : Opening) (s : List Char) : Step :=
  if o.formatted then
    scan.token .formatOpen (s.take o.length) (.text o.quote o.triple o.raw :: modes)
  else match bodyLength? o.quote o.triple o.raw 0 (s.drop o.length) with
    | some length => scan.token .string (s.take (o.length + length)) modes
    | none => scan.token .invalid (s.take o.length) modes

/-- Takes a bracket, operator or delimiter. -/
def stepSign (scan : Scan) (depth : Nat) (outer : List Mode) (sign : String) : Step :=
  let text := sign.toList
  if sign == "(" || sign == "[" || sign == "\x7b" then scan.token .sign text (.code (depth + 1) :: outer)
  else if sign == ")" || sign == "]" || sign == "\x7d" then
    scan.token .sign text (.code (depth - 1) :: outer)
  else scan.token .sign text (.code depth :: outer)

/-- Takes what ends the expression of a hole, if it stands at the front. -/
def stepHole? (scan : Scan) (outer : List Mode) (s : List Char) : Option Step :=
  match s with
  | '\x7d' :: _ => some (scan.token .holeClose ['\x7d'] outer)
  | ':' :: _ => some (scan.token .sign [':'] (.format :: outer))
  | '!' :: c :: _ =>
    if c == '=' then none
    else some (scan.token .conversion ('!' :: s.tail.takeWhile isIdentChar) (.code 0 :: outer))
  | _ => none

/-- One step in code. -/
def stepCode (scan : Scan) (depth : Nat) (outer : List Mode) (c : Char) (rest : List Char) : Step :=
  let s := c :: rest
  let modes := Mode.code depth :: outer
  match blankIndent? c scan.indent with
  | some indent => ({ scan with indent := indent }).skip [c]
  | none =>
    if c == '\n' then
      if depth == 0 && outer.isEmpty then scan.lineEnd else scan.skip [c]
    else if c == '#' then
      let text := s.takeWhile (· != '\n')
      if depth == 0 && outer.isEmpty then scan.comment text else scan.skip text
    else if continuationLength s != 0 then scan.skip (s.take (continuationLength s))
    else match (if depth == 0 && !outer.isEmpty then stepHole? scan outer s else none) with
      | some step => step
      | none =>
        match opening? s with
        | some o => stepString scan modes o s
        | none =>
          if isIdentStart c then scan.token .name (s.takeWhile isIdentChar) modes
          else if numberLength s != 0 then scan.token .number (s.take (numberLength s)) modes
          else match signAt? s with
            | some sign => stepSign scan depth outer sign
            | none => scan.token .invalid [c] modes

/-- One step in the text of a formatted string. -/
def stepText (scan : Scan) (quote : Char) (triple raw : Bool) (outer : List Mode) (c : Char)
    (rest : List Char) : Step :=
  let s := c :: rest
  if c == '\x7b' then
    if rest.head? == some '\x7b' then scan.skip (s.take 2)
    else scan.token .holeOpen [c] (.code 0 :: .text quote triple raw :: outer)
  else if c == '\x7d' then
    if rest.head? == some '\x7d' then scan.skip (s.take 2) else scan.token .invalid [c] outer
  else if c == '\\' then
    if raw then scan.skip (s.take (rawEscapeLength quote rest))
    else if ['N', '\x7b'].isPrefixOf rest then
      scan.skip (s.takeWhile (· != '\x7d') ++ (s.dropWhile (· != '\x7d')).take 1)
    else if rest.head? == some '\x7b' then scan.skip [c]
    else scan.skip (s.take 2)
  else if closingLength quote triple s != 0 then
    scan.token .formatClose (s.take (closingLength quote triple s)) outer
  else if c == '\n' && !triple then scan.token .invalid [c] outer
  else scan.skip [c]

/-- One step in the format of a hole. -/
def stepFormat (scan : Scan) (outer : List Mode) (c : Char) : Step :=
  if c == '\x7b' then scan.token .holeOpen [c] (.code 0 :: .format :: outer)
  else if c == '\x7d' then scan.token .holeClose [c] outer
  else if c == '\n' then scan.token .invalid [c] outer
  else scan.skip [c]

/-- One step. -/
def step (scan : Scan) (c : Char) (rest : List Char) : Step :=
  match scan.modes with
  | .text quote triple raw :: outer => stepText scan quote triple raw outer c rest
  | .format :: outer => stepFormat scan outer c
  | .code depth :: outer => stepCode scan depth outer c rest
  | [] => stepCode scan 0 [] c rest

/-- The tokens of a text. -/
def run : Nat → Scan → List Char → List Token
  | 0, scan, _ => scan.finish
  | _ + 1, scan, [] => scan.finish
  | fuel + 1, scan, c :: rest =>
    let r := step scan c rest
    r.found ++ run fuel r.scan (rest.drop (r.taken - 1))

end Lexer

/-- The tokens of a source; the last one is its end. -/
def tokens (source : List Char) : List Token := Lexer.run source.length .start source

end Consolidation.Python
