/-
# `Python.Token` — the tokens of a Python source

Tokens carry where they start and stop.  A line end counts as a token where it ends a logical line, that
is outside brackets and after at least one other token; it carries what the block
structure needs to know of the lines up to the next token: the comments on lines of their own, and
the indentation of the next token's line.
-/
namespace Consolidation.Python

/-- A place in a source: characters before it, lines before it, characters before it on its line. -/
structure Place where
  offset : Nat
  row : Nat
  column : Nat
deriving DecidableEq, Repr

namespace Place

def start : Place := ⟨0, 0, 0⟩

/-- The place behind one more character. -/
def next (p : Place) (c : Char) : Place :=
  if c == '\n' then ⟨p.offset + 1, p.row + 1, 0⟩ else ⟨p.offset + 1, p.row, p.column + 1⟩

/-- The place behind some text. -/
def after (p : Place) (text : List Char) : Place := text.foldl next p

end Place

/-- A comment on a line of its own. -/
structure Comment where
  /-- The indentation of its line. -/
  indent : Nat
  /-- Where it ends. -/
  stop : Place
deriving DecidableEq, Repr

inductive TokenKind where
  | name
  | number
  /-- A whole string literal without holes. -/
  | string
  /-- The prefix and opening quotes of a formatted string. -/
  | formatOpen
  /-- The closing quotes of a formatted string. -/
  | formatClose
  /-- The brace that opens a hole in a formatted string. -/
  | holeOpen
  /-- The brace that closes a hole in a formatted string. -/
  | holeClose
  /-- The conversion at the end of a hole. -/
  | conversion
  /-- Operators, brackets and delimiters. -/
  | sign
  /-- The end of a logical line, with the comments on lines of their own up to the next token and
  the indentation of the line of that token. -/
  | lineEnd (comments : List Comment) (indent : Nat)
  /-- What is no token at all. -/
  | invalid
  /-- The end of the source. -/
  | finish
deriving DecidableEq, Repr

structure Token where
  kind : TokenKind
  text : String
  start : Place
  stop : Place
deriving DecidableEq, Repr

namespace Token

def isSign (t : Token) (text : String) : Bool := t.kind == .sign && t.text == text

def isWord (t : Token) (text : String) : Bool := t.kind == .name && t.text == text

end Token

end Consolidation.Python
