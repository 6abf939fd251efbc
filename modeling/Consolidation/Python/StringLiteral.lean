/-
# `Python.StringLiteral` — the text inside a string literal

`literalText?` takes the prefix letters and the quotes off a literal, and the blanks around what they
enclose.  It does not look at escapes, and does not ask for closing quotes.
-/
import Consolidation.Text.Lines

namespace Consolidation.Python

open Text

/-- Letters that may precede the quotes of a literal. -/
def isLiteralPrefix (c : Char) : Bool := "rRuUbBfF".toList.contains c

def isQuote (c : Char) : Bool := c == '"' || c == '\''

/-- The quotes that open a literal, longer ones first. -/
def literalQuotes : List (List Char) := [['"', '"', '"'], ['\'', '\'', '\''], ['"'], ['\'']]

/-- Splits a literal into what precedes the first quote and the rest, if at most two prefix letters
precede it. -/
def splitLiteral? (literal : List Char) : Option (List Char × List Char) :=
  let before := literal.takeWhile (!isQuote ·)
  let body := literal.dropWhile (!isQuote ·)
  if body.isEmpty || 2 < before.length || !before.all isLiteralPrefix then none
  else some (before, body)

/-- What the quotes of a literal without prefix enclose. -/
def enclosed? (body : List Char) : Option (List Char) :=
  literalQuotes.findSome? (fun quotes =>
    (stripStart? quotes body).map (fun rest => (stripEnd? quotes rest).getD rest))

/-- The text of a literal; none if it is blank. -/
def literalText? (literal : List Char) : Option (List Char) := do
  let (_, body) ← splitLiteral? (trim literal)
  let inner ← enclosed? body
  let text := trim inner
  if text.isEmpty then none else some text

end Consolidation.Python
