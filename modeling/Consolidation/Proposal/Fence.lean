/-
# `Proposal.Fence` — the code in an answer

An answer quotes code between fences of three backticks; the rest of the line of the opening fence names the
language.  An answer without fences is code as a whole.
-/
import Consolidation.Text.Lines

namespace Consolidation

open Text

/-- Three backticks. -/
def fence : List Char := ['\x60', '\x60', '\x60']

/-- What stands before the first occurrence of a text, or everything. -/
def upTo (sep s : List Char) : List Char :=
  match splitOnce? sep s with
  | some (before, _) => before
  | none => s

/-- What follows the first occurrence of a text, or nothing. -/
def behind (sep s : List Char) : List Char :=
  match splitOnce? sep s with
  | some (_, rest) => rest
  | none => []

/-- The code in an answer: what the first fences enclose, without blanks at its end, or without fences the
whole answer without blanks around it. -/
def stripFences (answer : List Char) : List Char :=
  let text := trim answer
  match splitOnce? fence text with
  | none => text
  | some (_, rest) => trimEnd (upTo fence (behind ['\n'] rest))

end Consolidation
