/-
# `Text.Lines` — physical lines, trimming and splitting

Texts are lists of characters here.  A line ends at a line feed, which takes one carriage return
before it along; a line feed at the very end of the text starts no further line.
-/
import Consolidation.Text.CharClass

namespace Consolidation.Text

/-- The lines of a text, without their ends. -/
def lines : List Char → List (List Char)
  | [] => []
  | '\n' :: rest => [] :: lines rest
  | '\r' :: '\n' :: rest => [] :: lines rest
  | c :: rest =>
    match lines rest with
    | [] => [[c]]
    | line :: later => (c :: line) :: later

/-- Drops blanks at the start. -/
def trimStart (s : List Char) : List Char := s.dropWhile isBlank

/-- Drops what satisfies `p` at the end. -/
def dropEndWhile (p : Char → Bool) (s : List Char) : List Char :=
  (s.reverse.dropWhile p).reverse

/-- Drops blanks at the end. -/
def trimEnd (s : List Char) : List Char := dropEndWhile isBlank s

/-- Drops blanks at both ends. -/
def trim (s : List Char) : List Char := trimEnd (trimStart s)

/-- Does `s` start with `p`? -/
def startsWith (p s : List Char) : Bool := p.isPrefixOf s

/-- What follows `p` at the start of `s`. -/
def stripStart? : List Char → List Char → Option (List Char)
  | [], s => some s
  | _ :: _, [] => none
  | p :: ps, c :: cs => if p = c then stripStart? ps cs else none

/-- What precedes `p` at the end of `s`. -/
def stripEnd? (p s : List Char) : Option (List Char) :=
  (stripStart? p.reverse s.reverse).map List.reverse

/-- The text before and after the first occurrence of `sep`. -/
def splitOnce? (sep : List Char) : List Char → Option (List Char × List Char)
  | [] => if sep = [] then some ([], []) else none
  | c :: rest =>
    match stripStart? sep (c :: rest) with
    | some after => some ([], after)
    | none => (splitOnce? sep rest).map (fun (before, after) => (c :: before, after))

/-- The text before and after the last occurrence of the character `sep`. -/
def splitLast? (sep : Char) (s : List Char) : Option (List Char × List Char) :=
  match s.reverse.span (· ≠ sep) with
  | (_, []) => none
  | (after, _ :: before) => some (before.reverse, after.reverse)

/-- Does `needle` occur in `s`? -/
def occursIn (needle : List Char) : List Char → Bool
  | [] => needle.isEmpty
  | c :: rest => needle.isPrefixOf (c :: rest) || occursIn needle rest

/-- The pieces between the characters that satisfy `p`. -/
def splitWhere (p : Char → Bool) : List Char → List (List Char)
  | [] => [[]]
  | c :: rest =>
    if p c then [] :: splitWhere p rest
    else match splitWhere p rest with
      | [] => [[c]]
      | piece :: later => (c :: piece) :: later

/-- The pieces between the occurrences of `sep`. -/
def splitOn (sep : Char) (s : List Char) : List (List Char) := splitWhere (· = sep) s

/-- The pieces between blanks that are not empty. -/
def fields (s : List Char) : List (List Char) := (splitWhere isBlank s).filter (!·.isEmpty)

/-- Joins texts with `sep` between neighbours. -/
def joinWith (sep : List Char) : List (List Char) → List Char
  | [] => []
  | [s] => s
  | s :: rest => s ++ sep ++ joinWith sep rest

/-- The small form of the letters from A to Z; other characters stay. -/
def smallLatin (c : Char) : Char :=
  if 'A' ≤ c && c ≤ 'Z' then Char.ofNat (c.toNat + 32) else c

/-- The capital form of the letters from a to z; other characters stay. -/
def capitalLatin (c : Char) : Char :=
  if 'a' ≤ c && c ≤ 'z' then Char.ofNat (c.toNat - 32) else c

/-- A text that a function on characters makes of another. -/
def mapText (f : List Char → List Char) (s : String) : String := String.ofList (f s.toList)

end Consolidation.Text
