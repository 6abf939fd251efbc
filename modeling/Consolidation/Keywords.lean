/-
# `Keywords` — what a source text is about

The words of a text are cut at low lines and before capitals, turned into small letters and
counted; short words, numbers, and words that say nothing are left out.  The keywords are the most
frequent words, the alphabet deciding between equals, written in alphabetical order.
-/
import Consolidation.Text.CaseMap
import Consolidation.Text.Lines
import Consolidation.Text.WordBreak

namespace Consolidation

open Text

namespace Keywords

/-- Shorter words are left out. -/
def minLength : Nat := 3

/-- Words of the programming language and names of its built-in functions. -/
def languageWords : List String := [
  "and", "as", "assert", "async", "await", "break", "class", "continue", "def", "del", "elif",
  "else", "except", "false", "finally", "for", "from", "global", "import", "lambda", "none",
  "nonlocal", "not", "pass", "raise", "return", "self", "cls", "true", "try", "while", "with",
  "yield", "print", "len", "range", "str", "int", "float", "bool", "dict", "list", "tuple",
  "set", "args", "kwargs"]

/-- Words that occur in any text. -/
def stopWords : List String := [
  "the", "this", "that", "these", "those", "with", "from", "into", "for", "and", "but", "are",
  "was", "were", "been", "being", "have", "has", "had", "can", "could", "should", "would",
  "will", "shall", "may", "might", "must", "its", "our", "their", "there", "here", "then",
  "than", "when", "what", "which", "who", "whom", "whose", "why", "how", "all", "any", "each",
  "some", "such", "only", "own", "same", "too", "very", "just", "also", "use", "used", "using",
  "get", "set", "value", "values", "returns", "return", "given", "new", "one", "two"]

/-- Cuts before each capital that follows a small letter or a digit. `afterSmall` says what the
character before was; no cut is made before the first character. -/
def splitCase (afterSmall : Bool) : List Char → List (List Char)
  | [] => [[]]
  | c :: rest =>
    match splitCase (isSmall c || c.isDigit) rest with
    | part :: parts => if isCapital c && afterSmall then [] :: (c :: part) :: parts
                       else (c :: part) :: parts
    | [] => [[c]]

/-- The parts of an identifier, in small letters. -/
def identifierParts (word : List Char) : List (List Char) :=
  (splitOn '_' word).flatMap fun chunk =>
    if chunk.isEmpty then [] else (splitCase false chunk).map toSmall

/-- Is a word worth keeping? -/
def keep (word : List Char) : Bool :=
  minLength ≤ word.length && !word.all Char.isDigit && word.any isAlphabetic &&
    !languageWords.contains (String.ofList word) && !stopWords.contains (String.ofList word)

/-- The occurrences of the words worth keeping, in the order of the text. -/
def occurrences (source : List Char) : List String :=
  ((words source).flatMap identifierParts).filter keep |>.map String.ofList

/-- Counts one more occurrence of a word. -/
def countWord (word : String) : List (String × Nat) → List (String × Nat)
  | [] => [(word, 1)]
  | (w, n) :: rest => if w = word then (w, n + 1) :: rest else (w, n) :: countWord word rest

/-- How often each word occurs. -/
def counts (source : List Char) : List (String × Nat) :=
  (occurrences source).foldl (fun acc word => countWord word acc) []

/-- Does the first word rank at least as high as the second? -/
def ranksBefore (a b : String × Nat) : Bool :=
  b.2 < a.2 || (a.2 == b.2 && a.1 ≤ b.1)

/-- The `limit` words that rank highest, in alphabetical order. -/
def topWords (limit : Nat) (source : List Char) : List String :=
  (((counts source).mergeSort ranksBefore).take limit).map (·.1) |>.mergeSort (· ≤ ·)

end Keywords

/-- How many keywords a function gets, if any. -/
inductive KeywordPolicy where
  | atMost (limit : Nat)
  | off
deriving DecidableEq, Repr

namespace KeywordPolicy

/-- The number of keywords unless something else is asked for. -/
def defaultLimit : Nat := 20

/-- The keywords of a source text. -/
def extract : KeywordPolicy → List Char → String
  | atMost limit, source => String.intercalate " " (Keywords.topWords limit source)
  | off, _ => ""

end KeywordPolicy

end Consolidation
