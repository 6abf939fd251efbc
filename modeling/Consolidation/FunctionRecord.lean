/-
# `FunctionRecord` — a function found in a source file

What is known of one function or method definition, and the order in which candidates for the
canonical member of a group are preferred: by quality, then by line, path and identifier.
-/
import Consolidation.Text.Lines

namespace Consolidation

/-- How a function was found. -/
inductive ExtractionPath where
  /-- In the syntax tree. -/
  | formal
  /-- By the line scanner, in a file with a syntax error. -/
  | fallback
deriving DecidableEq, Repr, Inhabited

/-- A function or method definition. -/
structure FunctionRecord where
  /-- The path and the name, with the line behind it where the name is repeated. -/
  id : String
  name : String
  /-- The path below the scanned root. -/
  filePath : String
  /-- The names of the parameters, in order. -/
  args : List String
  /-- The first line of the header. -/
  lineNumber : Nat
  /-- The last line of the body. -/
  endLine : Nat
  docstring : Option String
  /-- One more than the number of decisions, or a low guess on the fallback path. -/
  complexity : Nat
  /-- The digest of the file. -/
  contentHash : String
  /-- The keywords of the source text, sorted and joined by spaces. -/
  contextKeywords : String
  /-- A digest of the keywords, if there are any. -/
  semanticHash : Option String
  extraction : ExtractionPath
deriving DecidableEq, Repr, Inhabited

namespace FunctionRecord

/-- What a docstring adds to the quality. -/
def docstringWeight : Nat := 2

/-- Complexity adds no quality beyond this. -/
def complexityCap : Nat := 10

def argCount (f : FunctionRecord) : Nat := f.args.length

/-- A docstring of blanks counts as none. -/
def hasDocstring (f : FunctionRecord) : Bool :=
  match f.docstring with
  | some doc => !(Text.trim doc.toList).isEmpty
  | none => false

/-- Documented functions are better, and so are, up to a point, complex ones. -/
def qualityScore (f : FunctionRecord) : Nat :=
  (if f.hasDocstring then docstringWeight else 0) + min f.complexity complexityCap

/-- The order of canonical candidates; the better one is less. -/
def canonicalCompare (a b : FunctionRecord) : Ordering :=
  (compare b.qualityScore a.qualityScore).then <|
    (compare a.lineNumber b.lineNumber).then <|
      (compare a.filePath b.filePath).then (compare a.id b.id)

/-- The order of functions by place. -/
def locationCompare (a b : FunctionRecord) : Ordering :=
  (compare a.filePath b.filePath).then <|
    (compare a.lineNumber b.lineNumber).then (compare a.id b.id)

/-- The header without annotations and defaults. -/
def signature (f : FunctionRecord) : String :=
  "def " ++ f.name ++ "(" ++ String.intercalate ", " f.args ++ ")"

def location (f : FunctionRecord) : String :=
  f.filePath ++ ":" ++ toString f.lineNumber

/-- Functions in the order of canonical candidates; equally good ones keep their order. -/
def canonicalOrder (fs : List FunctionRecord) : List FunctionRecord :=
  fs.mergeSort (fun a b => a.canonicalCompare b != .gt)

end FunctionRecord

end Consolidation
