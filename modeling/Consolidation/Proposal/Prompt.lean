/-
# `Proposal.Prompt` — what a generator is asked

A prompt describes the members of a cluster one by one, and quotes their source where the file can be read.
-/
import Consolidation.Cluster.Basic
import Consolidation.Proposal.Fence

namespace Consolidation

open Text

/-- Gives the text of a file by its path, if it can be read. -/
abbrev SourceReader := String → Option (List Char)

namespace Prompt

/-- How many lines of a member are quoted at most. -/
def maxBodyLines : Nat := 80

/-- The lines of a member in its file, if there are any. -/
def bodyOf (fileLines : List (List Char)) (f : FunctionRecord) : Option (List Char) :=
  if f.lineNumber == 0 then none
  else
    let start := f.lineNumber - 1
    let finish := min (min (max f.endLine f.lineNumber) fileLines.length) (start + maxBodyLines)
    if finish ≤ start then none
    else some (joinWith ['\n'] ((fileLines.drop start).take (finish - start)))

def heading (size : Nat) : String :=
  "The following " ++ toString size ++ " Python functions implement the same behaviour.\n" ++
  "Write ONE consolidated implementation that preserves the behaviour of all of them.\n" ++
  "Start from the canonical candidate. Reply with a single Python code block.\n\n"

/-- The line about a docstring that is not blank. -/
def docstringLine (f : FunctionRecord) : String :=
  match f.docstring with
  | some doc =>
    let text := trim doc.toList
    if text.isEmpty then "" else "Docstring: " ++ String.ofList text ++ "\n"
  | none => ""

/-- The quoted source of a member. -/
def quotation (source : SourceReader) (f : FunctionRecord) : String :=
  match (source f.filePath).bind (fun text => bodyOf (lines text) f) with
  | some body =>
    String.ofList fence ++ "python\n" ++ String.ofList body ++ "\n" ++ String.ofList fence ++ "\n"
  | none => ""

/-- What is said of a member with a number. -/
def member (source : SourceReader) (canonicalId : String) (f : FunctionRecord) (number : Nat) :
    String :=
  "### Candidate " ++ toString number ++ (if f.id == canonicalId then " (canonical candidate)" else "") ++
  "\nSignature: " ++ f.signature ++
  "\nLocation: " ++ f.location ++
  "\nComplexity: " ++ toString f.complexity ++ "\n" ++
  docstringLine f ++ quotation source f ++ "\n"

/-- The prompt for a cluster. -/
def build (source : SourceReader) (c : Cluster) : String :=
  heading c.size ++
    String.join ((c.members.zipIdx 1).map (fun (f, number) => member source c.canonical.id f number))

end Prompt

end Consolidation
