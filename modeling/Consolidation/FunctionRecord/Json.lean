/-
# `FunctionRecord.Json` — function records as JSON

The members of a written record stand in the order of its fields.  A reader may miss the last line and the
path of extraction, which then have defaults.
-/
import Consolidation.FunctionRecord
import Consolidation.ParseError
import Consolidation.Json.Record

namespace Consolidation

namespace ExtractionPath

def name : ExtractionPath → String
  | formal => "formal"
  | fallback => "fallback"

def ofName? (s : String) : Option ExtractionPath := [formal, fallback].find? (fun p => p.name == s)

end ExtractionPath

namespace FunctionRecord

open Consolidation.Json

/-- The members of a written record. -/
def members (f : FunctionRecord) : List (String × Json) := [
  ("id", .str f.id),
  ("name", .str f.name),
  ("file_path", .str f.filePath),
  ("args", strs f.args),
  ("line_number", .nat f.lineNumber),
  ("end_line", .nat f.endLine),
  ("docstring", optStr f.docstring),
  ("complexity", .nat f.complexity),
  ("content_hash", .str f.contentHash),
  ("context_keywords", .str f.contextKeywords),
  ("semantic_hash", optStr f.semanticHash),
  ("extraction", .str f.extraction.name)]

def toJson (f : FunctionRecord) : Json := .obj f.members

def fieldNames : List String := [
  "id", "name", "file_path", "args", "line_number", "end_line", "docstring", "complexity",
  "content_hash", "context_keywords", "semantic_hash", "extraction"]

def ofJson? (j : Json) : Option FunctionRecord := do
  let r ← record? fieldNames j
  let word := asNatUpTo? maxWord
  some {
    id := ← r.required "id" asStr?
    name := ← r.required "name" asStr?
    filePath := ← r.required "file_path" asStr?
    args := ← r.required "args" (asList? asStr?)
    lineNumber := ← r.required "line_number" word
    endLine := ← r.withDefault "end_line" word 0
    docstring := ← r.optional "docstring" asStr?
    complexity := ← r.required "complexity" word
    contentHash := ← r.required "content_hash" asStr?
    contextKeywords := ← r.required "context_keywords" asStr?
    semanticHash := ← r.optional "semantic_hash" asStr?
    extraction := ← r.withDefault "extraction" (asName? ExtractionPath.ofName?) .formal }

end FunctionRecord

namespace ParseError

open Consolidation.Json

def toJson (e : ParseError) : Json := .obj [
  ("file_path", .str e.filePath),
  ("message", .str e.message),
  ("line_number", optNat e.lineNumber)]

def ofJson? (j : Json) : Option ParseError := do
  let r ← record? ["file_path", "message", "line_number"] j
  some {
    filePath := ← r.required "file_path" asStr?
    message := ← r.required "message" asStr?
    lineNumber := ← r.optional "line_number" (asNatUpTo? maxWord) }

end ParseError

end Consolidation
