/-
# `Checkpoint.File` — the file of a checkpoint

A checkpoint is written as JSON, its parse errors as lines of text.  A file that is not there, cannot be read, or
holds something else or another version reads as the empty checkpoint.
-/
import Consolidation.Checkpoint.State
import Consolidation.FunctionRecord.Json
import Consolidation.Json.Reader
import Consolidation.Json.Writer
import Consolidation.Files.Entry

namespace Consolidation.Checkpoint

open Consolidation.Json

def pairToJson (pair : String × List String) : Json := .arr [.str pair.1, strs pair.2]

/-- The members of a written checkpoint. -/
def members (s : Checkpoint) : List (String × Json) := [
  ("schema_version", .nat s.version),
  ("processed_files", strs s.processed.keys),
  ("function_clusters", .arr (s.layout.map pairToJson)),
  ("syntax_errors", strs (s.syntaxErrors.map ParseError.display)),
  ("file_hashes", ofDict .str s.fileHashes),
  ("functions", ofDict (fun fs => .arr (fs.map FunctionRecord.toJson)) s.functions),
  ("memberships", ofDict .str s.memberships)]

def toJson (s : Checkpoint) : Json := .obj s.members

def pairOfJson? : Json → Option (String × List String)
  | .arr [key, files] => do some (← key.asStr?, ← files.asList? asStr?)
  | _ => none

def errorOfJson? (j : Json) : Option ParseError := do
  let raw ← j.asStr?
  match ParseError.ofText raw with
  | .ok e => some e
  | .error _ => none

def fieldNames : List String := [
  "schema_version", "processed_files", "function_clusters", "syntax_errors", "file_hashes",
  "functions", "memberships"]

def ofJson? (j : Json) : Option Checkpoint := do
  let r ← record? fieldNames j
  some {
    version := ← r.withDefault "schema_version" (asNatUpTo? maxWord) checkpointVersion
    processed := TextSet.ofList (← r.withDefault "processed_files" (asList? asStr?) [])
    layout := ← r.withDefault "function_clusters" (asList? pairOfJson?) []
    syntaxErrors := ← r.withDefault "syntax_errors" (asList? errorOfJson?) []
    fileHashes := ← r.withDefault "file_hashes" (asDict? asStr?) Dict.empty
    functions :=
      ← r.withDefault "functions" (asDict? (asList? FunctionRecord.ofJson?)) Dict.empty
    memberships := ← r.withDefault "memberships" (asDict? asStr?) Dict.empty }

/-- The checkpoint that bytes write, or the empty one. -/
def ofBytes (bytes : List UInt8) : Checkpoint :=
  match (ofBytes? bytes).bind ofJson? with
  | some s => if s.version == checkpointVersion then s else empty
  | none => empty

def toBytes (s : Checkpoint) : List UInt8 := s.toJson.toPrettyBytes

/-- The checkpoint in a file, or the empty one. -/
def load (path : Files.Path) (tree : Files.Entry) : Checkpoint :=
  match tree.read path with
  | .ok bytes => ofBytes bytes
  | .error _ => empty

/-- Writes a checkpoint to a file. -/
def save (s : Checkpoint) (path : Files.Path) (tree : Files.Entry) :
    Files.Entry × Option Files.FileFault :=
  tree.save path s.toBytes

end Consolidation.Checkpoint
