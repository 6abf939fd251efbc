/-
# `Run.Inventory` — what is known of the files

A run first looks at every scanned file.  One that has not changed since its record was made keeps the record; any
other is extracted and recorded anew, and records of files that are no longer scanned are dropped.
What was found is applied in the order of the paths, so that it does not matter in
which order the files were looked at.
-/
import Consolidation.Checkpoint.State
import Consolidation.Extraction
import Consolidation.Files.Scan

namespace Consolidation

/-- What came of looking at a file. -/
inductive FileFinding where
  /-- The file has the digest that is recorded for it. -/
  | unchanged
  | extracted (extraction : FileExtraction)
  /-- The extraction broke down. -/
  | brokeDown (reason : String)
deriving DecidableEq, Repr

namespace FileFinding

/-- The digest by which a processed file is recognised. -/
def knownHash? (s : Checkpoint) (path : String) : Option String :=
  if s.processed.contains path then s.fileHashes.find? path else none

/-- What is found in a file that was read, or could not be read for some reason. -/
def ofFile (policy : KeywordPolicy) (s : Checkpoint) (path : String)
    (content : Except Files.FileFault (List UInt8)) : FileFinding :=
  match content with
  | .ok bytes =>
    if knownHash? s path = some (Digest.sha256 bytes) then unchanged
    else extracted (Extraction.ofFile policy path (.ok bytes))
  | .error fault => extracted (Extraction.ofFile policy path (.error fault.message))

/-- What is to be recorded of a file in which something else than before was found. -/
def extraction? (path : String) : FileFinding → Option FileExtraction
  | unchanged => none
  | extracted e => some e
  | brokeDown reason => some (Extraction.failure path ("extraction panicked: " ++ reason) none)

end FileFinding

/-! ## Records -/

namespace Checkpoint

/-- The files of which anything is recorded, in order. -/
def knownPaths (s : Checkpoint) : List String :=
  (TextSet.ofList (s.processed.toList ++ s.syntaxErrors.map (·.filePath))).toList

/-- Drops the records of files that are not scanned.  Gives the functions that go with them. -/
def purge (s : Checkpoint) (scanned : List String) : Checkpoint × List String :=
  let missing := s.knownPaths.filter (fun p => !scanned.contains p)
  (missing.foldl forgetFile s, missing.flatMap s.idsOf)

end Checkpoint

/-- The records of a run with what has changed in it. -/
structure Inventory where
  checkpoint : Checkpoint
  /-- The functions whose records were dropped, in order. -/
  stale : List String
  /-- The functions that were extracted in this run. -/
  fresh : TextSet
  loaded : Nat
  unchanged : Nat
  failed : Nat
deriving DecidableEq

namespace Inventory

/-- Before any file is looked at. -/
def start (s : Checkpoint) (scanned : List String) : Inventory :=
  let (kept, removed) := s.purge scanned
  ⟨kept, removed, Dict.empty, 0, 0, 0⟩

/-- Records an extraction in place of what was recorded for the file. -/
def record (i : Inventory) (path : String) (e : FileExtraction) : Inventory :=
  { checkpoint :=
      (i.checkpoint.forgetFile path).recordFile path e.contentHash e.functions e.errors (!e.failed)
    stale := i.stale ++ i.checkpoint.idsOf path
    fresh := (e.functions.map (·.id)).foldl TextSet.insert i.fresh
    loaded := if e.failed then i.loaded else i.loaded + 1
    unchanged := i.unchanged
    failed := if e.failed then i.failed + 1 else i.failed }

/-- Takes note of what was found in a file. -/
def note (i : Inventory) (path : String) (found : FileFinding) : Inventory :=
  match found.extraction? path with
  | none => { i with unchanged := i.unchanged + 1 }
  | some e => i.record path e

/-- Findings in the order of the paths. -/
def inOrder (found : List (String × FileFinding)) : List (String × FileFinding) :=
  found.mergeSort (fun a b => a.1 ≤ b.1)

/-- Takes note of the findings in all scanned files, whatever their order. -/
def ofFindings (s : Checkpoint) (scanned : List String) (found : List (String × FileFinding)) :
    Inventory :=
  (inOrder found).foldl (fun i f => i.note f.1 f.2) (start s scanned)

/-- Looks at files, each given by its path and the text by which it goes. -/
def look (policy : KeywordPolicy) (tree : Files.Entry) (s : Checkpoint)
    (files : List (Files.Path × String)) : List (String × FileFinding) :=
  files.map (fun (path, text) => (text, .ofFile policy s text (tree.read path)))

/-- The inventory of files, starting from the records of an earlier run. -/
def take (policy : KeywordPolicy) (tree : Files.Entry) (s : Checkpoint)
    (files : List (Files.Path × String)) : Inventory :=
  let scanned := files.map (·.2)
  ofFindings s scanned (look policy tree (s.purge scanned).1 files)

/-- The functions that are gone for good: no record has one of the same identifier. -/
def gone (i : Inventory) : List String :=
  let live := i.checkpoint.allFunctions.map (·.id)
  i.stale.filter (fun id => !live.contains id)

def summary (i : Inventory) : String :=
  toString i.loaded ++ " loaded, " ++ toString i.unchanged ++ " unchanged, " ++ toString i.failed ++
    " failed"

end Inventory

end Consolidation
