/-
# `Checkpoint.State` — what a run leaves to the next

A checkpoint records the files that have been extracted, with their digests, functions and errors, and the
clusters of all functions.  What it says of a file can be forgotten as a whole.
-/
import Consolidation.Cluster.Clustering
import Consolidation.ParseError

namespace Consolidation

/-- The version of the form in which checkpoints are written. -/
def checkpointVersion : Nat := 1

structure Checkpoint where
  version : Nat
  processed : TextSet
  /-- The keys of the clusters with the files of their members. -/
  layout : List (String × List String)
  syntaxErrors : List ParseError
  fileHashes : Dict String
  functions : Dict (List FunctionRecord)
  /-- The keys of the functions. -/
  memberships : Dict String
deriving DecidableEq

namespace Checkpoint

def empty : Checkpoint :=
  ⟨checkpointVersion, Dict.empty, [], [], Dict.empty, Dict.empty, Dict.empty⟩

/-- The identifiers of the functions recorded for a file. -/
def idsOf (s : Checkpoint) (path : String) : List String :=
  ((s.functions.find? path).getD []).map (·.id)

/-- Drops all that is recorded for a file. -/
def forgetFile (s : Checkpoint) (path : String) : Checkpoint :=
  { s with
    processed := s.processed.erase path
    fileHashes := s.fileHashes.erase path
    syntaxErrors := s.syntaxErrors.filter (·.filePath != path)
    functions := s.functions.erase path
    memberships := (s.idsOf path).foldl Dict.erase s.memberships }

/-- Records what was found in a file.  Only the errors are kept of one that could not be
processed, so that the next run tries it again. -/
def recordFile (s : Checkpoint) (path : String) (contentHash : Option String)
    (functions : List FunctionRecord) (errors : List ParseError) (processed : Bool) : Checkpoint :=
  let s := { s with syntaxErrors := s.syntaxErrors ++ errors }
  if !processed then s
  else
    { s with
      processed := s.processed.insert path
      fileHashes := match contentHash with
        | some hash => s.fileHashes.insert path hash
        | none => s.fileHashes
      functions := s.functions.insert path functions }

/-- All functions, by file and place. -/
def allFunctions (s : Checkpoint) : List FunctionRecord := s.functions.values.flatten

def functionCount (s : Checkpoint) : Nat := s.allFunctions.length

/-- Records the clusters. -/
def setClusters (s : Checkpoint) (c : Clustering) : Checkpoint :=
  { s with layout := c.layout, memberships := c.memberships }

end Checkpoint

end Consolidation
