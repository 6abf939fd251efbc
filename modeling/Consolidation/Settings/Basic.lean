/-
# `Settings.Basic` — how a run is to go

The settings of a run in sections, each with the values that hold unless something else is said, and where
the files are kept that outlast a run.
-/
import Consolidation.Keywords
import Consolidation.Proposal.Generator

namespace Consolidation

open Number

structure ScanSettings where
  /-- Patterns of the names of source files. -/
  patterns : List String
  /-- Names that are passed over wherever they stand. -/
  excluded : List String
  limit : Option Nat
deriving DecidableEq

namespace ScanSettings

def default : ScanSettings where
  patterns := ["*.py"]
  excluded := [
    ".git", ".hg", ".tox", ".venv", "venv", "__pycache__", "node_modules", "build", "dist",
    "site-packages", ".consolidator"]
  limit := none

end ScanSettings

structure ClusterSettings where
  /-- How close functions of one cluster are at least. -/
  threshold : Single
  /-- How many close functions are looked at. -/
  neighbours : Nat
  keywords : Bool
  maxKeywords : Nat
deriving DecidableEq

namespace ClusterSettings

def default : ClusterSettings where
  threshold := Decimal.toSingle ⟨false, 85, -2⟩
  neighbours := 5
  keywords := true
  maxKeywords := KeywordPolicy.defaultLimit

def policy (s : ClusterSettings) : KeywordPolicy := if s.keywords then .atMost s.maxKeywords else .off

end ClusterSettings

structure RunSettings where
  workers : Nat
  /-- How many clusters are worked on between two checkpoints. -/
  batchSize : Nat
  checkpointPath : Option String
  indexPath : Option String
deriving DecidableEq

namespace RunSettings

def default : RunSettings := ⟨4, 8, none, none⟩

end RunSettings

structure FormatterSettings where
  enabled : Bool
  /-- A program and its arguments. -/
  command : List String
  /-- In milliseconds. -/
  timeout : Nat
deriving DecidableEq

namespace FormatterSettings

def default : FormatterSettings := ⟨true, ["black", "-q", "-"], 30000⟩

end FormatterSettings

structure Settings where
  scan : ScanSettings
  clustering : ClusterSettings
  run : RunSettings
  embedding : EmbeddingSettings
  model : ModelSettings
  formatter : FormatterSettings
deriving DecidableEq

namespace Settings

def default : Settings where
  scan := .default
  clustering := .default
  run := .default
  embedding := .default
  model := .default
  formatter := .default

/-! ## Files that outlast a run -/

/-- The folder for them below the project, unless they are put elsewhere. -/
def stateFolder : String := ".consolidator"

/-- The path of a file of the state folder, or the one that is set, below the project. -/
def statePath (root name : String) (path : Option String) : String :=
  match path with
  | some path => Files.joinText root path
  | none => Files.joinText (Files.joinText root stateFolder) name

def checkpointPath (s : Settings) (root : String) : String :=
  statePath root "checkpoint.json" s.run.checkpointPath

def indexPath (s : Settings) (root : String) : String := statePath root "index.json" s.run.indexPath

end Settings

end Consolidation
