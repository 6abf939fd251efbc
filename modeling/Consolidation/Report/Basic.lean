/-
# `Report.Basic` — what a run has found

A report counts the files, functions and clusters of a run, tells how each stage went, and lists the clusters with
several members and what came of them, the parse errors, and the files that are equal byte by byte.
-/
import Consolidation.Number.FixedPoint
import Consolidation.ParseError
import Consolidation.Proposal.Advisor

namespace Consolidation

inductive Stage where
  | load
  | cluster
  | process
  | done
deriving DecidableEq, Repr

namespace Stage

def name : Stage → String
  | load => "load"
  | cluster => "cluster"
  | process => "process"
  | done => "done"

def ofName? (s : String) : Option Stage := [load, cluster, process, done].find? (·.name == s)

end Stage

inductive StageStatus where
  | completed
  | failed
  | skipped
deriving DecidableEq, Repr

namespace StageStatus

def name : StageStatus → String
  | completed => "completed"
  | failed => "failed"
  | skipped => "skipped"

def ofName? (s : String) : Option StageStatus := [completed, failed, skipped].find? (·.name == s)

end StageStatus

structure StageOutcome where
  stage : Stage
  status : StageStatus
  message : Option String
  /-- In milliseconds. -/
  duration : Nat
deriving DecidableEq, Repr

namespace StageOutcome

def isCompleted (o : StageOutcome) : Bool := o.status == .completed

end StageOutcome

structure RunStats where
  filesScanned : Nat
  /-- Files that were extracted in this run. -/
  filesLoaded : Nat
  /-- Files that had not changed since they were extracted. -/
  filesUnchanged : Nat
  filesFailed : Nat
  functions : Nat
  clusters : Nat
  sharedClusters : Nat
  /-- In milliseconds. -/
  time : Nat
deriving DecidableEq, Repr

namespace RunStats

def zero : RunStats := ⟨0, 0, 0, 0, 0, 0, 0, 0⟩

/-- Files without errors. -/
def filesOk (s : RunStats) : Nat := s.filesLoaded + s.filesUnchanged

end RunStats

structure MemberSummary where
  id : String
  signature : String
  location : String
  complexity : Nat
  hasDocstring : Bool
deriving DecidableEq, Repr

/-- A cluster with several members, and what came of it unless no proposals were made. -/
structure ClusterReport where
  key : String
  canonicalId : String
  members : List MemberSummary
  result : Option ProposalResult
deriving DecidableEq, Repr

namespace ClusterReport

def ofCluster (c : Cluster) (result : Option ProposalResult) : ClusterReport where
  key := c.key
  canonicalId := c.canonical.id
  members := c.members.map (fun m => ⟨m.id, m.signature, m.location, m.complexity, m.hasDocstring⟩)
  result := result

def isFailure (c : ClusterReport) : Bool := c.result.any (!·.isSuccess)

def isConsolidated (c : ClusterReport) : Bool := c.result.any (·.isSuccess)

end ClusterReport

/-- Files with the same bytes. -/
structure DuplicateFiles where
  contentHash : String
  files : List String
deriving DecidableEq, Repr

structure Report where
  root : String
  strategy : String
  stats : RunStats
  stages : List StageOutcome
  clusters : List ClusterReport
  parseErrors : List ParseError
  duplicateFiles : List DuplicateFiles
  success : Bool
deriving DecidableEq, Repr

namespace Report

/-- The first outcome of a stage. -/
def stage? (r : Report) (stage : Stage) : Option StageOutcome := r.stages.find? (·.stage == stage)

def failures (r : Report) : Nat := (r.clusters.filter ClusterReport.isFailure).length

def consolidated (r : Report) : Nat := (r.clusters.filter ClusterReport.isConsolidated).length

/-- The report in one sentence. -/
def summary (r : Report) : String :=
  let s := r.stats
  "Consolidation " ++ (if r.success then "completed" else "completed with failures") ++ ": " ++
  toString s.filesScanned ++ " files scanned (" ++ toString s.filesLoaded ++ " loaded, " ++
  toString s.filesUnchanged ++ " unchanged, " ++ toString s.filesFailed ++ " failed), " ++
  toString s.functions ++ " functions in " ++ toString s.clusters ++ " clusters, " ++
  toString s.sharedClusters ++ " with duplicates; " ++ toString r.consolidated ++
  " consolidated, " ++ toString r.failures ++ " failed; " ++ toString r.parseErrors.length ++
  " parse errors, " ++ toString r.duplicateFiles.length ++ " duplicate file groups; " ++
  r.strategy ++ " keys; " ++ Number.thousandthsText s.time ++ "s."

end Report

end Consolidation
