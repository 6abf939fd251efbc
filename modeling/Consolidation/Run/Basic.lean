/-
# `Run.Basic` — one run over a project

A run takes the inventory of the files, brings the index up to date, sorts the functions into clusters, and asks for
a common version of each cluster with several members.  The checkpoint is written when the files have been
looked at and again when the functions are sorted; that it cannot be written does not stop the
run.  A run is impossible only if there is no project, if a pattern cannot be read, or if it
is to have too many workers.
-/
import Consolidation.Checkpoint.File
import Consolidation.Report.Basic
import Consolidation.Run.Grouping
import Consolidation.Run.Indexing
import Consolidation.Run.Proposals
import Consolidation.Settings.Basic

namespace Consolidation

/-- What makes proposals. -/
structure Proposer where
  generator : Generator
  formatter : Formatter

namespace Proposer

/-- Reads files below a project. -/
def sourceIn (project : Files.Path) (tree : Files.Entry) : SourceReader := fun path =>
  match tree.read (.ofText project path) with
  | .ok bytes => Text.Utf8.decode? bytes
  | .error _ => none

/-- The advisor that quotes files of a project. -/
def advisor (p : Proposer) (project : Files.Path) (tree : Files.Entry) : Advisor :=
  ⟨p.generator, p.formatter, sourceIn project tree⟩

end Proposer

/-- Why there can be no run. -/
inductive RunFault where
  | noProject (root : String)
  | pattern
  | tooManyWorkers
deriving DecidableEq, Repr

namespace RunFault

/-- More workers than this cannot be counted. -/
def workerLimit : Nat := 0x1FFFFFFFFFFFFFFF

def message : RunFault → String
  | noProject root => "Invalid project path: " ++ root ++ " is not a directory"
  | pattern => "Invalid glob pattern: a pattern cannot be read"
  | tooManyWorkers =>
    "Too many workers: no more than " ++ toString workerLimit ++ " can be counted"

end RunFault

/-- What a run works with. -/
structure RunSetup (σ : Type) where
  /-- The folder from which paths start. -/
  folder : Files.Path
  /-- The path of the project as text. -/
  root : String
  settings : Settings
  index : SimilarityIndex σ
  /-- Without it no proposals are made. -/
  proposer : Option Proposer
  /-- Is the checkpoint passed over? -/
  fresh : Bool

/-- What comes of a run. -/
structure RunResult (σ : Type) where
  report : Report
  checkpoint : Checkpoint
  /-- The clusters with several members. -/
  shared : List Cluster
  world : World σ

namespace RunSetup

variable {σ : Type} (r : RunSetup σ)

/-- Where the project lies. -/
def project : Files.Path := .ofText r.folder r.root

def checkpointFile : Files.Path := .ofText r.folder (r.settings.checkpointPath r.root)

/-- Writes the checkpoint, if it can be written. -/
def flush (s : Checkpoint) (w : World σ) : World σ :=
  { w with files := (s.save r.checkpointFile w.files).1 }

/-! ## Steps -/

/-- The source files, each with the text by which it goes. -/
def sourceFiles (o : Files.ScanOptions) (w : World σ) : List (Files.Path × String) :=
  (Files.scan o r.project w.files).map (fun path => (path, Files.relativeText r.project path))

/-- The records with which the run starts. -/
def startingCheckpoint (w : World σ) : Checkpoint :=
  if r.fresh then .empty else .load r.checkpointFile w.files

/-- What is known after the files have been looked at. -/
structure Loaded (σ : Type) where
  inventory : Inventory
  world : World σ
  indexError : Option StoreError

/-- Looks at the files and brings the index up to date. -/
def load (s : Checkpoint) (files : List (Files.Path × String)) (w : World σ) : Loaded σ :=
  let inventory := Inventory.take r.settings.clustering.policy w.files s files
  let (world, error) := r.index.update r.settings.clustering.keywords inventory w
  ⟨inventory, world, error⟩

/-- The strategy of the run: without an index that could be brought up to date, functions go by their
looks. -/
def strategy (l : Loaded σ) : Strategy :=
  let s := r.settings.clustering
  .select (l.indexError.isNone && r.index.available) s.keywords s.threshold s.neighbours

/-- Sorts the functions into clusters. -/
def group (l : Loaded σ) : Grouping :=
  let s := l.inventory.checkpoint
  .ofFunctions (r.strategy l) (r.index.query l.world.index) l.inventory.fresh s.memberships
    s.allFunctions

/-- The results of proposals for clusters, if there are to be any. -/
def propose (clusters : List Cluster) (w : World σ) : Option (List ProposalResult) :=
  r.proposer.map (fun p =>
    Proposals.inBatches (p.advisor r.project w.files).propose id r.settings.run.batchSize clusters)

end RunSetup

/-! ## The report -/

namespace Report

/-- The order of parse errors by place. -/
def errorBefore (a b : ParseError) : Bool :=
  let line : Option Nat → Nat
    | none => 0
    | some n => n + 1
  ((compare a.filePath b.filePath).then <|
    (compare (line a.lineNumber) (line b.lineNumber)).then (compare a.message b.message)) != .gt

/-- The groups of files of one digest, by digest. -/
def duplicateGroups (hashes : Dict String) : List DuplicateFiles :=
  let groups := (TextSet.ofList hashes.values).toList.map (fun hash =>
    ⟨hash, (hashes.entries.filter (fun e => e.2 == hash)).map (·.1)⟩)
  groups.filter (fun g => 1 < g.files.length)

end Report

namespace StageOutcome

/-- How the files were loaded. -/
def ofLoading (i : Inventory) : Option StoreError → StageOutcome
  | none => ⟨.load, .completed, some i.summary, 0⟩
  | some error =>
    ⟨.load, .failed,
      some (i.summary ++ "; index write failed: Vector store error: " ++ error.message), 0⟩

def ofGrouping (g : Grouping) : StageOutcome := ⟨.cluster, .completed, some g.summary, 0⟩

/-- How proposals went. -/
def ofProposals : Option (List ProposalResult) → StageOutcome
  | none => ⟨.process, .skipped, some "generation disabled", 0⟩
  | some [] => ⟨.process, .completed, some "no duplicate clusters", 0⟩
  | some results => ⟨.process, .completed, some (Proposals.summary results), 0⟩

/-- The end of a run. -/
def ofEnd : StageOutcome := ⟨.done, .completed, none, 0⟩

end StageOutcome

namespace RunSetup

variable {σ : Type} (r : RunSetup σ)

/-- The report on a run.  By itself a run takes no time; a clock outside may say otherwise. -/
def report (files : Nat) (l : Loaded σ) (g : Grouping) (s : Checkpoint)
    (results : Option (List ProposalResult)) : Report :=
  let shared := g.clustering.shared
  let loading := StageOutcome.ofLoading l.inventory l.indexError
  let clusters := match results with
    | none => shared.map (fun c => ClusterReport.ofCluster c none)
    | some results => shared.zipWith (fun c result => .ofCluster c (some result)) results
  {
    root := r.root
    strategy := (r.strategy l).display
    stats := {
      filesScanned := files
      filesLoaded := l.inventory.loaded
      filesUnchanged := l.inventory.unchanged
      filesFailed := l.inventory.failed
      functions := s.functionCount
      clusters := g.clustering.size
      sharedClusters := shared.length
      time := 0 }
    stages := [loading, .ofGrouping g, .ofProposals results, .ofEnd]
    clusters := clusters
    parseErrors := s.syntaxErrors.mergeSort Report.errorBefore
    duplicateFiles := Report.duplicateGroups s.fileHashes
    success := loading.isCompleted && !clusters.any ClusterReport.isFailure }

/-- A run over files, starting from the records of an earlier one. -/
def runOver (s : Checkpoint) (files : List (Files.Path × String)) (w : World σ) : RunResult σ :=
  let l := r.load s files w
  let g := r.group l
  let s := l.inventory.checkpoint.setClusters g.clustering
  let world := r.flush s (r.flush l.inventory.checkpoint l.world)
  let results := r.propose g.clustering.shared world
  ⟨r.report files.length l g s results, s, g.clustering.shared, world⟩

/-- One run over the project. -/
def run (w : World σ) : Except RunFault (RunResult σ) :=
  if !w.files.hasFolder r.project then .error (.noProject r.root)
  else
    let scan := r.settings.scan
    match Files.ScanOptions.ofPatterns? scan.patterns scan.excluded scan.limit with
    | none => .error .pattern
    | some o =>
      if RunFault.workerLimit < r.settings.run.workers then .error .tooManyWorkers
      else .ok (r.runOver (r.startingCheckpoint w) (r.sourceFiles o w) w)

end RunSetup

end Consolidation
