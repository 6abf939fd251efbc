/-
# `CommandLine.Basic` — the program

The program reads its arguments, finds the settings of the project and changes them by the environment and the
arguments, makes one run, and leaves the reports that are asked for.  It ends with 2 if the
arguments make no sense and with 1 if something else is in the way.
-/
import Consolidation.CommandLine.Options
import Consolidation.Report.Json
import Consolidation.Report.Markdown
import Consolidation.Run.Wiring
import Consolidation.Settings.Check
import Consolidation.Settings.Document
import Consolidation.Settings.Environment

namespace Consolidation

/-- Why the program ends without having done its work. -/
inductive ProgramFault where
  | usage (reason : UsageEnd)
  | noProject (root : String)
  | settings (fault : SettingsFault)
  | run (fault : RunFault)
  /-- The report cannot be written. -/
  | reportForm
  | file (fault : Files.FileFault)
deriving DecidableEq

namespace ProgramFault

/-- The number with which the program ends: a run that breaks down has its own. -/
def exitCode : ProgramFault → Nat
  | usage .help => 0
  | usage .version => 0
  | usage _ => 2
  | run .tooManyWorkers => 101
  | reportForm => 101
  | _ => 1

def message : ProgramFault → String
  | usage _ => "consolidator [options] <project>"
  | noProject root => "Project directory " ++ root ++ " does not exist"
  | settings fault => fault.message
  | run fault => fault.message
  | reportForm => "a digest cannot be cut"
  | file fault => "IO error: " ++ fault.message

end ProgramFault

/-- What the program finds when it starts. -/
structure ProgramStart where
  environment : Environment
  outside : Surroundings
  /-- The folder in which it starts. -/
  folder : Files.Path
  files : Files.Entry

namespace Options

/-- Changes settings by the arguments. -/
def override (o : Options) (s : Settings) : Settings := {
  scan := { s.scan with limit := o.limit.or s.scan.limit }
  clustering := { s.clustering with threshold := o.threshold.getD s.clustering.threshold }
  run := {
    s.run with
    workers := o.workers.getD s.run.workers
    batchSize := o.batchSize.getD s.run.batchSize }
  embedding := { s.embedding with mode := o.mode.getD s.embedding.mode }
  model := { s.model with enabled := s.model.enabled && !o.noModel }
  formatter := s.formatter }

/-- The settings of a run: from the file, then the environment, then the arguments. -/
def settings (o : Options) (start : ProgramStart) : Except SettingsFault Settings := do
  let found ← Settings.discover (.ofText start.folder o.root)
    (o.settingsPath.map (.ofText start.folder)) start.files
  let s ← found.withEnvironment start.environment
  let s := o.override s
  match s.fault? with
  | some fault => .error fault
  | none => .ok s

end Options

/-- The text of a path from the top. -/
def absoluteText (path : Files.Path) : String := "/" ++ path.toText

namespace Report

/-- The report on a run that took so many milliseconds. -/
def timed (r : Report) (time : Nat) : Report :=
  { r with
    stats := { r.stats with time := time }
    stages := r.stages.map (fun o => if o.stage == .done then { o with duration := time } else o) }

end Report

/-- A run that the program has made. -/
structure ProgramRunResult where
  options : Options
  project : Files.Path
  report : Report
  files : Files.Entry

namespace ProgramStart

/-- Makes the run that arguments ask for. -/
def consolidate (start : ProgramStart) (args : List String) :
    Except ProgramFault ProgramRunResult := do
  let o ← (Options.ofArgs args).mapError .usage
  let project : Files.Path := .ofText start.folder o.root
  if !start.files.hasFolder project then throw (.noProject o.root)
  let s ← (o.settings start).mapError .settings
  let result ← (RunSetup.runWith s start.outside start.folder (absoluteText project) o.fresh
    start.files).mapError .run
  return ⟨o, project, result.report, result.world.files⟩

end ProgramStart

namespace ProgramRunResult

/-- Leaves the report in the project if it is asked for. -/
def writeMarkdown (p : ProgramRunResult) (files : Files.Entry) : Except ProgramFault Files.Entry :=
  if !p.options.report then .ok files
  else match p.report.markdown? with
    | none => .error .reportForm
    | some text =>
      (files.write (p.project ++ [Report.fileName]) (Text.Utf8.encode text.toList)).mapError .file

/-- Writes the report as JSON if it is asked for. -/
def writeJson (p : ProgramRunResult) (folder : Files.Path) (files : Files.Entry) :
    Except ProgramFault Files.Entry :=
  match p.options.jsonPath with
  | none => .ok files
  | some path => (files.place (.ofText folder path) p.report.toJson.toPrettyBytes).mapError .file

/-- Leaves the reports on a run that took so many milliseconds: the files, and why the program fails if it
does. -/
def deliver (p : ProgramRunResult) (time : Nat) (folder : Files.Path) :
    Files.Entry × Option ProgramFault :=
  let p := { p with report := p.report.timed time }
  match p.writeMarkdown p.files with
  | .error fault => (p.files, some fault)
  | .ok files =>
    match p.writeJson folder files with
    | .error fault => (files, some fault)
    | .ok files => (files, none)

end ProgramRunResult

/-- How the program ends. -/
structure ProgramOutcome where
  exitCode : Nat
  /-- The lines that it writes. -/
  output : String
  files : Files.Entry
  fault : Option ProgramFault

namespace ProgramStart

/-- The version that the program tells. -/
def versionLine : String := "consolidator 0.1.0\n"

/-- The outcome without a run. -/
def refuse (start : ProgramStart) (fault : ProgramFault) : ProgramOutcome :=
  ⟨fault.exitCode, if fault = .usage .version then versionLine else "", start.files, some fault⟩

/-- The outcome of a run that took so many milliseconds. -/
def finish (start : ProgramStart) (p : ProgramRunResult) (time : Nat) : ProgramOutcome :=
  match p.deliver time start.folder with
  | (files, some fault) => ⟨fault.exitCode, "", files, some fault⟩
  | (files, none) => ⟨0, (p.report.timed time).summary ++ "\n", files, none⟩

/-- The program as a whole, where a run takes no time. -/
def program (start : ProgramStart) (args : List String) : ProgramOutcome :=
  match start.consolidate args with
  | .error fault => start.refuse fault
  | .ok p => start.finish p 0

end ProgramStart

end Consolidation
