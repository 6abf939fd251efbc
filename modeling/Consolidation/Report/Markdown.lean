/-
# `Report.Markdown` — a report to read

A report is written with a table of the stages, a section with a table for each cluster, a table of the parse
errors, and the groups of equal files.  In a table a bar inside a cell is escaped, and a long
text is cut.
-/
import Consolidation.Report.Basic

namespace Consolidation.Report

open Text

/-! ## Cells and rows -/

/-- How many characters of a text a cell shows. -/
def maxCell : Nat := 120

/-- A text on one line, its blanks single spaces, cut if it is longer than `limit` characters. -/
def oneLine (limit : Nat) (text : String) : String :=
  let s := joinWith [' '] (fields text.toList)
  if s.length ≤ limit then String.ofList s else String.ofList (s.take (limit - 1) ++ ['…'])

/-- Escapes the bars in a text. -/
def escapeCell (text : String) : String :=
  mapText (fun s => s.flatMap (fun c => if c == '|' then ['\\', '|'] else [c])) text

/-- A row of a table. -/
def row (cells : List String) : String := "| " ++ String.intercalate " | " cells ++ " |\n"

/-- A text as code. -/
def code (text : String) : String := "\x60" ++ text ++ "\x60"

def fenceLine : String := String.ofList fence

/-! ## Sections -/

def overview (r : Report) : String :=
  let s := r.stats
  "# Code consolidation report\n\n" ++
  "- Project: " ++ code r.root ++ "\n" ++
  "- Status: " ++ code (if r.success then "success" else "failed") ++ "\n" ++
  "- Strategy: " ++ code r.strategy ++ "\n" ++
  "- Files: " ++ code (toString s.filesScanned) ++ " scanned, " ++ code (toString s.filesLoaded) ++
  " loaded, " ++ code (toString s.filesUnchanged) ++ " unchanged, " ++
  code (toString s.filesFailed) ++ " failed\n" ++
  "- Functions: " ++ code (toString s.functions) ++ ", clusters: " ++ code (toString s.clusters) ++
  ", with duplicates: " ++ code (toString s.sharedClusters) ++ "\n\n"

def stageHeader : String := "| stage | status | duration_ms | message |\n"

def stageRow (o : StageOutcome) : String :=
  row [code o.stage.name, code o.status.name, code (toString o.duration),
    escapeCell (oneLine maxCell (o.message.getD ""))]

def stageSection (r : Report) : String :=
  "## Stages\n\n" ++ stageHeader ++ "|---|---|---:|---|\n" ++
  String.join (r.stages.map stageRow) ++ "\n"

def memberHeader : String := "| | function | location | complexity | docstring |\n"

def memberRow (canonicalId : String) (m : MemberSummary) : String :=
  row [if m.id == canonicalId then "★" else "", code (escapeCell m.signature),
    code (escapeCell m.location), code (toString m.complexity),
    if m.hasDocstring then "yes" else "no"]

/-- What came of a cluster. -/
def outcome : Option ProposalResult → String
  | none => "Status: not processed\n\n"
  | some result =>
    if result.isSuccess then
      "Status: consolidated" ++ (if result.linted then "" else " (not linted)") ++ "\n\n" ++
      match result.consolidatedSource with
      | some source =>
        fenceLine ++ "python\n" ++ mapText trimEnd source ++ "\n" ++ fenceLine ++ "\n\n"
      | none => ""
    else
      "Status: failed\n\n" ++
      String.join (result.errors.map (fun e => "- " ++ oneLine maxCell e ++ "\n")) ++ "\n"

def clusterPart (c : ClusterReport) : String :=
  "### " ++ code c.key ++ " (" ++ toString c.members.length ++ " members)\n\n" ++
  memberHeader ++ "|---|---|---|---:|---|\n" ++
  String.join (c.members.map (memberRow c.canonicalId)) ++ "\n" ++ outcome c.result

def clusterSection (r : Report) : String :=
  "## Clusters\n\n" ++
  (if r.clusters.isEmpty then "No duplicate functions found.\n\n" else "") ++
  String.join (r.clusters.map clusterPart)

def errorHeader : String := "| file | line | message |\n"

def errorRow (e : ParseError) : String :=
  row [code (escapeCell e.filePath),
    code (match e.lineNumber with
      | some line => toString line
      | none => "n/a"),
    escapeCell (oneLine maxCell e.message)]

def errorSection (r : Report) : String :=
  "## Parse errors\n\n" ++
  if r.parseErrors.isEmpty then "None.\n\n"
  else errorHeader ++ "|---|---:|---|\n" ++ String.join (r.parseErrors.map errorRow) ++ "\n"

/-- How many bytes of a digest are shown. -/
def digestBytes : Nat := 12

/-- The characters that so many bytes from the start hold, unless the last of them is cut. -/
def takeBytes? : Nat → List Char → Option (List Char)
  | 0, _ => some []
  | _ + 1, [] => some []
  | n + 1, c :: rest =>
    if c.utf8Size ≤ n + 1 then (takeBytes? (n + 1 - c.utf8Size) rest).map (c :: ·) else none

def duplicateLine? (g : DuplicateFiles) : Option String :=
  (takeBytes? digestBytes g.contentHash.toList).map (fun digest =>
    "- " ++ code (String.ofList digest) ++ ": " ++ String.intercalate ", " (g.files.map code) ++ "\n")

def duplicateSection? (r : Report) : Option String :=
  (r.duplicateFiles.mapM duplicateLine?).map (fun found =>
    "## Duplicate files\n\n" ++ (if r.duplicateFiles.isEmpty then "None.\n" else "") ++
      String.join found)

/-- The report, unless a digest in it cannot be cut. -/
def markdown? (r : Report) : Option String :=
  (duplicateSection? r).map (fun duplicates =>
    overview r ++ stageSection r ++ clusterSection r ++ errorSection r ++ duplicates)

/-- The file of a report below the project. -/
def fileName : String := "code_consolidation_report.md"

end Consolidation.Report
