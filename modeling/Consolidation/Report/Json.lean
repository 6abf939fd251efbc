/-
# `Report.Json` — a report as JSON

The members of the written objects stand in the order of the fields.
-/
import Consolidation.FunctionRecord.Json
import Consolidation.Report.Basic

namespace Consolidation

open Consolidation.Json

namespace StageOutcome

def toJson (o : StageOutcome) : Json := .obj [
  ("stage", .str o.stage.name),
  ("status", .str o.status.name),
  ("message", optStr o.message),
  ("duration_ms", .nat o.duration)]

def ofJson? (j : Json) : Option StageOutcome := do
  let r ← record? ["stage", "status", "message", "duration_ms"] j
  some {
    stage := ← r.required "stage" (asName? Stage.ofName?)
    status := ← r.required "status" (asName? StageStatus.ofName?)
    message := ← r.optional "message" asStr?
    duration := ← r.required "duration_ms" (asNatUpTo? maxLong) }

end StageOutcome

namespace RunStats

def fieldNames : List String := [
  "files_scanned", "files_loaded", "files_unchanged", "files_failed", "functions", "clusters",
  "multi_member_clusters", "time_ms"]

def toJson (s : RunStats) : Json := .obj (fieldNames.zip ([
  s.filesScanned, s.filesLoaded, s.filesUnchanged, s.filesFailed, s.functions, s.clusters,
  s.sharedClusters, s.time].map .nat))

def ofJson? (j : Json) : Option RunStats := do
  let r ← record? fieldNames j
  let count (name : String) : Option Nat := r.required name (asNatUpTo? maxLong)
  some {
    filesScanned := ← count "files_scanned"
    filesLoaded := ← count "files_loaded"
    filesUnchanged := ← count "files_unchanged"
    filesFailed := ← count "files_failed"
    functions := ← count "functions"
    clusters := ← count "clusters"
    sharedClusters := ← count "multi_member_clusters"
    time := ← count "time_ms" }

end RunStats

namespace ProposalResult

def fieldNames : List String := [
  "cluster_key", "consolidated_source", "linted", "errors", "canonical_id", "member_count"]

def toJson (p : ProposalResult) : Json := .obj [
  ("cluster_key", .str p.clusterKey),
  ("consolidated_source", optStr p.consolidatedSource),
  ("linted", .bool p.linted),
  ("errors", strs p.errors),
  ("canonical_id", .str p.canonicalId),
  ("member_count", .nat p.memberCount)]

def ofJson? (j : Json) : Option ProposalResult := do
  let r ← record? fieldNames j
  some {
    clusterKey := ← r.required "cluster_key" asStr?
    consolidatedSource := ← r.optional "consolidated_source" asStr?
    linted := ← r.required "linted" asBool?
    errors := ← r.required "errors" (asList? asStr?)
    canonicalId := ← r.required "canonical_id" asStr?
    memberCount := ← r.required "member_count" (asNatUpTo? maxLong) }

end ProposalResult

namespace MemberSummary

def fieldNames : List String := ["id", "signature", "location", "complexity", "has_docstring"]

def toJson (m : MemberSummary) : Json := .obj [
  ("id", .str m.id),
  ("signature", .str m.signature),
  ("location", .str m.location),
  ("complexity", .nat m.complexity),
  ("has_docstring", .bool m.hasDocstring)]

def ofJson? (j : Json) : Option MemberSummary := do
  let r ← record? fieldNames j
  some {
    id := ← r.required "id" asStr?
    signature := ← r.required "signature" asStr?
    location := ← r.required "location" asStr?
    complexity := ← r.required "complexity" (asNatUpTo? maxWord)
    hasDocstring := ← r.required "has_docstring" asBool? }

end MemberSummary

namespace ClusterReport

def toJson (c : ClusterReport) : Json := .obj [
  ("key", .str c.key),
  ("canonical_id", .str c.canonicalId),
  ("members", .arr (c.members.map MemberSummary.toJson)),
  ("result", (c.result.map ProposalResult.toJson).getD .null)]

def ofJson? (j : Json) : Option ClusterReport := do
  let r ← record? ["key", "canonical_id", "members", "result"] j
  some {
    key := ← r.required "key" asStr?
    canonicalId := ← r.required "canonical_id" asStr?
    members := ← r.required "members" (asList? MemberSummary.ofJson?)
    result := ← r.optional "result" ProposalResult.ofJson? }

end ClusterReport

namespace DuplicateFiles

def toJson (g : DuplicateFiles) : Json :=
  .obj [("content_hash", .str g.contentHash), ("files", strs g.files)]

def ofJson? (j : Json) : Option DuplicateFiles := do
  let r ← record? ["content_hash", "files"] j
  some {
    contentHash := ← r.required "content_hash" asStr?
    files := ← r.required "files" (asList? asStr?) }

end DuplicateFiles

namespace Report

def fieldNames : List String := [
  "root", "strategy", "stats", "stages", "clusters", "parse_errors", "duplicate_files", "success"]

def toJson (r : Report) : Json := .obj [
  ("root", .str r.root),
  ("strategy", .str r.strategy),
  ("stats", r.stats.toJson),
  ("stages", .arr (r.stages.map StageOutcome.toJson)),
  ("clusters", .arr (r.clusters.map ClusterReport.toJson)),
  ("parse_errors", .arr (r.parseErrors.map ParseError.toJson)),
  ("duplicate_files", .arr (r.duplicateFiles.map DuplicateFiles.toJson)),
  ("success", .bool r.success)]

def ofJson? (j : Json) : Option Report := do
  let r ← record? fieldNames j
  some {
    root := ← r.required "root" asStr?
    strategy := ← r.required "strategy" asStr?
    stats := ← r.required "stats" RunStats.ofJson?
    stages := ← r.required "stages" (asList? StageOutcome.ofJson?)
    clusters := ← r.required "clusters" (asList? ClusterReport.ofJson?)
    parseErrors := ← r.required "parse_errors" (asList? ParseError.ofJson?)
    duplicateFiles := ← r.required "duplicate_files" (asList? DuplicateFiles.ofJson?)
    success := ← r.required "success" asBool? }

end Report

end Consolidation
