/-
# `Proofs.Run.Tables` — the tables in the report of a run

What keeps the tables of any report in shape is told in `Proofs.Report.Tables`; here it is asked what a run puts into
them.  The messages of its stages are made of words and numbers, unless the index could not be written.  Signatures,
locations and paths come from the records, and these are `Tidy` if digests can be cut and no path has a backslash: what is
recorded for a path is kept, dropped or extracted anew (`Inventory.tidy_take`), and the text by which a file goes has
slashes instead of backslashes.

So a row is torn by a name or a signature that breaks a line, and has a cell too many where a bar stands behind an odd
number of backslashes in a message or a signature (`RunSetup.run_tables`).

## What is proved

For every run that gives a result:

* if what it starts from is tidy, so is what it leaves, the report can be written as markdown, and no location or path in
  it has a bar that comes loose;
* if the report is written, the tables of the stages, of the members of each cluster and of the parse errors stand in it;
* for each row it is said exactly when it fits its header: a stage that has not failed always does, and the others do if
  their signatures, locations, paths and messages have no loose bars and the first three no line breaks.

A message is put on one line before it is shown, a path is not.  So a file whose name has a line feed in it tears its row
(`run_tables_torn`), though its error is in the table.
-/
import Consolidation.Proofs.Cluster.Keys
import Consolidation.Proofs.Report.Tables
import Consolidation.Proofs.Run.Duplicates
import Consolidation.Proofs.Run.Proposals
import Consolidation.Proofs.Run.Provenance

namespace Consolidation

open Inventory FileFinding Checkpoint Report

/-! ## Tidy records -/

theorem isCuttable_sha256 (bytes : List UInt8) : IsCuttable (Digest.sha256 bytes) := by
  have hnarrow : ∀ c ∈ (Digest.sha256 bytes).toList, c.utf8Size = 1 := by
    rw [Digest.sha256, String.toList_ofList]
    exact Digest.forall_mem_sha256Hex (by decide) bytes
  rw [IsCuttable, takeBytes?_of_narrow hnarrow]
  rfl

namespace FileRecord

/-- A digest that can be cut, and paths without backslashes. -/
structure Tidy (r : FileRecord) : Prop where
  hash : ∀ hash, r.hash? = some hash → IsCuttable hash
  functions : ∀ fs, r.functions? = some fs → ∀ f ∈ fs, '\\' ∉ f.filePath.toList
  errors : ∀ e ∈ r.errors, '\\' ∉ e.filePath.toList

theorem tidy_blank : blank.Tidy := ⟨nofun, nofun, nofun⟩

theorem tidy_ofExtraction {path : String} (hpath : '\\' ∉ path.toList) (policy : KeywordPolicy)
    (content : Except Files.FileFault (List UInt8)) : (ofExtraction (extractionOf policy path content)).Tidy := by
  have herrors : ∀ e ∈ (extractionOf policy path content).errors, '\\' ∉ e.filePath.toList := by
    intro e he
    rw [(Extraction.ofFile_errors he).1]
    exact hpath
  unfold ofExtraction
  split
  · exact ⟨nofun, nofun, herrors⟩
  · next hfailed =>
    refine ⟨?_, ?_, herrors⟩
    · intro hash hhash
      cases content with
      | error fault => exact absurd rfl hfailed
      | ok bytes =>
        have hcontent : some (Digest.sha256 bytes) = some hash := (Extraction.ofBytes_contentHash ..).symm.trans hhash
        exact Option.some.inj hcontent ▸ isCuttable_sha256 bytes
    · rintro fs ⟨⟩ f hf
      rw [Extraction.ofFile_filePath hf]
      exact hpath

end FileRecord

namespace Checkpoint

/-- Is everything tidy that is recorded? -/
def Tidy (s : Checkpoint) : Prop := ∀ path, (s.recordOf path).Tidy

theorem tidy_empty : empty.Tidy := fun _ => FileRecord.tidy_blank

variable {s : Checkpoint}

theorem Tidy.isCuttable_of_mem_duplicateGroups (h : s.Tidy) {g : DuplicateFiles} (hg : g ∈ duplicateGroups s.fileHashes) :
    IsCuttable g.contentHash := by
  obtain ⟨hfiles, hlength⟩ := mem_duplicateGroups_iff.1 hg
  obtain ⟨path, hpath⟩ := List.exists_mem_of_length_pos (Nat.lt_trans Nat.zero_lt_one hlength)
  rw [hfiles, mem_filesOf_iff] at hpath
  exact (h path).hash _ hpath

theorem Tidy.backslash_not_mem_of_mem_syntaxErrors (h : s.Tidy) {e : ParseError} (he : e ∈ s.syntaxErrors) :
    '\\' ∉ e.filePath.toList :=
  (h e.filePath).errors e (List.mem_filter.2 ⟨he, beq_self_eq_true _⟩)

theorem Tidy.backslash_not_mem_of_mem_allFunctions (h : s.Tidy) {f : FunctionRecord} (hf : f ∈ s.allFunctions) :
    '\\' ∉ f.filePath.toList := by
  obtain ⟨path, fs, hfs, hf⟩ := mem_allFunctions_iff.1 hf
  exact (h path).functions fs hfs f hf

/-- The clusters are no part of what is recorded of the files. -/
theorem Tidy.setClusters (h : s.Tidy) (c : Clustering) : (s.setClusters c).Tidy := h

end Checkpoint

/-- A run keeps its records tidy. -/
theorem Inventory.tidy_take {s : Checkpoint} (h : s.Tidy) (policy : KeywordPolicy) (tree : Files.Entry)
    {files : List (Files.Path × String)} (hfiles : ∀ file ∈ files, '\\' ∉ file.2.toList) :
    (take policy tree s files).checkpoint.Tidy :=
  forall_recordOf_take h FileRecord.tidy_blank fun file hfile =>
    FileRecord.tidy_ofExtraction (hfiles file hfile) policy (tree.read file.1)

theorem Files.backslash_not_mem_relativeText (project path : Files.Path) :
    '\\' ∉ (Files.relativeText project path).toList := by
  rw [Files.relativeText, String.toList_ofList, List.mem_map]
  rintro ⟨c, -, hc⟩
  split at hc
  · cases hc
  · next hne => exact hne (beq_iff_eq.2 hc)

/-! ## The stages of a run -/

theorem bar_not_mem_toString (n : Nat) : '|' ∉ (toString n).toList := by
  rw [toString_toList]
  exact not_mem_toDigits_ten (by decide) n

theorem Inventory.bar_not_mem_summary (i : Inventory) : '|' ∉ i.summary.toList := by
  simp only [Inventory.summary, String.toList_append, List.mem_append, bar_not_mem_toString, or_false, false_or]
  decide

theorem Grouping.bar_not_mem_summary (g : Grouping) : '|' ∉ g.summary.toList := by
  unfold Grouping.summary
  split <;>
  · simp only [String.toList_append, List.mem_append, bar_not_mem_toString, or_false, false_or]
    decide

theorem Proposals.bar_not_mem_summary (results : List ProposalResult) : '|' ∉ (Proposals.summary results).toList := by
  simp only [Proposals.summary, String.toList_append, List.mem_append, bar_not_mem_toString, or_false, false_or]
  decide

theorem RunSetup.bar_not_mem_message {σ : Type} {r : RunSetup σ} {files : Nat} {l : RunSetup.Loaded σ} {g : Grouping}
    {s : Checkpoint} {results : Option (List ProposalResult)} {o : StageOutcome}
    (ho : o ∈ (r.report files l g s results).stages) (hstatus : o.status ≠ .failed) : '|' ∉ (o.message.getD "").toList := by
  have hstages : (r.report files l g s results).stages =
      [.ofLoading l.inventory l.indexError, .ofGrouping g, .ofProposals results, .ofEnd] := rfl
  simp only [hstages, List.mem_cons, List.not_mem_nil, or_false] at ho
  rcases ho with rfl | rfl | rfl | rfl
  · cases herror : l.indexError with
    | none => exact l.inventory.bar_not_mem_summary
    | some error =>
      rw [herror] at hstatus
      exact absurd rfl hstatus
  · exact g.bar_not_mem_summary
  · match results with
    | none => exact fun h => absurd h (by decide)
    | some [] => exact fun h => absurd h (by decide)
    | some (result :: results) => exact Proposals.bar_not_mem_summary _
  · exact fun h => nomatch h

/-! ## The members in a report -/

theorem looseBars_location {f : FunctionRecord} (h : '\\' ∉ f.filePath.toList) : looseBars f.location = 0 := by
  refine looseBars_of_no_backslash ?_
  simp only [FunctionRecord.location, String.toList_append, List.mem_append, not_or]
  refine ⟨⟨h, by decide⟩, ?_⟩
  rw [toString_toList]
  exact not_mem_toDigits_ten (by decide) f.lineNumber

namespace RunSetup

variable {σ : Type} {r : RunSetup σ} {w : World σ} {s : Checkpoint} {files : List (Files.Path × String)}

theorem exists_function_of_mem_members {c : ClusterReport} (hc : c ∈ (r.runOver s files w).report.clusters)
    {m : MemberSummary} (hm : m ∈ c.members) :
    ∃ f ∈ (r.runOver s files w).checkpoint.allFunctions, m.signature = f.signature ∧ m.location = f.location := by
  have houtline : c.outline ∈ (r.group (r.load s files w)).clustering.shared.map (fun k => ClusterReport.ofCluster k none) := by
    rw [← outline_clusters_report]
    exact List.mem_map_of_mem hc
  obtain ⟨k, hk, heq⟩ := List.mem_map.1 houtline
  obtain ⟨key, hkey⟩ := Dict.mem_values_iff.1 (List.mem_of_mem_filter hk)
  have hmembers : c.members = (ClusterReport.ofCluster k none).members := (congrArg ClusterReport.members heq).symm
  rw [hmembers] at hm
  obtain ⟨f, hf, rfl⟩ := List.mem_map.1 hm
  exact ⟨f, Grouping.ofFunctions_maps.2 key k hkey f hf, rfl, rfl⟩

theorem exists_of_run {result : RunResult σ} (hrun : r.run w = .ok result) :
    ∃ o, result = r.runOver (r.startingCheckpoint w) (r.sourceFiles o w) w := by
  have hpatterns : ∃ o, Files.ScanOptions.ofPatterns? r.settings.scan.patterns r.settings.scan.excluded
      r.settings.scan.limit = some o := by
    refine Option.ne_none_iff_exists'.1 fun hnone => ?_
    simp only [run, hnone] at hrun
    split at hrun <;> cases hrun
  obtain ⟨o, ho⟩ := hpatterns
  exact ⟨o, run_eq_runOver ho hrun⟩

/-- From tidy records a report can be written, and the paths in it have no loose bars. -/
theorem tidy_runOver (h : s.Tidy) (hfiles : ∀ file ∈ files, '\\' ∉ file.2.toList) :
    (r.runOver s files w).checkpoint.Tidy ∧ (∃ text, (r.runOver s files w).report.markdown? = some text) ∧
      (∀ c ∈ (r.runOver s files w).report.clusters, ∀ m ∈ c.members, looseBars m.location = 0) ∧
      ∀ e ∈ (r.runOver s files w).report.parseErrors, looseBars e.filePath = 0 := by
  have hloaded : (r.load s files w).inventory.checkpoint.Tidy := tidy_take h _ _ hfiles
  have htidy : (r.runOver s files w).checkpoint.Tidy := hloaded.setClusters _
  refine ⟨htidy, ?_, ?_, ?_⟩
  · exact Option.isSome_iff_exists.1 (isSome_markdown?_iff.2 fun g => htidy.isCuttable_of_mem_duplicateGroups)
  · intro c hc m hm
    obtain ⟨f, hf, -, hlocation⟩ := exists_function_of_mem_members hc hm
    rw [hlocation]
    exact looseBars_location (htidy.backslash_not_mem_of_mem_allFunctions hf)
  · intro e he
    exact looseBars_of_no_backslash (htidy.backslash_not_mem_of_mem_syntaxErrors (List.mem_mergeSort.1 he))

/-- **The tables in the report of a run.**  They stand in the markdown with one row for each stage, member and parse error, and
a row keeps the shape of its table exactly in these cases:

* that of a stage, if the stage has not failed, or no bar of what is shown of its message stands behind an odd number of
  backslashes;
* that of a member, if neither its signature nor its location breaks a line or has such a bar;
* that of a parse error, if the path breaks no line and neither the path nor what is shown of the message has such a bar.

Records that are tidy stay so.  From them the report can always be written, and no path in it has such a bar. -/
theorem run_tables {result : RunResult σ} (hrun : r.run w = .ok result) :
    ((r.startingCheckpoint w).Tidy →
      result.checkpoint.Tidy ∧ (∃ text, result.report.markdown? = some text) ∧
        (∀ c ∈ result.report.clusters, ∀ m ∈ c.members, looseBars m.location = 0) ∧
        ∀ e ∈ result.report.parseErrors, looseBars e.filePath = 0) ∧
      (∀ text, result.report.markdown? = some text →
        result.report.stageTable.StandsIn text ∧ (∀ c ∈ result.report.clusters, (memberTable c).StandsIn text) ∧
          (result.report.parseErrors ≠ [] → result.report.errorTable.StandsIn text)) ∧
      (∀ o ∈ result.report.stages, Fits stageHeader (stageRow o) ↔
        (o.status = .failed → looseBars (oneLine maxCell (o.message.getD "")) = 0)) ∧
      (∀ c ∈ result.report.clusters, ∀ m ∈ c.members, Fits memberHeader (memberRow c.canonicalId m) ↔
        (Unbroken m.signature ∧ Unbroken m.location) ∧ looseBars m.signature = 0 ∧ looseBars m.location = 0) ∧
      ∀ e ∈ result.report.parseErrors, Fits errorHeader (errorRow e) ↔
        Unbroken e.filePath ∧ looseBars e.filePath = 0 ∧ looseBars (oneLine maxCell e.message) = 0 := by
  obtain ⟨o, rfl⟩ := exists_of_run hrun
  have hfiles : ∀ file ∈ r.sourceFiles o w, '\\' ∉ file.2.toList := by
    intro file hfile
    obtain ⟨path, -, rfl⟩ := List.mem_map.1 hfile
    exact Files.backslash_not_mem_relativeText _ _
  refine ⟨fun htidy => tidy_runOver htidy hfiles, fun text => tables_of_markdown?, fun o ho => ?_,
    fun c _ m _ => fits_memberRow_iff c.canonicalId m, fun e _ => fits_errorRow_iff e⟩
  rw [fits_stageRow_iff]
  refine ⟨fun h _ => h, fun h => ?_⟩
  by_cases hstatus : o.status = .failed
  · exact h hstatus
  · exact looseBars_oneLine (bar_not_mem_message ho hstatus)

/-! ### A file whose name breaks a line -/

namespace Sample

def torn : World Unit := ⟨.folder [("a\nb.py", .file [255])], ()⟩

theorem sourceFiles_torn : bare.sourceFiles sought torn = [(["a\nb.py"], "a\nb.py")] := by
  have hwalk : Files.walk sought (Files.rulesAbove [] bare.project torn.files) bare.project "" torn.files =
      [["a\nb.py"]] := by decide
  have hscan : Files.scan sought bare.project torn.files = [["a\nb.py"]] :=
    Files.scan_eq_of_pairwise rfl rfl hwalk (List.pairwise_singleton ..)
  rw [sourceFiles, hscan]
  decide

end Sample

/-- The row of its parse error is in the table, but on two lines. -/
theorem run_tables_torn : ∃ result text, Sample.bare.run Sample.torn = .ok result ∧
    result.report.markdown? = some text ∧ result.report.errorTable.StandsIn text ∧
    ∃ e ∈ result.report.parseErrors, e.filePath = "a\nb.py" ∧ ¬Fits errorHeader (errorRow e) := by
  obtain ⟨result, hrun⟩ : ∃ result, Sample.bare.run Sample.torn = .ok result :=
    (exists_run_iff rfl Sample.isSome_patterns_bare).2 (by decide)
  obtain ⟨hwritten, htables, -, -, herrors⟩ := run_tables hrun
  obtain ⟨-, ⟨text, htext⟩, -⟩ := hwritten tidy_empty
  have herror : ⟨"a\nb.py", "file is not valid UTF-8", none⟩ ∈ result.report.parseErrors := by
    rw [run_eq_runOver Sample.patterns_bare hrun, Sample.sourceFiles_torn]
    decide +kernel
  refine ⟨result, text, hrun, htext, ?_, _, herror, rfl, ?_⟩
  · exact (htables text htext).2.2 (List.ne_nil_of_mem herror)
  · rw [herrors _ herror]
    exact fun h => h.1.1 (by decide)

end RunSetup

end Consolidation
