/-
# `Proofs.Run.Duplicates` — which files a report groups

A report groups the files by the digests in the checkpoint.  Groups of a dictionary of digests are exact: two paths are in
one group exactly if they have one digest (`exists_group_iff`), and no path is in two groups (`disjoint_duplicateGroups`).

So it depends on which digests a run leaves in the checkpoint.  Whatever was recorded before, of a file that can be read
it is the digest of its content if the file counts as processed, and none if it does not (`hash?_take`).  A file counts as
processed if it is text, or if its very digest was recorded when the run began; what is no text fails, and failed files
stay out of the checkpoint so that they are tried again.

## What is proved

For every run that gives a result, over files that go by different texts and whose digests tell their contents apart, and
for every checkpoint from which it starts: two scanned files that can be read are in one group of the report if and only
if they have the same bytes and both count as processed.  Every group has two files or more, in order, and no two groups
share one.

The second condition is there by design.  A file that fails leaves no digest, so that it is tried again in the next run;
with no digest it is in no group, and two copies of a file that is no text are not reported.  The example at the end is
such a run, beside one over two copies of a text.
-/
import Mathlib.Data.List.Pairwise
import Consolidation.Proofs.Files.RelativeText
import Consolidation.Proofs.Run.Inventory
import Consolidation.Proofs.Run.Limits

namespace Consolidation

/-! ## Groups -/

namespace Report

variable {hashes : Dict String} {hash path path' : String} {g : DuplicateFiles}

def filesOf (hashes : Dict String) (hash : String) : List String :=
  (hashes.entries.filter (fun e => e.2 == hash)).map (·.1)

theorem mem_filesOf_iff : path ∈ filesOf hashes hash ↔ hashes.find? path = some hash := by
  rw [← Dict.mem_entries_iff, filesOf, List.mem_map]
  constructor
  · rintro ⟨⟨path, hash'⟩, he, rfl⟩
    obtain ⟨hmem, heq⟩ := List.mem_filter.1 he
    obtain rfl : hash' = hash := beq_iff_eq.1 heq
    exact hmem
  · intro he
    exact ⟨(path, hash), List.mem_filter.2 ⟨he, beq_self_eq_true hash⟩, rfl⟩

theorem sorted_filesOf (hashes : Dict String) (hash : String) : (filesOf hashes hash).Pairwise (· < ·) :=
  List.pairwise_map.2 (hashes.sorted.filter _)

theorem mem_duplicateGroups_iff :
    g ∈ duplicateGroups hashes ↔ g.files = filesOf hashes g.contentHash ∧ 1 < g.files.length := by
  rw [duplicateGroups, List.mem_filter, decide_eq_true_iff, List.mem_map]
  refine and_congr_left fun hlength => ?_
  constructor
  · rintro ⟨hash, -, rfl⟩
    rfl
  · intro hfiles
    obtain ⟨path, hpath⟩ := List.exists_mem_of_length_pos (Nat.lt_trans Nat.zero_lt_one hlength)
    rw [hfiles, mem_filesOf_iff] at hpath
    refine ⟨g.contentHash, TextSet.mem_toList_ofList.2 (Dict.mem_values_iff.2 ⟨path, hpath⟩), ?_⟩
    cases g
    exact congrArg (DuplicateFiles.mk _) hfiles.symm

/-- Two files are in one group exactly if they have one digest. -/
theorem exists_group_iff (hne : path ≠ path') :
    (∃ g ∈ duplicateGroups hashes, path ∈ g.files ∧ path' ∈ g.files) ↔
      ∃ hash, hashes.find? path = some hash ∧ hashes.find? path' = some hash := by
  constructor
  · rintro ⟨g, hg, hpath, hpath'⟩
    rw [(mem_duplicateGroups_iff.1 hg).1, mem_filesOf_iff] at hpath hpath'
    exact ⟨g.contentHash, hpath, hpath'⟩
  · rintro ⟨hash, hpath, hpath'⟩
    rw [← mem_filesOf_iff] at hpath hpath'
    have hlength : 1 < (filesOf hashes hash).length := by
      rcases hfiles : filesOf hashes hash with _ | ⟨first, _ | ⟨second, rest⟩⟩
      · rw [hfiles] at hpath
        cases hpath
      · rw [hfiles, List.mem_singleton] at hpath hpath'
        exact absurd (hpath.trans hpath'.symm) hne
      · simp
    exact ⟨⟨hash, filesOf hashes hash⟩, mem_duplicateGroups_iff.2 ⟨rfl, hlength⟩, hpath, hpath'⟩

/-- No file is in two groups. -/
theorem disjoint_duplicateGroups (hashes : Dict String) :
    (duplicateGroups hashes).Pairwise fun g g' => List.Disjoint g.files g'.files := by
  refine List.Pairwise.filter _ (List.pairwise_map.2 ((Dict.nodup_keys _).imp ?_))
  intro hash hash' hne path hpath hpath'
  have hhash : hashes.find? path = some hash := mem_filesOf_iff.1 hpath
  have hhash' : hashes.find? path = some hash' := mem_filesOf_iff.1 hpath'
  rw [hhash] at hhash'
  exact hne (Option.some.inj hhash')

end Report

/-! ## Digests -/

namespace Inventory

open FileFinding

/-- Does a file with some content count as processed, in a run that starts from a checkpoint? -/
def CountsAsProcessed (s : Checkpoint) (path : String) (bytes : List UInt8) : Prop :=
  Text.Utf8.decode? bytes ≠ none ∨ knownHash? s path = some (Digest.sha256 bytes)

variable {policy : KeywordPolicy} {tree : Files.Entry} {s : Checkpoint} {files : List (Files.Path × String)}
  {file : Files.Path × String} {bytes : List UInt8} {hash : String}

/-- Of a file that can be read, the digest of its content is recorded if it counts as processed, and none otherwise. -/
theorem hash?_take (hnodup : (files.map (·.2)).Nodup) (hfile : file ∈ files) (hread : tree.read file.1 = .ok bytes) :
    (take policy tree s files).checkpoint.fileHashes.find? file.2 = some hash ↔
      CountsAsProcessed s file.2 bytes ∧ hash = Digest.sha256 bytes := by
  have hrecord : (take policy tree s files).checkpoint.recordOf file.2 = _ := recordOf_take hnodup hfile
  have hhash := congrArg FileRecord.hash? hrecord
  change (take policy tree s files).checkpoint.fileHashes.find? file.2 = _ at hhash
  rw [hhash]
  rcases ofFile_eq policy (s.purge (files.map (·.2))).1 file.2 (tree.read file.1) with
    ⟨bytes', hread', hknown, hfound⟩ | ⟨hunknown, hfound⟩
  · -- the record stays, and the digest in it is that of the content
    obtain rfl : bytes' = bytes := Except.ok.inj (hread'.symm.trans hread)
    rw [knownHash?_purge hfile] at hknown
    have hkept : (s.recordOf file.2).hash? = some (Digest.sha256 bytes') := by
      rw [knownHash?_eq] at hknown
      split at hknown
      · exact hknown
      · cases hknown
    rw [hfound, noted_unchanged, hkept, Option.some_inj, eq_comm]
    exact ⟨fun heq => ⟨.inr hknown, heq⟩, And.right⟩
  · have hnew := hunknown bytes hread
    rw [knownHash?_purge hfile] at hnew
    rw [hfound, noted_extracted, hread, extractionOf_ok, FileRecord.ofExtraction, CountsAsProcessed,
      or_iff_left hnew]
    cases hfailed : (Extraction.ofBytes policy file.2 bytes).failed with
    | true =>
      have hno := (Extraction.ofBytes_failed_iff policy file.2 bytes).1 hfailed
      simp [hno]
    | false =>
      have htext : Text.Utf8.decode? bytes ≠ none := by
        intro hno
        rw [(Extraction.ofBytes_failed_iff policy file.2 bytes).2 hno] at hfailed
        cases hfailed
      simp [htext, Extraction.ofBytes_contentHash, eq_comm]

end Inventory

/-! ## Runs -/

namespace RunSetup

open Inventory

variable {σ : Type} {r : RunSetup σ} {w : World σ} {s : Checkpoint} {files : List (Files.Path × String)}

/-- Do digests tell the contents of some files apart? -/
def DigestsDiffer (tree : Files.Entry) (files : List (Files.Path × String)) : Prop :=
  ∀ file ∈ files, ∀ file' ∈ files, ∀ bytes bytes', tree.read file.1 = .ok bytes → tree.read file'.1 = .ok bytes' →
    Digest.sha256 bytes = Digest.sha256 bytes' → bytes = bytes'

theorem duplicateFiles_runOver (r : RunSetup σ) (s : Checkpoint) (files : List (Files.Path × String)) (w : World σ) :
    (r.runOver s files w).report.duplicateFiles =
      Report.duplicateGroups (take r.settings.clustering.policy w.files s files).checkpoint.fileHashes :=
  rfl

/-- Two files of a run that can be read are in one group exactly if they have the same content and count as processed. -/
theorem exists_group_runOver_iff (hpaths : (files.map (·.2)).Nodup) (hdigests : DigestsDiffer w.files files)
    {file file' : Files.Path × String} (hfile : file ∈ files) (hfile' : file' ∈ files) (hne : file.2 ≠ file'.2)
    {bytes bytes' : List UInt8} (hread : w.files.read file.1 = .ok bytes)
    (hread' : w.files.read file'.1 = .ok bytes') :
    (∃ g ∈ (r.runOver s files w).report.duplicateFiles, file.2 ∈ g.files ∧ file'.2 ∈ g.files) ↔
      bytes = bytes' ∧ CountsAsProcessed s file.2 bytes ∧ CountsAsProcessed s file'.2 bytes' := by
  rw [duplicateFiles_runOver, Report.exists_group_iff hne]
  simp only [hash?_take hpaths hfile hread, hash?_take hpaths hfile' hread']
  constructor
  · rintro ⟨hash, ⟨hcounts, rfl⟩, hcounts', heq⟩
    exact ⟨hdigests file hfile file' hfile' bytes bytes' hread hread' heq, hcounts, hcounts'⟩
  · rintro ⟨rfl, hcounts, hcounts'⟩
    exact ⟨Digest.sha256 bytes, ⟨hcounts, rfl⟩, hcounts', rfl⟩

theorem run_eq_runOver {o : Files.ScanOptions} {result : RunResult σ}
    (hpatterns : Files.ScanOptions.ofPatterns? r.settings.scan.patterns r.settings.scan.excluded
      r.settings.scan.limit = some o) (hrun : r.run w = .ok result) :
    result = r.runOver (r.startingCheckpoint w) (r.sourceFiles o w) w := by
  simp only [run, hpatterns] at hrun
  split at hrun
  · cases hrun
  · split at hrun
    · cases hrun
    · exact (Except.ok.inj hrun).symm

/-- After a run over any earlier checkpoint, two scanned files that can be read are listed in one group exactly if they have the same
content and count as processed: they are text, or their digest was recorded at the beginning.  A group has at least two files, in
order and without repetition, and no file is in two groups. -/
theorem run_duplicateFiles {o : Files.ScanOptions} {result : RunResult σ}
    (hpatterns : Files.ScanOptions.ofPatterns? r.settings.scan.patterns r.settings.scan.excluded
      r.settings.scan.limit = some o) (hrun : r.run w = .ok result)
    (hpaths : ((r.sourceFiles o w).map (·.2)).Nodup) (hdigests : DigestsDiffer w.files (r.sourceFiles o w)) :
    (∀ file ∈ r.sourceFiles o w, ∀ file' ∈ r.sourceFiles o w, file.2 ≠ file'.2 → ∀ bytes bytes',
        w.files.read file.1 = .ok bytes → w.files.read file'.1 = .ok bytes' →
        ((∃ g ∈ result.report.duplicateFiles, file.2 ∈ g.files ∧ file'.2 ∈ g.files) ↔
          bytes = bytes' ∧ CountsAsProcessed (r.startingCheckpoint w) file.2 bytes ∧
            CountsAsProcessed (r.startingCheckpoint w) file'.2 bytes')) ∧
      (∀ g ∈ result.report.duplicateFiles, 2 ≤ g.files.length ∧ g.files.Pairwise (· < ·)) ∧
      result.report.duplicateFiles.Pairwise fun g g' => List.Disjoint g.files g'.files := by
  obtain rfl := run_eq_runOver hpatterns hrun
  refine ⟨fun file hfile file' hfile' hne bytes bytes' hread hread' =>
    exists_group_runOver_iff hpaths hdigests hfile hfile' hne hread hread', fun g hg => ?_, ?_⟩
  · rw [duplicateFiles_runOver, Report.mem_duplicateGroups_iff] at hg
    obtain ⟨hfiles, hlength⟩ := hg
    exact ⟨hlength, hfiles ▸ Report.sorted_filesOf _ _⟩
  · rw [duplicateFiles_runOver]
    exact Report.disjoint_duplicateGroups _

/-! ### Two files of one content -/

namespace Sample

def twins (content : List UInt8) : World Unit := ⟨.folder [("a.py", .file content), ("b.py", .file content)], ()⟩

/-- A run with nothing but the files. -/
def bare : RunSetup Unit := ⟨[], "", .default, .unavailable, none, true⟩

def twinPaths : List (Files.Path × String) := [(["a.py"], "a.py"), (["b.py"], "b.py")]

theorem isSome_patterns_bare : (Files.ScanOptions.ofPatterns? bare.settings.scan.patterns bare.settings.scan.excluded
    bare.settings.scan.limit).isSome = true := by
  decide

def sought : Files.ScanOptions := (Files.ScanOptions.ofPatterns? bare.settings.scan.patterns
  bare.settings.scan.excluded bare.settings.scan.limit).get isSome_patterns_bare

theorem patterns_bare : Files.ScanOptions.ofPatterns? bare.settings.scan.patterns bare.settings.scan.excluded
    bare.settings.scan.limit = some sought :=
  (Option.some_get _).symm

/-- A text, and what is none. -/
def contents : List (List UInt8) := [[120, 10], [255]]

theorem walk_twins : ∀ content ∈ contents,
    Files.walk sought (Files.rulesAbove [] bare.project (twins content).files) bare.project "" (twins content).files =
      [["a.py"], ["b.py"]] := by
  decide +kernel

theorem sourceFiles_twins {content : List UInt8} (h : content ∈ contents) :
    bare.sourceFiles sought (twins content) = twinPaths := by
  have hscan : Files.scan sought bare.project (twins content).files = [["a.py"], ["b.py"]] :=
    Files.scan_eq_of_pairwise rfl rfl (walk_twins content h) (by decide)
  rw [sourceFiles, hscan]
  decide

theorem exists_run_twins (content : List UInt8) : ∃ result, bare.run (twins content) = .ok result :=
  (exists_run_iff rfl isSome_patterns_bare).2 (by decide)

theorem nodup_twinPaths : (twinPaths.map (·.2)).Nodup := by decide

theorem read_twins {content : List UInt8} {file : Files.Path × String} (hfile : file ∈ twinPaths) :
    (twins content).files.read file.1 = .ok content := by
  simp only [twinPaths, List.mem_cons, List.not_mem_nil, or_false] at hfile
  rcases hfile with rfl | rfl <;> rfl

theorem digestsDiffer_twins (content : List UInt8) : DigestsDiffer (twins content).files twinPaths := by
  intro file hfile file' hfile' bytes bytes' hread hread' _
  rw [read_twins hfile] at hread
  rw [read_twins hfile'] at hread'
  exact (Except.ok.inj hread).symm.trans (Except.ok.inj hread')

end Sample

/-- Two copies of a text are in one group. -/
theorem run_duplicateFiles_texts :
    ∃ result, Sample.bare.run (Sample.twins [120, 10]) = .ok result ∧
      ∃ g ∈ result.report.duplicateFiles, "a.py" ∈ g.files ∧ "b.py" ∈ g.files := by
  obtain ⟨result, hrun⟩ := Sample.exists_run_twins [120, 10]
  have hfiles := Sample.sourceFiles_twins (show [120, 10] ∈ Sample.contents by decide)
  obtain ⟨hgroup, -⟩ := run_duplicateFiles Sample.patterns_bare hrun (hfiles ▸ Sample.nodup_twinPaths)
    (hfiles ▸ Sample.digestsDiffer_twins [120, 10])
  rw [hfiles] at hgroup
  have htext : Text.Utf8.decode? [120, 10] ≠ none := by decide
  have htwins := hgroup _ List.mem_cons_self _ (List.mem_cons_of_mem _ List.mem_cons_self) (by decide) _ _ rfl rfl
  exact ⟨result, hrun, htwins.2 ⟨rfl, .inl htext, .inl htext⟩⟩

/-- Two copies of what is no text are in no group, though they are scanned and can be read. -/
theorem run_duplicateFiles_noTexts :
    ∃ result, Sample.bare.run (Sample.twins [255]) = .ok result ∧
      Sample.bare.sourceFiles Sample.sought (Sample.twins [255]) = [(["a.py"], "a.py"), (["b.py"], "b.py")] ∧
      (Sample.twins [255]).files.read ["a.py"] = .ok [255] ∧ (Sample.twins [255]).files.read ["b.py"] = .ok [255] ∧
      ¬∃ g ∈ result.report.duplicateFiles, "a.py" ∈ g.files ∧ "b.py" ∈ g.files := by
  obtain ⟨result, hrun⟩ := Sample.exists_run_twins [255]
  have hfiles := Sample.sourceFiles_twins (show [255] ∈ Sample.contents by decide)
  have hresult := run_eq_runOver Sample.patterns_bare hrun
  rw [hfiles] at hresult
  have hgroup := exists_group_runOver_iff (r := Sample.bare)
    (s := Sample.bare.startingCheckpoint (Sample.twins [255])) Sample.nodup_twinPaths (Sample.digestsDiffer_twins [255])
    List.mem_cons_self (List.mem_cons_of_mem _ List.mem_cons_self) (by decide) rfl rfl
  refine ⟨result, hrun, hfiles, rfl, rfl, ?_⟩
  rw [hresult, hgroup]
  rintro ⟨-, htext | hknown, -⟩
  · exact htext (by decide)
  · cases hknown

end RunSetup

end Consolidation
