/-
# `Proofs.Run.Shadowing` — whether every scanned file has a record of its own

All that is recorded of a file stands under the text by which it goes.  If the scanned files go by different texts, each
file that is unchanged or was extracted has an entry with the functions of that very file, and there are no other entries
(`OwnEntries`).  They do exactly if no two of them have the same pieces, so a file shadows another only through a
backslash in a name (`own_entries_of_scan`).  Then one entry stands for both (`shadowed_one_entry`).

## What is proved

For every visit `v` to the files of a scan, behind any visits, if digests tell contents apart:

* the files go by different texts if and only if no two of them have the same pieces, a backslash being taken for the end
  of a piece;
* so they do if no name on the way to them has a backslash in it;
* if they do, each file that is unchanged or was extracted has an entry in the checkpoint with the functions of that very
  file, and there are no other entries.

The text of a path is meant to have slashes on every system, and so backslashes are replaced; on a system where a
backslash is a character like others, two files may thus become one.
-/
import Consolidation.Proofs.Files.RelativeText
import Consolidation.Proofs.Run.Provenance

namespace Consolidation

open Inventory FileFinding Checkpoint

/-- The file was known, or it was extracted without failure. -/
inductive FileFinding.Succeeded : FileFinding → Prop where
  | unchanged : Succeeded .unchanged
  | extracted {e : FileExtraction} : e.failed = false → Succeeded (.extracted e)

namespace Visit

def finding (v : Visit) (s : Checkpoint) (file : Files.Path × String) : FileFinding :=
  .ofFile v.policy (s.purge (v.files.map (·.2))).1 file.2 (v.world.files.read file.1)

/-- Does every file have an entry of its own functions, after some visits and one more? -/
structure OwnEntries (visits : List Visit) (v : Visit) : Prop where
  entry : ∀ file ∈ v.files, (v.finding (afterVisits visits) file).Succeeded →
    ∃ w bytes, LastExtracted file.2 (visits ++ [v]) w ∧ v.world.files.read file.1 = .ok bytes ∧
      v.functionsAt (afterVisits visits) file.2 =
        some (Extraction.ofBytes w.policy file.2 bytes).functions
  owner : ∀ path fs, v.functionsAt (afterVisits visits) path = some fs →
    ∃ file ∈ v.files, file.2 = path ∧ (v.finding (afterVisits visits) file).Succeeded ∧
      ∀ file' ∈ v.files, file'.2 = path → file' = file

variable {visits : List Visit} {v : Visit}

theorem processed_iff_succeeded {s : Checkpoint} (hnodup : (v.files.map (·.2)).Nodup)
    {file : Files.Path × String} (hfile : file ∈ v.files) :
    ((v.loaded s).inventory.checkpoint.recordOf file.2).processed = true ↔
      (v.finding s file).Succeeded := by
  have hrecord : (v.loaded s).inventory.checkpoint.recordOf file.2 =
      noted (s.recordOf file.2) file.2 (v.finding s file) := recordOf_take hnodup hfile
  rcases ofFile_eq v.policy (s.purge (v.files.map (·.2))).1 file.2 (v.world.files.read file.1) with
    ⟨bytes, -, hknown, hfound⟩ | ⟨-, hfound⟩
  · have hfinding : v.finding s file = .unchanged := hfound
    rw [knownHash?_purge hfile, knownHash?_eq] at hknown
    rw [hrecord, hfinding, noted_unchanged]
    refine ⟨fun _ => .unchanged, fun _ => ?_⟩
    by_contra hprocessed
    rw [if_neg hprocessed] at hknown
    cases hknown
  · have hfinding : v.finding s file =
        .extracted (extractionOf v.policy file.2 (v.world.files.read file.1)) := hfound
    rw [hrecord, hfinding, noted_extracted, FileRecord.ofExtraction]
    cases hfailed : (extractionOf v.policy file.2 (v.world.files.read file.1)).failed with
    | true =>
      refine ⟨fun h => absurd h Bool.false_ne_true, fun h => ?_⟩
      cases h with
      | extracted h =>
        rw [hfailed] at h
        cases h
    | false => exact ⟨fun _ => .extracted hfailed, fun _ => rfl⟩

theorem ownEntries_of_nodup (htell : TellApart (visits ++ [v]))
    (hnodup : (v.files.map (·.2)).Nodup) : v.OwnEntries visits := by
  have hbefore := traced_afterVisits htell.init
  have hafter := hbefore.loaded htell
  have hsame : ∀ file ∈ v.files, ∀ file' ∈ v.files, file'.2 = file.2 → file' = file :=
    fun file hfile file' hfile' hpath => List.inj_on_of_nodup_map hnodup hfile' hfile hpath
  constructor
  case entry =>
    intro file hfile hsucceeded
    have hprocessed := (processed_iff_succeeded hnodup hfile).2 hsucceeded
    rcases hafter file.2 with hbare | ⟨w, bytes, hlast, hin, hholds⟩
    · rw [hbare.processed] at hprocessed
      cases hprocessed
    · rw [InLastTree, lastTree_append] at hin
      obtain ⟨file', hfile', hpath, hread⟩ := hin
      obtain rfl := hsame file hfile file' hfile' hpath
      exact ⟨w, bytes, hlast, hread, hholds.functions?⟩
  case owner =>
    intro path fs hfs
    rcases hafter path with hbare | ⟨w, bytes, hlast, hin, hholds⟩
    · cases hfs.symm.trans hbare.functions?
    · rw [InLastTree, lastTree_append] at hin
      obtain ⟨file, hfile, rfl, hread⟩ := hin
      exact ⟨file, hfile, rfl, (processed_iff_succeeded hnodup hfile).1 hholds.processed,
        hsame file hfile⟩

/-- The files of a visit are those that a scan of a proper tree gives. -/
structure Scans (v : Visit) (o : Files.ScanOptions) : Prop where
  proper : v.world.files.Proper
  files_eq : v.files = v.setup.sourceFiles o v.world

theorem Scans.texts_eq {o : Files.ScanOptions} (h : v.Scans o) :
    v.files.map (·.2) =
      (Files.scan o v.setup.project v.world.files).map (Files.relativeText v.setup.project) := by
  rw [h.files_eq, RunSetup.sourceFiles, List.map_map]
  rfl

/-- **When no file shadows another**: the scanned files go by different texts exactly if no two of them have
the same pieces, which they have not if there is no backslash in their names; and then each file has an entry of its
own. -/
theorem own_entries_of_scan {o : Files.ScanOptions} (hscan : v.Scans o)
    (htell : TellApart (visits ++ [v])) :
    ((v.files.map (·.2)).Nodup ↔ Files.PiecesApart o v.setup.project v.world.files) ∧
      ((∀ path ∈ Files.scan o v.setup.project v.world.files,
        ∀ name ∈ path.drop v.setup.project.length, '\\' ∉ name.toList) →
          Files.PiecesApart o v.setup.project v.world.files) ∧
      (Files.PiecesApart o v.setup.project v.world.files → v.OwnEntries visits) := by
  have hiff : (v.files.map (·.2)).Nodup ↔ Files.PiecesApart o v.setup.project v.world.files := by
    rw [hscan.texts_eq]
    exact Files.nodup_relativeText_iff hscan.proper
  exact ⟨hiff, Files.piecesApart_of_no_backslash hscan.proper,
    fun h => ownEntries_of_nodup htell (hiff.2 h)⟩

end Visit

/-! Two files of different texts, and two of one text. -/

/-- Files that are given in the order of their texts are noted in this order. -/
theorem Inventory.take_eq_of_pairwise {files : List (Files.Path × String)}
    (h : (files.map (·.2)).Pairwise (· ≤ ·)) (policy : KeywordPolicy) (tree : Files.Entry)
    (s : Checkpoint) :
    take policy tree s files = (look policy tree (s.purge (files.map (·.2))).1 files).foldl
      (fun i f => i.note f.1 f.2) (start s (files.map (·.2))) := by
  rw [take, ofFindings, inOrder, List.mergeSort_of_pairwise]
  rw [← look_paths policy tree (s.purge (files.map (·.2))).1 files, List.pairwise_map] at h
  exact h.imp decide_eq_true

namespace Sample

def sources : Files.ScanOptions := (Files.ScanOptions.ofPatterns? ["*.py"] [] none).getD ⟨[], [], none⟩

def visitTo (entries : List (String × Files.Entry)) (files : List (Files.Path × String)) : Visit where
  σ := Unit
  setup := setupWith silent
  files := files
  world := ⟨.folder entries, ()⟩

/-- Two files in a folder, one with a backslash in its name. -/
def unshadowed : Visit := visitTo
  [("a", .folder [("b.py", .file header), ("b\\c.py", .file edited)])]
  [(["a", "b.py"], "a/b.py"), (["a", "b\\c.py"], "a/b/c.py")]

/-- A file in a folder, and one that has both names in its own. -/
def shadowed : Visit := visitTo
  [("a", .folder [("b.py", .file header)]), ("a\\b.py", .file edited)]
  [(["a", "b.py"], "a/b.py"), (["a\\b.py"], "a/b.py")]

theorem unshadowed_scans : unshadowed.Scans sources where
  proper := by
    simp only [unshadowed, visitTo, Files.Entry.Proper, Files.Entry.ProperAmong]
    decide
  files_eq := by
    have hscan : Files.scan sources unshadowed.setup.project unshadowed.world.files =
        [["a", "b.py"], ["a", "b\\c.py"]] :=
      Files.scan_eq_of_pairwise rfl rfl (by decide) (by decide)
    rw [RunSetup.sourceFiles, hscan]
    decide

theorem shadowed_scans : shadowed.Scans sources where
  proper := by
    simp only [shadowed, visitTo, Files.Entry.Proper, Files.Entry.ProperAmong]
    decide
  files_eq := by
    have hscan : Files.scan sources shadowed.setup.project shadowed.world.files =
        [["a", "b.py"], ["a\\b.py"]] :=
      Files.scan_eq_of_pairwise rfl rfl (by decide) (by decide)
    rw [RunSetup.sourceFiles, hscan]
    decide

theorem unshadowed_plain : unshadowed.Plain := by
  decide

theorem unshadowed_tellApart : TellApart ([] ++ [unshadowed]) :=
  (Regular.singleton unshadowed_plain).digests_tell

end Sample

theorem Visit.own_entries_of_scan_sample :
    Sample.unshadowed.Scans Sample.sources ∧ TellApart ([] ++ [Sample.unshadowed]) ∧
      Sample.unshadowed.OwnEntries [] := by
  obtain ⟨hiff, -, hown⟩ :=
    Visit.own_entries_of_scan Sample.unshadowed_scans Sample.unshadowed_tellApart
  exact ⟨Sample.unshadowed_scans, Sample.unshadowed_tellApart, hown (hiff.1 (by decide))⟩

/-- Two different files are scanned and loaded, and there is one entry. -/
theorem Visit.shadowed_one_entry :
    Sample.shadowed.Scans Sample.sources ∧
      (Sample.shadowed.loaded .empty).inventory.loaded = 2 ∧
      (Sample.shadowed.loaded .empty).inventory.checkpoint.functions.keys = ["a/b.py"] := by
  refine ⟨Sample.shadowed_scans, ?_⟩
  rw [Visit.inventory_loaded, take_eq_of_pairwise (by decide)]
  decide +kernel

end Consolidation
