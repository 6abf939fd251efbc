/-
# `Proofs.Run.Inventory` — what a run records of the files

File by file, an inventory keeps or replaces what was recorded of a scanned file and drops what was recorded of any other
(`recordOf_take`, `recordOf_take_of_not_mem`).  What was recorded is kept only where the digest of the file is the
recorded one.

A checkpoint `Mirrors` a tree when it records for each file what comes of extracting it, and nothing for other paths.  If
digests tell the contents of one tree from those of another, the inventory of the second over a checkpoint that mirrors
the first mirrors the second (`Mirrors.take`): this is the step from one run to the next.

## How it goes

* Before the files are looked at, everything is dropped that is recorded of other paths (`recordOf_purge`).
* A file is unchanged if its digest is the recorded one, and extracted otherwise (`ofFile_eq`).
* Each file is noted once, since the texts by which files go are different; so its record is what its own finding makes of
  it (`recordOf_foldl_note`).  This is the one induction over the files, and everything else is said record by record.
* What is read in the files is all that matters of a tree (`take_congr`).

Apart from mirrors there is a weaker property that an inventory leaves behind whatever was recorded before: the files are
`Settled`, that is, when they are looked at again only failures are met (`settled_take`).  Over settled files functions
and keys stay as they are and nothing is loaded (`Settled.sameFunctions_take`).  A mirror is settled (`Mirrors.settled`).

The last sections are about identifiers: all functions of a mirrored tree have different ones (`Mirrors.nodup_ids`), and
one that was recorded and is no longer is reported as gone (`mem_gone_take`).
-/
import Consolidation.Run.Inventory
import Consolidation.Proofs.Checkpoint.Records
import Consolidation.Proofs.Checkpoint.RoundTrip
import Consolidation.Proofs.Extraction

namespace Consolidation

open Checkpoint

/-! ## Dropped files -/

namespace Checkpoint

variable {s : Checkpoint}

theorem mem_knownPaths_iff {path : String} :
    path ∈ s.knownPaths ↔ s.processed.contains path = true ∨
      ∃ e ∈ s.syntaxErrors, e.filePath = path := by
  rw [knownPaths, TextSet.mem_toList_ofList, List.mem_append, TextSet.mem_toList_iff, List.mem_map]

theorem recordOf_of_not_mem_knownPaths {path : String} (hs : (s.recordOf path).Sound)
    (h : path ∉ s.knownPaths) : s.recordOf path = .blank := by
  rw [mem_knownPaths_iff, not_or] at h
  obtain ⟨hprocessed, herrors⟩ := h
  have hprocessed : s.processed.contains path = false := by simpa using hprocessed
  have herrors : s.syntaxErrors.filter (·.filePath == path) = [] := by
    rw [List.filter_eq_nil_iff]
    intro e he heq
    exact herrors ⟨e, he, by simpa using heq⟩
  obtain ⟨hhash, hfunctions⟩ := hs hprocessed
  simp only [recordOf] at hhash hfunctions ⊢
  rw [hprocessed, hhash, hfunctions, herrors, FileRecord.blank]

theorem recordOf_purge_of_mem {scanned : List String} {path : String} (h : path ∈ scanned) :
    (s.purge scanned).1.recordOf path = s.recordOf path := by
  rw [purge, recordOf_foldl_forgetFile]
  simp [h]

theorem recordOf_purge (hs : ∀ path, (s.recordOf path).Sound) (scanned : List String) (path : String) :
    (s.purge scanned).1.recordOf path = if path ∈ scanned then s.recordOf path else .blank := by
  by_cases hscanned : path ∈ scanned
  · rw [if_pos hscanned, recordOf_purge_of_mem hscanned]
  · rw [if_neg hscanned, purge, recordOf_foldl_forgetFile]
    by_cases hknown : path ∈ s.knownPaths
    · simp [hscanned, hknown]
    · simp [hknown, recordOf_of_not_mem_knownPaths (hs path) hknown]

end Checkpoint

/-! ## Findings -/

namespace FileFinding

def Names (path : String) (found : FileFinding) : Prop :=
  ∀ e, found.extraction? path = some e → ∀ e' ∈ e.errors, e'.filePath = path

/-- What comes of extracting a file with some content. -/
def extractionOf (policy : KeywordPolicy) (path : String)
    (content : Except Files.FileFault (List UInt8)) : FileExtraction :=
  Extraction.ofFile policy path (content.mapError Files.FileFault.message)

theorem extractionOf_ok (policy : KeywordPolicy) (path : String) (bytes : List UInt8) :
    extractionOf policy path (.ok bytes) = Extraction.ofBytes policy path bytes := rfl

theorem writable_of_mem_extractionOf {policy : KeywordPolicy} {path : String}
    {content : Except Files.FileFault (List UInt8)} {f : FunctionRecord}
    (hf : f ∈ (extractionOf policy path content).functions) : f.Writable := by
  obtain ⟨hline, hend, hcomplexity⟩ := Extraction.ofFile_numbers hf
  exact ⟨hline, hend, hcomplexity⟩

theorem nodup_ids_extractionOf {policy : KeywordPolicy} {path : String}
    {content : Except Files.FileFault (List UInt8)}
    (h : ∀ bytes, content = .ok bytes → Extraction.Identifiable bytes) :
    ((extractionOf policy path content).functions.map (·.id)).Nodup := by
  refine Extraction.nodup_ids_ofFile fun bytes hbytes => ?_
  cases content with
  | error fault => cases hbytes
  | ok bytes' =>
    cases hbytes
    exact h bytes rfl

theorem knownHash?_eq (s : Checkpoint) (path : String) :
    knownHash? s path = if (s.recordOf path).processed then (s.recordOf path).hash? else none := rfl

/-- A file is unchanged if its digest is recorded, and extracted otherwise. -/
theorem ofFile_eq (policy : KeywordPolicy) (s : Checkpoint) (path : String)
    (content : Except Files.FileFault (List UInt8)) :
    (∃ bytes, content = .ok bytes ∧ knownHash? s path = some (Digest.sha256 bytes) ∧
      ofFile policy s path content = unchanged) ∨
    ((∀ bytes, content = .ok bytes → knownHash? s path ≠ some (Digest.sha256 bytes)) ∧
      ofFile policy s path content = extracted (extractionOf policy path content)) := by
  cases content with
  | ok bytes =>
    by_cases h : knownHash? s path = some (Digest.sha256 bytes)
    · exact .inl ⟨bytes, rfl, h, by simp [ofFile, h]⟩
    · refine .inr ⟨?_, by simp [ofFile, h, extractionOf, Except.mapError]⟩
      rintro _ ⟨⟩
      exact h
  | error fault => exact .inr ⟨by rintro _ ⟨⟩, rfl⟩

theorem extraction_of_extraction? {policy : KeywordPolicy} {s : Checkpoint} {path : String}
    {content : Except Files.FileFault (List UInt8)} {e : FileExtraction}
    (h : (ofFile policy s path content).extraction? path = some e) :
    e = extractionOf policy path content := by
  rcases ofFile_eq policy s path content with ⟨-, -, -, hfound⟩ | ⟨-, hfound⟩
  · rw [hfound] at h
    cases h
  · rw [hfound] at h
    exact (Option.some.inj h).symm

theorem names_ofFile (policy : KeywordPolicy) (s : Checkpoint) (path : String)
    (content : Except Files.FileFault (List UInt8)) : (ofFile policy s path content).Names path := by
  intro e he e' he'
  rw [extraction_of_extraction? he] at he'
  exact (Extraction.ofFile_errors he').1

end FileFinding

namespace Inventory

open FileFinding

variable {policy : KeywordPolicy} {tree : Files.Entry} {s : Checkpoint}
  {files : List (Files.Path × String)}

theorem recordOf_record (i : Inventory) {path : String} {e : FileExtraction}
    (herrors : ∀ e' ∈ e.errors, e'.filePath = path) (path' : String) :
    (i.record path e).checkpoint.recordOf path' =
      if path = path' then .ofExtraction e else i.checkpoint.recordOf path' := by
  have hblank : (i.checkpoint.forgetFile path).recordOf path = .blank := by
    rw [recordOf_forgetFile, if_pos rfl]
  rw [record, recordOf_recordFile hblank herrors, recordOf_forgetFile]
  by_cases h : path = path' <;> simp [h]

/-- What is recorded of a file after a finding in it: the extraction, if there is one. -/
def noted (before : FileRecord) (path : String) (found : FileFinding) : FileRecord :=
  match found.extraction? path with
  | some e => .ofExtraction e
  | none => before

@[simp] theorem noted_unchanged (before : FileRecord) (path : String) :
    noted before path .unchanged = before := rfl

@[simp] theorem noted_extracted (before : FileRecord) (path : String) (e : FileExtraction) :
    noted before path (.extracted e) = .ofExtraction e := rfl

theorem recordOf_note (i : Inventory) {path : String} {found : FileFinding}
    (h : found.Names path) (path' : String) :
    (i.note path found).checkpoint.recordOf path' =
      if path = path' then noted (i.checkpoint.recordOf path') path found
      else i.checkpoint.recordOf path' := by
  unfold note noted
  cases he : found.extraction? path with
  | none =>
    dsimp only
    split <;> rfl
  | some e => exact recordOf_record i (h e he) path'

/-! ## All findings -/

section Fold

variable {found : List (String × FileFinding)}

theorem recordOf_foldl_note_of_not_mem (hnames : ∀ f ∈ found, f.2.Names f.1) {path : String}
    (h : path ∉ found.map (·.1)) (i : Inventory) :
    (found.foldl (fun i f => i.note f.1 f.2) i).checkpoint.recordOf path =
      i.checkpoint.recordOf path := by
  induction found generalizing i with
  | nil => rfl
  | cons f found ih =>
    rw [List.map_cons, List.mem_cons, not_or] at h
    rw [List.foldl_cons, ih (fun f hf => hnames f (List.mem_cons_of_mem _ hf)) h.2,
      recordOf_note i (hnames f List.mem_cons_self), if_neg (Ne.symm h.1)]

/-- Each file is noted once, so its record is what its own finding makes of it. -/
theorem recordOf_foldl_note (hnames : ∀ f ∈ found, f.2.Names f.1)
    (hnodup : (found.map (·.1)).Nodup) {path : String} {f : FileFinding} (h : (path, f) ∈ found)
    (i : Inventory) :
    (found.foldl (fun i f => i.note f.1 f.2) i).checkpoint.recordOf path =
      noted (i.checkpoint.recordOf path) path f := by
  induction found generalizing i with
  | nil => cases h
  | cons g found ih =>
    obtain ⟨hnotin, hnodup⟩ := List.nodup_cons.1 hnodup
    have hrest : ∀ f ∈ found, f.2.Names f.1 := fun f hf => hnames f (List.mem_cons_of_mem _ hf)
    rw [List.foldl_cons]
    rcases List.mem_cons.1 h with rfl | hmem
    · rw [recordOf_foldl_note_of_not_mem hrest hnotin, recordOf_note i (hnames _ List.mem_cons_self),
        if_pos rfl]
    · have hne : g.1 ≠ path := by
        intro heq
        exact hnotin (List.mem_map.2 ⟨(path, f), hmem, heq.symm⟩)
      rw [ih hrest hnodup hmem, recordOf_note i (hnames g List.mem_cons_self), if_neg hne]

end Fold

/-! ## The inventory of a tree -/

theorem look_paths (policy : KeywordPolicy) (tree : Files.Entry) (s : Checkpoint)
    (files : List (Files.Path × String)) : (look policy tree s files).map (·.1) = files.map (·.2) := by
  rw [look, List.map_map]
  rfl

theorem look_names {f : String × FileFinding} (h : f ∈ look policy tree s files) :
    f.2.Names f.1 := by
  obtain ⟨file, -, rfl⟩ := List.mem_map.1 h
  exact names_ofFile _ _ _ _

theorem take_congr {tree' : Files.Entry}
    (h : ∀ file ∈ files, tree.read file.1 = tree'.read file.1) :
    take policy tree s files = take policy tree' s files := by
  have hlook : ∀ s, look policy tree s files = look policy tree' s files := by
    intro s
    refine List.map_congr_left fun file hfile => ?_
    dsimp only
    rw [h file hfile]
  rw [take, hlook, take]

theorem inOrder_perm (found : List (String × FileFinding)) : (inOrder found).Perm found :=
  List.mergeSort_perm _ _

/-- Of a path that is not scanned nothing is recorded. -/
theorem recordOf_take_of_not_mem (hs : ∀ path, (s.recordOf path).Sound) {path : String}
    (h : path ∉ files.map (·.2)) : (take policy tree s files).checkpoint.recordOf path = .blank := by
  rw [take, ofFindings]
  rw [recordOf_foldl_note_of_not_mem]
  · exact (recordOf_purge hs _ path).trans (if_neg h)
  · intro f hf
    exact look_names ((inOrder_perm _).mem_iff.1 hf)
  · rw [((inOrder_perm _).map _).mem_iff, look_paths]
    exact h

/-- Of a scanned file its finding is recorded. -/
theorem recordOf_take (hnodup : (files.map (·.2)).Nodup) {file : Files.Path × String} (h : file ∈ files) :
    (take policy tree s files).checkpoint.recordOf file.2 =
      noted (s.recordOf file.2) file.2 (ofFile policy (s.purge (files.map (·.2))).1 file.2
        (tree.read file.1)) := by
  have hstart : (start s (files.map (·.2))).checkpoint.recordOf file.2 = s.recordOf file.2 :=
    recordOf_purge_of_mem (List.mem_map_of_mem h)
  rw [take, ofFindings, ← hstart]
  refine recordOf_foldl_note ?_ ?_ ?_ _
  · intro f hf
    exact look_names ((inOrder_perm _).mem_iff.1 hf)
  · rw [((inOrder_perm _).map _).nodup_iff, look_paths]
    exact hnodup
  · rw [(inOrder_perm _).mem_iff]
    exact List.mem_map_of_mem h

theorem knownHash?_purge {file : Files.Path × String} (h : file ∈ files) :
    knownHash? (s.purge (files.map (·.2))).1 file.2 = knownHash? s file.2 := by
  rw [knownHash?_eq, knownHash?_eq, recordOf_purge_of_mem (List.mem_map_of_mem h)]

theorem version_foldl_forgetFile (gone : List String) (s : Checkpoint) :
    (gone.foldl forgetFile s).version = s.version := by
  induction gone generalizing s with
  | nil => rfl
  | cons p gone ih => exact ih _

theorem version_record (i : Inventory) (path : String) (e : FileExtraction) :
    (i.record path e).checkpoint.version = i.checkpoint.version := by
  simp only [record, recordFile]
  split <;> rfl

theorem version_foldl_note (found : List (String × FileFinding)) (i : Inventory) :
    (found.foldl (fun i f => i.note f.1 f.2) i).checkpoint.version = i.checkpoint.version := by
  induction found generalizing i with
  | nil => rfl
  | cons f found ih =>
    rw [List.foldl_cons, ih, note]
    split
    · rfl
    · exact version_record _ _ _

theorem version_take (policy : KeywordPolicy) (tree : Files.Entry) (s : Checkpoint)
    (files : List (Files.Path × String)) : (take policy tree s files).checkpoint.version = s.version := by
  rw [take, ofFindings, version_foldl_note]
  exact version_foldl_forgetFile _ s

/-! ## Mirrors -/

/-- Does a checkpoint record what comes of extracting each file of a tree, and nothing else? -/
structure Mirrors (policy : KeywordPolicy) (tree : Files.Entry)
    (files : List (Files.Path × String)) (s : Checkpoint) : Prop where
  version_eq : s.version = checkpointVersion
  recorded : ∀ file ∈ files,
    s.recordOf file.2 = .ofExtraction (extractionOf policy file.2 (tree.read file.1))
  blank : ∀ path ∉ files.map (·.2), s.recordOf path = .blank

/-- Two contents of one file differ in their digests. -/
def DigestsTell (tree : Files.Entry) (files : List (Files.Path × String)) (tree' : Files.Entry)
    (files' : List (Files.Path × String)) : Prop :=
  ∀ file ∈ files, ∀ file' ∈ files', file.2 = file'.2 → ∀ bytes bytes',
    tree.read file.1 = .ok bytes → tree'.read file'.1 = .ok bytes' →
    Digest.sha256 bytes = Digest.sha256 bytes' → bytes = bytes'

theorem mirrors_empty (policy : KeywordPolicy) (tree : Files.Entry) : Mirrors policy tree [] .empty :=
  ⟨rfl, by simp, fun _ _ => rfl⟩

theorem Mirrors.of_read_eq (h : Mirrors policy tree files s) {tree' : Files.Entry}
    (htree : ∀ file ∈ files, tree.read file.1 = tree'.read file.1) : Mirrors policy tree' files s where
  version_eq := h.version_eq
  recorded := by
    intro file hfile
    rw [← htree file hfile]
    exact h.recorded file hfile
  blank := h.blank

theorem Mirrors.sound (h : Mirrors policy tree files s) (path : String) : (s.recordOf path).Sound := by
  by_cases hpath : path ∈ files.map (·.2)
  · obtain ⟨file, hfile, rfl⟩ := List.mem_map.1 hpath
    rw [h.recorded file hfile]
    exact FileRecord.sound_ofExtraction _
  · rw [h.blank path hpath]
    exact FileRecord.sound_blank

theorem Mirrors.knownHash?_eq_some (h : Mirrors policy tree files s) {path hash : String}
    (hhash : knownHash? s path = some hash) :
    ∃ file ∈ files, file.2 = path ∧ ∃ bytes, tree.read file.1 = .ok bytes ∧
      Digest.sha256 bytes = hash := by
  rw [knownHash?_eq] at hhash
  by_cases hpath : path ∈ files.map (·.2)
  · obtain ⟨file, hfile, rfl⟩ := List.mem_map.1 hpath
    rw [h.recorded file hfile] at hhash
    refine ⟨file, hfile, rfl, ?_⟩
    cases hread : tree.read file.1 with
    | error fault =>
      rw [hread] at hhash
      cases hhash
    | ok bytes =>
      rw [hread, extractionOf_ok, FileRecord.ofExtraction] at hhash
      split at hhash
      · cases hhash
      · rw [Extraction.ofBytes_contentHash] at hhash
        exact ⟨bytes, rfl, Option.some.inj hhash⟩
  · rw [h.blank path hpath] at hhash
    cases hhash

/-- The inventory of a tree over a checkpoint that mirrors another tree mirrors the tree. -/
theorem Mirrors.take (h : Mirrors policy tree files s) {tree' : Files.Entry}
    {files' : List (Files.Path × String)} (hnodup : (files'.map (·.2)).Nodup)
    (hdigests : DigestsTell tree files tree' files') :
    Mirrors policy tree' files' (take policy tree' s files').checkpoint where
  version_eq := (version_take policy tree' s files').trans h.version_eq
  recorded := by
    intro file hfile
    rw [recordOf_take hnodup hfile]
    rcases ofFile_eq policy (s.purge (files'.map (·.2))).1 file.2 (tree'.read file.1) with
      ⟨bytes', hread', hknown, hfound⟩ | ⟨-, hfound⟩
    · -- the recorded digest is that of the content in the other tree, so the contents are the same
      rw [knownHash?_purge hfile] at hknown
      obtain ⟨file₀, hfile₀, hpath, bytes, hread, hhash⟩ := h.knownHash?_eq_some hknown
      obtain rfl := hdigests file₀ hfile₀ file hfile hpath bytes bytes' hread hread' hhash
      rw [hfound, noted, FileFinding.extraction?, ← hpath, h.recorded file₀ hfile₀, hread, hpath,
        hread']
    · rw [hfound, noted, FileFinding.extraction?]
  blank := fun _ hpath => recordOf_take_of_not_mem h.sound hpath

theorem Mirrors.ofFile_unchanged (h : Mirrors policy tree files s) {file : Files.Path × String}
    (hfile : file ∈ files) {bytes : List UInt8} (hread : tree.read file.1 = .ok bytes)
    (htext : Text.Utf8.decode? bytes ≠ none) :
    ofFile policy (s.purge (files.map (·.2))).1 file.2 (tree.read file.1) = .unchanged := by
  have hfailed : (Extraction.ofBytes policy file.2 bytes).failed = false := by
    rw [Bool.eq_false_iff]
    exact fun hfailed => htext ((Extraction.ofBytes_failed_iff policy file.2 bytes).1 hfailed)
  have hknown : knownHash? s file.2 = some (Digest.sha256 bytes) := by
    rw [knownHash?_eq, h.recorded file hfile, hread, extractionOf_ok, FileRecord.ofExtraction,
      hfailed]
    exact Extraction.ofBytes_contentHash policy file.2 bytes
  rw [hread, FileFinding.ofFile, knownHash?_purge hfile, hknown, if_pos rfl]

/-- Over a mirror of the same tree texts are known, and all else fails again. -/
theorem Mirrors.failed_of_extraction? (h : Mirrors policy tree files s)
    {file : Files.Path × String} (hfile : file ∈ files) {e : FileExtraction}
    (he : (ofFile policy (s.purge (files.map (·.2))).1 file.2 (tree.read file.1)).extraction? file.2 =
      some e) : e.failed = true := by
  cases hread : tree.read file.1 with
  | error fault =>
    rw [hread] at he
    cases he
    rfl
  | ok bytes =>
    by_cases htext : Text.Utf8.decode? bytes = none
    · rcases ofFile_eq policy (s.purge (files.map (·.2))).1 file.2 (tree.read file.1) with
        ⟨-, -, -, hfound⟩ | ⟨-, hfound⟩
      · rw [hfound] at he
        cases he
      · rw [hfound, hread] at he
        cases he
        exact (Extraction.ofBytes_failed_iff policy file.2 bytes).2 htext
    · rw [h.ofFile_unchanged hfile hread htext] at he
      cases he

/-! ## Files that have been looked at -/

/-- Are the files of a tree recorded such that only failures are met when they are looked at again? -/
structure Settled (policy : KeywordPolicy) (tree : Files.Entry)
    (files : List (Files.Path × String)) (s : Checkpoint) : Prop where
  failed : ∀ file ∈ files, ∀ e,
    (ofFile policy s file.2 (tree.read file.1)).extraction? file.2 = some e →
    e.failed = true ∧ s.functions.find? file.2 = none
  blank : ∀ path ∉ files.map (·.2), s.recordOf path = .blank

/-- An inventory leaves the files settled: a text is known by its digest, and all else fails again. -/
theorem settled_take (hs : ∀ path, (s.recordOf path).Sound) (hnodup : (files.map (·.2)).Nodup) :
    Settled policy tree files (take policy tree s files).checkpoint where
  failed := by
    intro file hfile e he
    have hrecord : (take policy tree s files).checkpoint.recordOf file.2 = _ :=
      recordOf_take hnodup hfile
    have hunknown : ∀ bytes, tree.read file.1 = .ok bytes →
        knownHash? (take policy tree s files).checkpoint file.2 ≠ some (Digest.sha256 bytes) := by
      intro bytes hread hknown
      rw [hread, FileFinding.ofFile, if_pos hknown] at he
      cases he
    obtain rfl := extraction_of_extraction? he
    rcases ofFile_eq policy (s.purge (files.map (·.2))).1 file.2 (tree.read file.1) with
      ⟨bytes, hread, hknown, hfound⟩ | ⟨-, hfound⟩
    · -- the record was kept, and with it the digest
      rw [hfound, noted_unchanged] at hrecord
      rw [knownHash?_purge hfile, knownHash?_eq, ← hrecord] at hknown
      exact absurd hknown (hunknown bytes hread)
    · rw [hfound, noted_extracted, FileRecord.ofExtraction] at hrecord
      cases hfailed : (extractionOf policy file.2 (tree.read file.1)).failed with
      | true =>
        rw [hfailed] at hrecord
        exact ⟨rfl, congrArg FileRecord.functions? hrecord⟩
      | false =>
        rw [hfailed] at hrecord
        cases hread : tree.read file.1 with
        | error fault =>
          rw [hread] at hfailed
          cases hfailed
        | ok bytes =>
          refine absurd ?_ (hunknown bytes hread)
          rw [knownHash?_eq, hrecord, hread, extractionOf_ok]
          exact Extraction.ofBytes_contentHash policy file.2 bytes
  blank := fun _ hpath => recordOf_take_of_not_mem hs hpath

theorem purge_eq_self (h : ∀ path ∉ files.map (·.2), s.recordOf path = .blank) :
    s.purge (files.map (·.2)) = (s, []) := by
  have hmissing : s.knownPaths.filter (fun p => !(files.map (·.2)).contains p) = [] := by
    rw [List.filter_eq_nil_iff]
    intro path hpath hnot
    have hblank : s.recordOf path = .blank := h path (by simpa using hnot)
    obtain ⟨hprocessed, -, -, herrors⟩ := recordOf_eq_blank hblank
    rcases mem_knownPaths_iff.1 hpath with hknown | ⟨e, he, hknown⟩
    · rw [hprocessed] at hknown
      cases hknown
    · rw [List.filter_eq_nil_iff] at herrors
      exact herrors e he (by simpa using hknown)
  rw [purge, hmissing]
  rfl

/-- Are functions and keys the same in two inventories, and as many files loaded? -/
structure SameFunctions (i j : Inventory) : Prop where
  functions_eq : i.checkpoint.functions = j.checkpoint.functions
  memberships_eq : i.checkpoint.memberships = j.checkpoint.memberships
  stale_eq : i.stale = j.stale
  fresh_eq : i.fresh = j.fresh
  loaded_eq : i.loaded = j.loaded

theorem sameFunctions_record (i : Inventory) {path : String} {e : FileExtraction}
    (hfailed : e.failed = true) (hfunctions : e.functions = [])
    (hnone : i.checkpoint.functions.find? path = none) : SameFunctions (i.record path e) i := by
  have hids : i.checkpoint.idsOf path = [] := by simp [idsOf, hnone]
  have herase : i.checkpoint.functions.erase path = i.checkpoint.functions := by
    refine Dict.ext_find? fun path' => ?_
    rw [Dict.find?_erase]
    split
    · next h => rw [← h, hnone]
    · rfl
  constructor <;> simp [record, recordFile, forgetFile, hfailed, hfunctions, hids, herase]

theorem sameFunctions_foldl_note {found : List (String × FileFinding)} (i : Inventory)
    (h : ∀ f ∈ found, ∀ e, f.2.extraction? f.1 = some e →
      e.failed = true ∧ e.functions = [] ∧ i.checkpoint.functions.find? f.1 = none) :
    SameFunctions (found.foldl (fun i f => i.note f.1 f.2) i) i := by
  induction found generalizing i with
  | nil => exact ⟨rfl, rfl, rfl, rfl, rfl⟩
  | cons f found ih =>
    have hnote : SameFunctions (i.note f.1 f.2) i := by
      rw [note]
      split
      · exact ⟨rfl, rfl, rfl, rfl, rfl⟩
      · next e he =>
        obtain ⟨hfailed, hfunctions, hnone⟩ := h f List.mem_cons_self e he
        exact sameFunctions_record i hfailed hfunctions hnone
    have hrest := ih (i.note f.1 f.2) fun g hg e he => by
      rw [hnote.functions_eq]
      exact h g (List.mem_cons_of_mem _ hg) e he
    exact ⟨hrest.functions_eq.trans hnote.functions_eq, hrest.memberships_eq.trans hnote.memberships_eq,
      hrest.stale_eq.trans hnote.stale_eq, hrest.fresh_eq.trans hnote.fresh_eq,
      hrest.loaded_eq.trans hnote.loaded_eq⟩

/-- Over settled files functions and keys stay as they are, and nothing is loaded. -/
theorem Settled.sameFunctions_take (h : Settled policy tree files s) :
    SameFunctions (Inventory.take policy tree s files) ⟨s, [], Dict.empty, 0, 0, 0⟩ := by
  have hpurge := purge_eq_self h.blank
  have hstart : start s (files.map (·.2)) = ⟨s, [], Dict.empty, 0, 0, 0⟩ := by
    rw [start, hpurge]
  rw [Inventory.take, ofFindings, hstart, hpurge]
  refine sameFunctions_foldl_note _ fun f hf e he => ?_
  obtain ⟨file, hfile, rfl⟩ := List.mem_map.1 ((inOrder_perm _).mem_iff.1 hf)
  obtain ⟨hfailed, hnone⟩ := h.failed file hfile e he
  obtain rfl := extraction_of_extraction? he
  exact ⟨hfailed, Extraction.functions_of_failed hfailed, hnone⟩

theorem Mirrors.settled (h : Mirrors policy tree files s) : Settled policy tree files s where
  failed := by
    intro file hfile e he
    have hpurge := purge_eq_self h.blank
    have hfailed := h.failed_of_extraction? hfile (e := e) (by rw [hpurge]; exact he)
    have hrecorded := h.recorded file hfile
    rw [← extraction_of_extraction? he, FileRecord.ofExtraction, hfailed] at hrecorded
    exact ⟨hfailed, congrArg FileRecord.functions? hrecorded⟩
  blank := h.blank

/-- Over a mirror of the same tree functions and keys stay as they are, and nothing is loaded. -/
theorem Mirrors.sameFunctions_take (h : Mirrors policy tree files s) :
    SameFunctions (Inventory.take policy tree s files) ⟨s, [], Dict.empty, 0, 0, 0⟩ :=
  h.settled.sameFunctions_take

/-! What else a checkpoint that mirrors a tree is like. -/

theorem Mirrors.sameRecords (h : Mirrors policy tree files s) {tree' : Files.Entry} {t : Checkpoint}
    (h' : Mirrors policy tree' files t) (htree : ∀ file ∈ files, tree.read file.1 = tree'.read file.1) :
    s.SameRecords t := by
  intro path
  by_cases hpath : path ∈ files.map (·.2)
  · obtain ⟨file, hfile, rfl⟩ := List.mem_map.1 hpath
    rw [h.recorded file hfile, h'.recorded file hfile, htree file hfile]
  · rw [h.blank path hpath, h'.blank path hpath]

theorem Mirrors.functions_of_find? (h : Mirrors policy tree files s) {path : String}
    {fs : List FunctionRecord} (hfs : s.functions.find? path = some fs) :
    ∃ file ∈ files, file.2 = path ∧ fs = (extractionOf policy path (tree.read file.1)).functions := by
  have hrecord : (s.recordOf path).functions? = some fs := hfs
  by_cases hpath : path ∈ files.map (·.2)
  · obtain ⟨file, hfile, rfl⟩ := List.mem_map.1 hpath
    rw [h.recorded file hfile, FileRecord.ofExtraction] at hrecord
    split at hrecord
    · cases hrecord
    · exact ⟨file, hfile, rfl, (Option.some.inj hrecord).symm⟩
  · rw [h.blank path hpath] at hrecord
    cases hrecord

theorem Mirrors.mem_errors (h : Mirrors policy tree files s) {e : ParseError}
    (he : e ∈ s.syntaxErrors) :
    ∃ file ∈ files, file.2 = e.filePath ∧
      e ∈ (extractionOf policy e.filePath (tree.read file.1)).errors := by
  have hmem : e ∈ (s.recordOf e.filePath).errors := List.mem_filter.2 ⟨he, by simp⟩
  by_cases hpath : e.filePath ∈ files.map (·.2)
  · obtain ⟨file, hfile, heq⟩ := List.mem_map.1 hpath
    have hrecorded := h.recorded file hfile
    rw [heq] at hrecorded
    rw [hrecorded, FileRecord.ofExtraction] at hmem
    refine ⟨file, hfile, heq, ?_⟩
    split at hmem <;> exact hmem
  · rw [h.blank _ hpath] at hmem
    cases hmem

/-- A path that can be told from what follows it in texts. -/
def PlainPath (path : String) : Prop := path ≠ "" ∧ ':' ∉ path.toList

instance (path : String) : Decidable (PlainPath path) := inferInstanceAs (Decidable (_ ∧ _))

theorem Mirrors.writable (h : Mirrors policy tree files s)
    (hpaths : ∀ file ∈ files, PlainPath file.2) : s.Writable where
  version_eq := h.version_eq
  errors := by
    intro e he
    obtain ⟨file, hfile, hpath, hmem⟩ := h.mem_errors he
    obtain ⟨hne, hplain⟩ := hpath ▸ hpaths file hfile
    exact ParseError.Readable.survives ⟨hne, hplain, (Extraction.ofFile_errors hmem).2⟩
  records := by
    intro fs hfs f hf
    obtain ⟨path, hpath⟩ := Dict.mem_values_iff.1 hfs
    obtain ⟨file, -, -, rfl⟩ := h.functions_of_find? hpath
    exact writable_of_mem_extractionOf hf

theorem Mirrors.nodup_ids (h : Mirrors policy tree files s)
    (hpaths : ∀ file ∈ files, PlainPath file.2)
    (hids : ∀ file ∈ files, ∀ bytes, tree.read file.1 = .ok bytes → Extraction.Identifiable bytes) :
    (s.allFunctions.map (·.id)).Nodup := by
  refine nodup_ids_allFunctions ?_ ?_
  · intro path fs hfs
    obtain ⟨file, hfile, -, rfl⟩ := h.functions_of_find? hfs
    exact nodup_ids_extractionOf (hids file hfile)
  · intro path fs path' fs' hfs hfs' f hf f' hf' hid
    obtain ⟨file, hfile, rfl, rfl⟩ := h.functions_of_find? hfs
    obtain ⟨file', hfile', rfl, rfl⟩ := h.functions_of_find? hfs'
    obtain ⟨name, line, repeated, heq⟩ := Extraction.ofFile_ids hf
    obtain ⟨name', line', repeated', heq'⟩ := Extraction.ofFile_ids hf'
    rw [heq, heq'] at hid
    exact Extraction.filePath_of_functionId (hpaths file hfile).2 (hpaths file' hfile').2 hid

/-! ## Functions that are gone -/

section Gone

variable {i : Inventory} {id : String}

theorem mem_ids_iff {s : Checkpoint} :
    id ∈ s.allFunctions.map (·.id) ↔ ∃ path, id ∈ s.idsOf path := by
  simp only [List.mem_map, mem_allFunctions_iff]
  constructor
  · rintro ⟨f, ⟨path, fs, hfs, hf⟩, rfl⟩
    exact ⟨path, by rw [idsOf, hfs]; exact List.mem_map_of_mem hf⟩
  · rintro ⟨path, hid⟩
    unfold idsOf at hid
    cases hfs : s.functions.find? path with
    | none =>
      rw [hfs] at hid
      cases hid
    | some fs =>
      rw [hfs] at hid
      obtain ⟨f, hf, rfl⟩ := List.mem_map.1 hid
      exact ⟨f, ⟨path, fs, hfs, hf⟩, rfl⟩

theorem idsOf_record (i : Inventory) {path path' : String} (e : FileExtraction) (h : path ≠ path') :
    (i.record path e).checkpoint.idsOf path' = i.checkpoint.idsOf path' := by
  cases hfailed : e.failed <;> simp [record, recordFile, forgetFile, idsOf, hfailed, h]

theorem mem_ids_or_stale_note {path : String} {found : FileFinding}
    (h : id ∈ i.checkpoint.allFunctions.map (·.id) ∨ id ∈ i.stale) :
    id ∈ (i.note path found).checkpoint.allFunctions.map (·.id) ∨ id ∈ (i.note path found).stale := by
  unfold note
  split
  · exact h
  · next e _ =>
    rcases h with hid | hid
    · obtain ⟨path', hid⟩ := mem_ids_iff.1 hid
      by_cases hpath : path = path'
      · exact .inr (List.mem_append_right _ (hpath ▸ hid))
      · exact .inl (mem_ids_iff.2 ⟨path', by rw [idsOf_record i e hpath]; exact hid⟩)
    · exact .inr (List.mem_append_left _ hid)

theorem mem_ids_or_stale_foldl (found : List (String × FileFinding))
    (h : id ∈ i.checkpoint.allFunctions.map (·.id) ∨ id ∈ i.stale) :
    id ∈ (found.foldl (fun i f => i.note f.1 f.2) i).checkpoint.allFunctions.map (·.id) ∨
      id ∈ (found.foldl (fun i f => i.note f.1 f.2) i).stale := by
  induction found generalizing i with
  | nil => exact h
  | cons f found ih => exact ih (mem_ids_or_stale_note h)

theorem mem_ids_or_stale_start (h : id ∈ s.allFunctions.map (·.id)) (scanned : List String) :
    id ∈ (start s scanned).checkpoint.allFunctions.map (·.id) ∨ id ∈ (start s scanned).stale := by
  obtain ⟨path, hid⟩ := mem_ids_iff.1 h
  by_cases hmissing : path ∈ s.knownPaths.filter (fun p => !scanned.contains p)
  · exact .inr (List.mem_flatMap.2 ⟨path, hmissing, hid⟩)
  · have hrecord := recordOf_foldl_forgetFile (s.knownPaths.filter (fun p => !scanned.contains p)) s path
    rw [if_neg hmissing] at hrecord
    have hfunctions : (start s scanned).checkpoint.functions.find? path = s.functions.find? path :=
      congrArg FileRecord.functions? hrecord
    exact .inl (mem_ids_iff.2 ⟨path, by rw [idsOf, hfunctions]; exact hid⟩)

theorem mem_gone_take (h : id ∈ s.allFunctions.map (·.id))
    (hnot : id ∉ (Inventory.take policy tree s files).checkpoint.allFunctions.map (·.id)) :
    id ∈ (Inventory.take policy tree s files).gone := by
  have hboth : id ∈ (Inventory.take policy tree s files).checkpoint.allFunctions.map (·.id) ∨
      id ∈ (Inventory.take policy tree s files).stale := by
    rw [Inventory.take, ofFindings]
    exact mem_ids_or_stale_foldl _ (mem_ids_or_stale_start h _)
  exact List.mem_filter.2 ⟨hboth.resolve_left hnot, by simpa using hnot⟩

theorem not_mem_ids_of_mem_gone (h : id ∈ i.gone) : id ∉ i.checkpoint.allFunctions.map (·.id) := by
  simpa using (List.mem_filter.1 h).2

end Gone

end Inventory

end Consolidation
