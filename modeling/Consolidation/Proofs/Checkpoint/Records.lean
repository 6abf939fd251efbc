/-
# `Proofs.Checkpoint.Records` — a checkpoint, file by file

`Checkpoint.recordOf` is what a checkpoint records for one file: whether it is processed, its digest, its functions and
its errors.  Forgetting a file and recording one change that of the file alone (`recordOf_forgetFile`,
`recordOf_recordFile`).  Checkpoints with the same records differ only in the order of errors, their clusters apart
(`functions_eq`, `syntaxErrors_perm`).

A checkpoint has a set, two dictionaries and a list for what it records of files; `FileRecord` puts together what they
hold for one of them.  Clusters and keys are not part of a record: they are made of all files, and forgetting a file drops
the keys of its functions.

Functions are counted file by file, so all have different identifiers if those of each file have and no two files share
one (`nodup_ids_allFunctions`).
-/
import Mathlib.Data.List.Basic
import Mathlib.Data.List.Nodup
import Mathlib.Data.List.Perm.Basic
import Consolidation.Extraction
import Consolidation.Checkpoint.State
import Consolidation.Proofs.Collection.Dict

namespace Consolidation

/-- What a checkpoint records for one file. -/
structure FileRecord where
  processed : Bool
  hash? : Option String
  functions? : Option (List FunctionRecord)
  errors : List ParseError

namespace FileRecord

def blank : FileRecord := ⟨false, none, none, []⟩

/-- The record of an extraction; of one that failed only the errors are kept. -/
def ofExtraction (e : FileExtraction) : FileRecord :=
  if e.failed then ⟨false, none, none, e.errors⟩
  else ⟨true, e.contentHash, some e.functions, e.errors⟩

/-- Are there no digest and no functions of a file that is not processed? -/
def Sound (r : FileRecord) : Prop := r.processed = false → r.hash? = none ∧ r.functions? = none

theorem sound_blank : blank.Sound := fun _ => ⟨rfl, rfl⟩

theorem sound_ofExtraction (e : FileExtraction) : (ofExtraction e).Sound := by
  unfold ofExtraction
  split
  · exact fun _ => ⟨rfl, rfl⟩
  · rintro ⟨⟩

end FileRecord

namespace Checkpoint

/-- What is recorded for the file at a path. -/
def recordOf (s : Checkpoint) (path : String) : FileRecord where
  processed := s.processed.contains path
  hash? := s.fileHashes.find? path
  functions? := s.functions.find? path
  errors := s.syntaxErrors.filter (·.filePath == path)

variable {s : Checkpoint}

/-! ## Changes -/

theorem recordOf_forgetFile (s : Checkpoint) (gone path : String) :
    (s.forgetFile gone).recordOf path = if gone = path then .blank else s.recordOf path := by
  by_cases h : gone = path
  · subst h
    have herrors : (s.syntaxErrors.filter (·.filePath != gone)).filter (·.filePath == gone) = [] := by
      rw [List.filter_filter, List.filter_eq_nil_iff]
      simp
    simp [recordOf, forgetFile, FileRecord.blank, Dict.contains, herrors]
  · have herrors : (s.syntaxErrors.filter (·.filePath != gone)).filter (·.filePath == path) =
        s.syntaxErrors.filter (·.filePath == path) := by
      rw [List.filter_filter]
      refine List.filter_congr ?_
      intro e _
      by_cases he : e.filePath = path <;> simp [he, Ne.symm h]
    simp [recordOf, forgetFile, Dict.contains, herrors, h]

theorem recordOf_foldl_forgetFile (gone : List String) (s : Checkpoint) (path : String) :
    (gone.foldl forgetFile s).recordOf path =
      if path ∈ gone then .blank else s.recordOf path := by
  induction gone generalizing s with
  | nil => rfl
  | cons p gone ih =>
    rw [List.foldl_cons, ih, recordOf_forgetFile]
    by_cases hp : p = path
    · simp [hp]
    · by_cases hmem : path ∈ gone <;> simp [hmem, hp, Ne.symm hp]

theorem recordOf_eq_blank {path : String} (h : s.recordOf path = .blank) :
    s.processed.contains path = false ∧ s.fileHashes.find? path = none ∧
      s.functions.find? path = none ∧ s.syntaxErrors.filter (·.filePath == path) = [] := by
  simpa only [recordOf, FileRecord.blank, FileRecord.mk.injEq] using h

/-- An extraction is recorded for a file of which nothing has been recorded. -/
theorem recordOf_recordFile {path : String} {e : FileExtraction} (hblank : s.recordOf path = .blank)
    (herrors : ∀ e' ∈ e.errors, e'.filePath = path) (path' : String) :
    (s.recordFile path e.contentHash e.functions e.errors (!e.failed)).recordOf path' =
      if path = path' then .ofExtraction e else s.recordOf path' := by
  obtain ⟨hprocessed, hhash, hfunctions, hnone⟩ := recordOf_eq_blank hblank
  by_cases h : path = path'
  · subst h
    have hall : e.errors.filter (·.filePath == path) = e.errors := by
      rw [List.filter_eq_self]
      intro e' he'
      simp [herrors e' he']
    cases hfailed : e.failed with
    | true =>
      simp [recordOf, recordFile, FileRecord.ofExtraction, hfailed, hprocessed, hhash, hfunctions,
        hnone, hall]
    | false =>
      cases hcontent : e.contentHash <;>
        simp [recordOf, recordFile, FileRecord.ofExtraction, hfailed, hcontent, hhash, hnone, hall]
  · have hother : e.errors.filter (·.filePath == path') = [] := by
      rw [List.filter_eq_nil_iff]
      intro e' he'
      simp [herrors e' he', h]
    cases hfailed : e.failed with
    | true => simp [recordOf, recordFile, hother, h]
    | false =>
      cases hcontent : e.contentHash <;> simp [recordOf, recordFile, hother, h]

/-! ## Checkpoints with the same records -/

/-- Do two checkpoints record the same for every file? -/
def SameRecords (s t : Checkpoint) : Prop := ∀ path, s.recordOf path = t.recordOf path

variable {t : Checkpoint}

theorem SameRecords.processed_eq (h : s.SameRecords t) : s.processed = t.processed :=
  TextSet.ext_contains fun path => congrArg FileRecord.processed (h path)

theorem SameRecords.fileHashes_eq (h : s.SameRecords t) : s.fileHashes = t.fileHashes :=
  Dict.ext_find? fun path => congrArg FileRecord.hash? (h path)

theorem SameRecords.functions_eq (h : s.SameRecords t) : s.functions = t.functions :=
  Dict.ext_find? fun path => congrArg FileRecord.functions? (h path)

/-- The errors are the same, in another order. -/
theorem SameRecords.syntaxErrors_perm (h : s.SameRecords t) :
    s.syntaxErrors.Perm t.syntaxErrors := by
  refine List.perm_iff_count.2 fun e => ?_
  have hcount : ∀ errors : List ParseError,
      errors.count e = (errors.filter (·.filePath == e.filePath)).count e := by
    intro errors
    rw [List.count_filter]
    simp
  have herrors : s.syntaxErrors.filter (·.filePath == e.filePath) =
      t.syntaxErrors.filter (·.filePath == e.filePath) := congrArg FileRecord.errors (h e.filePath)
  rw [hcount s.syntaxErrors, herrors, ← hcount]

theorem SameRecords.allFunctions_eq (h : s.SameRecords t) : s.allFunctions = t.allFunctions := by
  rw [allFunctions, h.functions_eq, allFunctions]

theorem mem_allFunctions_iff {f : FunctionRecord} :
    f ∈ s.allFunctions ↔ ∃ path fs, s.functions.find? path = some fs ∧ f ∈ fs := by
  rw [allFunctions, List.mem_flatten]
  constructor
  · rintro ⟨fs, hfs, hf⟩
    obtain ⟨path, hpath⟩ := Dict.mem_values_iff.1 hfs
    exact ⟨path, fs, hpath, hf⟩
  · rintro ⟨path, fs, hpath, hf⟩
    exact ⟨fs, Dict.mem_values_iff.2 ⟨path, hpath⟩, hf⟩

/-- The identifiers of all functions are different, if those of each file are and no two files share one. -/
theorem nodup_ids_allFunctions
    (hfile : ∀ path fs, s.functions.find? path = some fs → (fs.map (·.id)).Nodup)
    (hfiles : ∀ path fs path' fs', s.functions.find? path = some fs →
      s.functions.find? path' = some fs' → ∀ f ∈ fs, ∀ f' ∈ fs', f.id = f'.id → path = path') :
    (s.allFunctions.map (·.id)).Nodup := by
  have hflat : s.allFunctions.map (·.id) = s.functions.entries.flatMap (fun e => e.2.map (·.id)) := by
    rw [allFunctions, Dict.values, List.map_flatten, List.flatMap, List.map_map]
    rfl
  rw [hflat, List.nodup_flatMap]
  constructor
  · rintro ⟨path, fs⟩ he
    exact hfile path fs (Dict.mem_entries_iff.1 he)
  · refine s.functions.sorted.imp_of_mem ?_
    rintro ⟨path, fs⟩ ⟨path', fs'⟩ he he' hlt id hid hid'
    obtain ⟨f, hf, rfl⟩ := List.mem_map.1 hid
    obtain ⟨f', hf', heq⟩ := List.mem_map.1 hid'
    have hpath := hfiles path fs path' fs' (Dict.mem_entries_iff.1 he) (Dict.mem_entries_iff.1 he')
      f hf f' hf' heq.symm
    exact String.lt_irrefl _ (hpath ▸ hlt)

end Checkpoint

end Consolidation
