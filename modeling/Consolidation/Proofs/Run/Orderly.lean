/-
# `Proofs.Run.Orderly` — what every checkpoint is like that runs leave

Whatever trees runs have looked at and wherever they were stopped, the checkpoint that they leave is `Orderly`: its
functions name their files, what it holds can be written, and no key is remembered of a function that is not recorded.
Each change that a run makes keeps this (`Orderly.forgetFile`, `Inventory.Orderly.record`, `Orderly.setClusters`); unlike
a mirror it asks nothing of the digests of files.

No key is remembered of what is extracted in a run (`Inventory.Orderly.fresh_unkeyed`): an identifier names its file, and
with a file the keys of all functions go that can come back under its path.

What is recorded of a file was extracted from it at some time, so all lists of functions in a checkpoint are of a kind of
which extractions are (`each_take`).  In particular no identifier is recorded twice where files are identifiable
(`nodup_ids_of_each`).

| part | what it says of a checkpoint |
| :-- | :-- |
| `FunctionsOf` | the identifiers of the functions of a file start with its path |
| written | the version is the current one, the errors survive, the numbers are small enough |
| keys | a key belongs to a recorded function |

The last part is what a run that was stopped between its two writings must not break: the records of the files are written
with the keys of before, and the keys of a file that was forgotten went with it
(`Orderly.find?_memberships_forgetFile_eq_none`).  That an identifier belongs to one file (`FunctionsOf.path_eq`) is why
they can be told from others.
-/
import Consolidation.Proofs.Checkpoint.Calls
import Consolidation.Proofs.Run.Inventory

namespace Consolidation

open Inventory FileFinding Checkpoint

/-- Functions whose identifiers start with the path of a file. -/
structure FunctionsOf (path : String) (functions : List FunctionRecord) : Prop where
  plain : PlainPath path
  ids : ∀ f ∈ functions, ∃ name line repeated, f.id = Extraction.functionId path name line repeated

theorem functionsOf_extractionOf {path : String} (hpath : PlainPath path) (policy : KeywordPolicy)
    (content : Except Files.FileFault (List UInt8)) :
    FunctionsOf path (extractionOf policy path content).functions where
  plain := hpath
  ids := fun _ hf => Extraction.ofFile_ids hf

theorem FunctionsOf.path_eq {path path' : String} {functions functions' : List FunctionRecord}
    (h : FunctionsOf path functions) (h' : FunctionsOf path' functions') {id : String}
    (hid : id ∈ functions.map (·.id)) (hid' : id ∈ functions'.map (·.id)) : path = path' := by
  obtain ⟨f, hf, rfl⟩ := List.mem_map.1 hid
  obtain ⟨f', hf', heq⟩ := List.mem_map.1 hid'
  obtain ⟨name, line, repeated, hname⟩ := h.ids f hf
  obtain ⟨name', line', repeated', hname'⟩ := h'.ids f' hf'
  rw [hname, hname'] at heq
  exact (Extraction.filePath_of_functionId h'.plain.2 h.plain.2 heq).symm

namespace Checkpoint

/-- A checkpoint as runs leave it. -/
structure Orderly (s : Checkpoint) : Prop where
  made : s.Made
  plain : ∀ e ∈ s.syntaxErrors, ':' ∉ e.filePath.toList
  sound : ∀ path, (s.recordOf path).Sound
  functions : ∀ path fs, s.functions.find? path = some fs → FunctionsOf path fs
  /-- Only functions that are recorded have keys. -/
  keys : ∀ id, (s.memberships.find? id).isSome → ∃ path, id ∈ s.idsOf path

variable {s : Checkpoint}

theorem orderly_empty : empty.Orderly where
  made := made_empty
  plain := nofun
  sound := fun _ => FileRecord.sound_blank
  functions := nofun
  keys := nofun

theorem Orderly.writable (h : s.Orderly) : s.Writable := by
  refine h.made.writable fun e he => ParseError.Survives.separable ?_
  exact ParseError.Readable.survives ⟨h.made.path_ne e he, h.plain e he, h.made.line_le e he⟩

/-- Such a checkpoint is read back as it was written. -/
theorem Orderly.ofBytes_toBytes (h : s.Orderly) : ofBytes s.toBytes = s := h.writable.ofBytes_toBytes

/-! ## Changes -/

theorem find?_memberships_forgetFile (s : Checkpoint) (path id : String) :
    (s.forgetFile path).memberships.find? id =
      if id ∈ s.idsOf path then none else s.memberships.find? id :=
  Dict.find?_foldl_erase ..

theorem idsOf_forgetFile (s : Checkpoint) {path path' : String} (h : path ≠ path') :
    (s.forgetFile path).idsOf path' = s.idsOf path' := by
  simp [idsOf, forgetFile, h]

theorem Orderly.forgetFile (h : s.Orderly) (path : String) : (s.forgetFile path).Orderly where
  made := h.made.forgetFile path
  plain := fun e he => h.plain e (List.mem_of_mem_filter he)
  sound := by
    intro path'
    rw [recordOf_forgetFile]
    split
    · exact FileRecord.sound_blank
    · exact h.sound path'
  functions := by
    intro path' fs hfs
    rw [Checkpoint.forgetFile, Dict.find?_erase] at hfs
    split at hfs
    · cases hfs
    · exact h.functions path' fs hfs
  keys := by
    intro id hid
    rw [find?_memberships_forgetFile] at hid
    split at hid
    · cases hid
    · next hnot =>
      obtain ⟨path', hmem⟩ := h.keys id hid
      have hne : path ≠ path' := by
        rintro rfl
        exact hnot hmem
      exact ⟨path', by rw [idsOf_forgetFile s hne]; exact hmem⟩

theorem Orderly.foldl_forgetFile (h : s.Orderly) (gone : List String) :
    (gone.foldl Checkpoint.forgetFile s).Orderly := by
  induction gone generalizing s with
  | nil => exact h
  | cons path gone ih => exact ih (h.forgetFile path)

theorem memberships_recordFile (s : Checkpoint) (path : String) (contentHash : Option String)
    (functions : List FunctionRecord) (errors : List ParseError) (processed : Bool) :
    (s.recordFile path contentHash functions errors processed).memberships = s.memberships := by
  unfold recordFile
  dsimp only
  split <;> rfl

theorem syntaxErrors_recordFile (s : Checkpoint) (path : String) (contentHash : Option String)
    (functions : List FunctionRecord) (errors : List ParseError) (processed : Bool) :
    (s.recordFile path contentHash functions errors processed).syntaxErrors =
      s.syntaxErrors ++ errors := by
  unfold recordFile
  dsimp only
  split <;> rfl

theorem find?_functions_recordFile {path : String} {e : FileExtraction}
    (hblank : s.recordOf path = .blank) (hpath : ∀ e' ∈ e.errors, e'.filePath = path) (path' : String) :
    (s.recordFile path e.contentHash e.functions e.errors (!e.failed)).functions.find? path' =
      if path = path' then (FileRecord.ofExtraction e).functions? else s.functions.find? path' := by
  refine (congrArg FileRecord.functions? (recordOf_recordFile hblank hpath path')).trans ?_
  split <;> rfl

theorem Orderly.recordFile (h : s.Orderly) {path : String} (hblank : s.recordOf path = .blank)
    {e : FileExtraction} (hfits : (Call.recordFile path e.contentHash e.functions e.errors
      (!e.failed)).Fits) (hfunctions : FunctionsOf path e.functions) :
    (s.recordFile path e.contentHash e.functions e.errors (!e.failed)).Orderly := by
  have hpath : ∀ e' ∈ e.errors, e'.filePath = path := fun e' he' => (hfits.2.2 e' he').1
  have hrecord := recordOf_recordFile hblank hpath
  constructor
  case made => exact h.made.recordFile hfits
  case plain =>
    intro e' he'
    rw [syntaxErrors_recordFile, List.mem_append] at he'
    rcases he' with he' | he'
    · exact h.plain e' he'
    · exact hpath e' he' ▸ hfunctions.plain.2
  case sound =>
    intro path'
    rw [hrecord]
    split
    · exact FileRecord.sound_ofExtraction e
    · exact h.sound path'
  case functions =>
    intro path' fs hfs
    rw [find?_functions_recordFile hblank hpath] at hfs
    split at hfs
    · next hpath' =>
      subst hpath'
      unfold FileRecord.ofExtraction at hfs
      split at hfs
      · cases hfs
      · cases hfs
        exact hfunctions
    · exact h.functions path' fs hfs
  case keys =>
    intro id hid
    rw [memberships_recordFile] at hid
    obtain ⟨path', hmem⟩ := h.keys id hid
    have hne : path ≠ path' := by
      rintro rfl
      rw [idsOf, (recordOf_eq_blank hblank).2.2.1] at hmem
      cases hmem
    refine ⟨path', ?_⟩
    rw [idsOf, find?_functions_recordFile hblank hpath, if_neg hne]
    exact hmem

/-- Clusters of the recorded functions. -/
theorem Orderly.setClusters (h : s.Orderly) {c : Clustering}
    (hc : ∀ id, (c.memberships.find? id).isSome → id ∈ s.allFunctions.map (·.id)) :
    (s.setClusters c).Orderly where
  made := ⟨h.made.version_eq, h.made.path_ne, h.made.line_le, h.made.records⟩
  plain := h.plain
  sound := h.sound
  functions := h.functions
  keys := fun id hid => mem_ids_iff.1 (hc id hid)

/-- Forgetting a file drops the keys of all functions that can be found in it. -/
theorem Orderly.find?_memberships_forgetFile_eq_none (h : s.Orderly) {path : String}
    {functions : List FunctionRecord} (hfunctions : FunctionsOf path functions) {id : String}
    (hid : id ∈ functions.map (·.id)) : (s.forgetFile path).memberships.find? id = none := by
  rw [find?_memberships_forgetFile]
  split
  · rfl
  · next hnot =>
    rw [← Option.not_isSome_iff_eq_none]
    intro hsome
    obtain ⟨path', hmem⟩ := h.keys id hsome
    unfold idsOf at hmem
    cases hfs : s.functions.find? path' with
    | none =>
      rw [hfs] at hmem
      cases hmem
    | some fs =>
      rw [hfs, Option.getD_some] at hmem
      obtain rfl := hfunctions.path_eq (h.functions path' fs hfs) hid hmem
      exact hnot (by rw [idsOf, hfs, Option.getD_some]; exact hmem)

end Checkpoint

/-! ## Inventories -/

namespace Inventory

/-- An inventory over such a checkpoint. -/
structure Orderly (i : Inventory) : Prop where
  checkpoint : i.checkpoint.Orderly
  /-- No key is remembered of what was extracted. -/
  fresh_unkeyed : ∀ id, i.fresh.contains id = true → i.checkpoint.memberships.find? id = none

variable {s : Checkpoint} {i : Inventory}

theorem orderly_start (h : s.Orderly) (scanned : List String) : (start s scanned).Orderly where
  checkpoint := h.foldl_forgetFile _
  fresh_unkeyed := nofun

/-- What an extraction finds in a file is recorded. -/
theorem Orderly.record (h : i.Orderly) {path : String} (hpath : PlainPath path)
    (policy : KeywordPolicy) (content : Except Files.FileFault (List UInt8)) :
    (i.record path (extractionOf policy path content)).Orderly where
  checkpoint := by
    have hblank : (i.checkpoint.forgetFile path).recordOf path = .blank := by
      rw [recordOf_forgetFile, if_pos rfl]
    exact (h.checkpoint.forgetFile path).recordFile hblank
      ⟨hpath.1, fun _ => writable_of_mem_extractionOf, fun _ => Extraction.ofFile_errors⟩
      (functionsOf_extractionOf hpath policy content)
  fresh_unkeyed := by
    intro id hid
    rw [Inventory.record, memberships_recordFile]
    rw [Inventory.record, TextSet.contains_foldl_insert] at hid
    rcases hid with hid | hid
    · exact h.checkpoint.find?_memberships_forgetFile_eq_none
        (functionsOf_extractionOf hpath policy content) hid
    · rw [find?_memberships_forgetFile]
      split
      · rfl
      · exact h.fresh_unkeyed id hid

theorem Orderly.note (h : i.Orderly) {path : String} (hpath : PlainPath path) (policy : KeywordPolicy)
    (s : Checkpoint) (content : Except Files.FileFault (List UInt8)) :
    (i.note path (ofFile policy s path content)).Orderly := by
  unfold Inventory.note
  split
  · exact ⟨h.checkpoint, h.fresh_unkeyed⟩
  · next e he =>
    rw [extraction_of_extraction? he]
    exact h.record hpath policy content

theorem orderly_take (h : s.Orderly) (policy : KeywordPolicy) (tree : Files.Entry)
    {files : List (Files.Path × String)} (hpaths : ∀ file ∈ files, PlainPath file.2) :
    (take policy tree s files).Orderly := by
  have hnotes : ∀ found : List (String × FileFinding),
      (∀ f ∈ found, f ∈ look policy tree (s.purge (files.map (·.2))).1 files) →
      ∀ i : Inventory, i.Orderly → (found.foldl (fun i f => i.note f.1 f.2) i).Orderly := by
    intro found hfound
    induction found with
    | nil => exact fun _ hi => hi
    | cons f found ih =>
      intro i hi
      obtain ⟨file, hfile, rfl⟩ := List.mem_map.1 (hfound f List.mem_cons_self)
      exact ih (fun f hf => hfound f (List.mem_cons_of_mem _ hf)) _
        (hi.note (hpaths file hfile) policy _ _)
  exact hnotes _ (fun f hf => (inOrder_perm _).mem_iff.1 hf) _ (orderly_start h _)

end Inventory

/-! ## What is recorded of each file -/

namespace Checkpoint

/-- Is what is recorded of each file of some kind? -/
def Each (P : List FunctionRecord → Prop) (s : Checkpoint) : Prop :=
  ∀ path fs, s.functions.find? path = some fs → P fs

variable {P : List FunctionRecord → Prop} {s : Checkpoint}

theorem each_empty : empty.Each P := nofun

theorem Each.forgetFile (h : s.Each P) (path : String) : (s.forgetFile path).Each P := by
  intro path' fs hfs
  rw [Checkpoint.forgetFile, Dict.find?_erase] at hfs
  split at hfs
  · cases hfs
  · exact h path' fs hfs

theorem Each.foldl_forgetFile (h : s.Each P) (gone : List String) :
    (gone.foldl Checkpoint.forgetFile s).Each P := by
  induction gone generalizing s with
  | nil => exact h
  | cons path gone ih => exact ih (h.forgetFile path)

theorem Each.recordFile (h : s.Each P) {functions : List FunctionRecord} (hfunctions : P functions)
    (path : String) (contentHash : Option String) (errors : List ParseError) (processed : Bool) :
    (s.recordFile path contentHash functions errors processed).Each P := by
  intro path' fs hfs
  unfold Checkpoint.recordFile at hfs
  dsimp only at hfs
  split at hfs
  · exact h path' fs hfs
  · rw [Dict.find?_insert] at hfs
    split at hfs
    · cases hfs
      exact hfunctions
    · exact h path' fs hfs

/-- An identifier is recorded once, if no file has it twice. -/
theorem Orderly.nodup_ids_of_each (h : s.Orderly) (heach : s.Each fun fs => (fs.map (·.id)).Nodup) :
    (s.allFunctions.map (·.id)).Nodup := by
  refine nodup_ids_allFunctions heach ?_
  intro path fs path' fs' hfs hfs' f hf f' hf' hid
  exact (h.functions path fs hfs).path_eq (h.functions path' fs' hfs') (List.mem_map_of_mem hf)
    (hid ▸ List.mem_map_of_mem hf')

end Checkpoint

namespace Inventory

variable {P : List FunctionRecord → Prop} {s : Checkpoint} {i : Inventory}

theorem each_note (h : i.checkpoint.Each P) (policy : KeywordPolicy) (s : Checkpoint) {path : String}
    {content : Except Files.FileFault (List UInt8)}
    (hfunctions : P (extractionOf policy path content).functions) :
    (i.note path (ofFile policy s path content)).checkpoint.Each P := by
  unfold Inventory.note
  split
  · exact h
  · next e he =>
    rw [extraction_of_extraction? he]
    exact (h.forgetFile path).recordFile hfunctions path _ _ _

/-- What is recorded after files have been looked at was recorded before, or extracted from one of them. -/
theorem each_take (h : s.Each P) {policy : KeywordPolicy} {tree : Files.Entry}
    {files : List (Files.Path × String)}
    (hfiles : ∀ file ∈ files, P (extractionOf policy file.2 (tree.read file.1)).functions) :
    (take policy tree s files).checkpoint.Each P := by
  have hnotes : ∀ found : List (String × FileFinding),
      (∀ f ∈ found, f ∈ look policy tree (s.purge (files.map (·.2))).1 files) →
      ∀ i : Inventory, i.checkpoint.Each P →
        (found.foldl (fun i f => i.note f.1 f.2) i).checkpoint.Each P := by
    intro found hfound
    induction found with
    | nil => exact fun _ hi => hi
    | cons f found ih =>
      intro i hi
      obtain ⟨file, hfile, rfl⟩ := List.mem_map.1 (hfound f List.mem_cons_self)
      exact ih (fun f hf => hfound f (List.mem_cons_of_mem _ hf)) _
        (each_note hi policy _ (hfiles file hfile))
  exact hnotes _ (fun f hf => (inOrder_perm _).mem_iff.1 hf) _ (h.foldl_forgetFile _)

end Inventory

end Consolidation
