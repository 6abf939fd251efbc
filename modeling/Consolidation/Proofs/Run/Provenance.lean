/-
# `Proofs.Run.Provenance` — where the recorded functions come from

Visits may differ in the way in which keywords are chosen.  A file whose digest is recorded is not looked into again, so
the functions recorded for it are those that the last visit found which extracted it (`LastExtracted`), by the policy of
that visit; their sources are those of the file as it is now.  This is kept from visit to visit (`traced_afterVisits`),
through the file of the checkpoint too: what is read back is empty, or differs from what was written in the errors only
(`Checkpoint.ofBytes_toBytes_cases`).

So every recorded function has the keywords that the policy of the last visit which extracted its file finds in its source
(`keywords_of_lastExtracted`).  They are those of the policy at hand if the visit extracted the file itself, or if all
visits have the same policy, but not in general (`keywords_of_earlier_policy`).

Nothing is asked of the texts by which files go; several files may go by the same.

## What is proved

For all visits and one more, `v`, whose digests tell the contents of files apart, every path and every list of functions
that is recorded for it once `v` has looked at the files: there are a visit `w`, the last one that extracted what goes by
the path, and the bytes of a file that goes by it in the tree of `v`, such that

    fs = (Extraction.ofBytes w.policy path bytes).functions

The keywords of these are what the policy of `w` finds in the sources of the definitions in these bytes.  If `v` extracts
the file, `w` is `v`; if all visits have the policy of `v`, so has `w`.

## Why the policy is that of an earlier visit

A file with the recorded digest is not opened, which is what makes a second run cheap.  The settings with which its
functions were made are not part of the digest, and they are not recorded beside it.  So a change of the settings shows in
a file when the file changes, not before (`keywords_of_earlier_policy` is such a run).

## How it goes

The record of a path is kept, dropped or made anew (`forall_recordOf_take`); it is kept if nothing else than before is
found there, and is made anew by something that goes by the path (`recordOf_take_cases`).  A visit that makes it anew is
the last one to extract the path, and for the others the last one stays the same (`Traced.loaded`).
-/
import Consolidation.Proofs.Run.IndexHistory
import Consolidation.Proofs.Run.Visits

namespace Consolidation

open Inventory FileFinding Checkpoint

/-! ## Keywords and sources -/

namespace Extraction

def definitionsIn (bytes : List UInt8) : List Python.Definition :=
  match Text.Utf8.decode? bytes with
  | none => []
  | some source =>
    match Python.treeOf source with
    | .ok tree => tree.definitions source
    | .error _ => Python.scanLines source

theorem keywords_recordsOf (policy : KeywordPolicy) (path : ExtractionPath)
    (filePath contentHash : String) (definitions : List Python.Definition) :
    (recordsOf policy path filePath contentHash definitions).map (·.contextKeywords) =
      definitions.map (fun d => policy.extract d.source) := by
  rw [recordsOf, List.map_map]
  rfl

theorem keywords_ofBytes (policy : KeywordPolicy) (filePath : String) (bytes : List UInt8) :
    (ofBytes policy filePath bytes).functions.map (·.contextKeywords) =
      (definitionsIn bytes).map (fun d => policy.extract d.source) := by
  cases hsource : Text.Utf8.decode? bytes with
  | none => simp [ofBytes, definitionsIn, hsource, failure]
  | some source =>
    cases htree : Python.treeOf source with
    | ok tree =>
      simp only [ofBytes, definitionsIn, hsource, htree]
      exact keywords_recordsOf ..
    | error fault =>
      simp only [ofBytes, definitionsIn, hsource, htree]
      exact keywords_recordsOf ..

end Extraction

/-! ## Records -/

namespace FileRecord

/-- Nothing but errors. -/
structure Bare (r : FileRecord) : Prop where
  processed : r.processed = false
  hash? : r.hash? = none
  functions? : r.functions? = none

/-- The functions of a file with some bytes, and their digest. -/
structure Holds (policy : KeywordPolicy) (path : String) (bytes : List UInt8) (r : FileRecord) :
    Prop where
  processed : r.processed = true
  hash? : r.hash? = some (Digest.sha256 bytes)
  functions? : r.functions? = some (Extraction.ofBytes policy path bytes).functions

theorem Bare.sound {r : FileRecord} (h : r.Bare) : r.Sound := fun _ => ⟨h.hash?, h.functions?⟩

theorem Holds.sound {policy : KeywordPolicy} {path : String} {bytes : List UInt8} {r : FileRecord}
    (h : r.Holds policy path bytes) : r.Sound := by
  intro hprocessed
  rw [h.processed] at hprocessed
  cases hprocessed

theorem bare_or_holds (policy : KeywordPolicy) (path : String)
    (content : Except Files.FileFault (List UInt8)) :
    (ofExtraction (extractionOf policy path content)).Bare ∨
      ∃ bytes, content = .ok bytes ∧
        (ofExtraction (extractionOf policy path content)).Holds policy path bytes := by
  unfold ofExtraction
  cases hfailed : (extractionOf policy path content).failed with
  | true => exact .inl ⟨rfl, rfl, rfl⟩
  | false =>
    cases content with
    | error fault => cases hfailed
    | ok bytes =>
      exact .inr ⟨bytes, rfl, rfl, Extraction.ofBytes_contentHash policy path bytes, rfl⟩

end FileRecord

namespace Inventory

variable {s : Checkpoint} {files : List (Files.Path × String)}

theorem recordOf_foldl_note_cases {found : List (String × FileFinding)}
    (hnames : ∀ f ∈ found, f.2.Names f.1) (path : String) (i : Inventory) :
    ((∀ f ∈ found, f.1 = path → f.2.extraction? path = none) ∧
      (found.foldl (fun i f => i.note f.1 f.2) i).checkpoint.recordOf path =
        i.checkpoint.recordOf path) ∨
    ∃ f ∈ found, f.1 = path ∧ ∃ e, f.2.extraction? path = some e ∧
      (found.foldl (fun i f => i.note f.1 f.2) i).checkpoint.recordOf path = .ofExtraction e := by
  induction found generalizing i with
  | nil => exact .inl ⟨nofun, rfl⟩
  | cons f found ih =>
    obtain ⟨hname, hnames⟩ := List.forall_mem_cons.1 hnames
    have hnote := recordOf_note i hname path
    rcases ih hnames (i.note f.1 f.2) with ⟨hnone, hrecord⟩ | ⟨g, hg, hpath, e, he, hrecord⟩
    · by_cases hpath : f.1 = path
      · subst hpath
        rw [if_pos rfl, noted] at hnote
        cases he : f.2.extraction? f.1 with
        | none =>
          rw [he] at hnote
          refine .inl ⟨List.forall_mem_cons.2 ⟨fun _ => he, hnone⟩, ?_⟩
          rw [List.foldl_cons, hrecord, hnote]
        | some e =>
          rw [he] at hnote
          exact .inr ⟨f, List.mem_cons_self, rfl, e, he, by rw [List.foldl_cons, hrecord, hnote]⟩
      · rw [if_neg hpath] at hnote
        refine .inl ⟨List.forall_mem_cons.2 ⟨fun h => absurd h hpath, hnone⟩, ?_⟩
        rw [List.foldl_cons, hrecord, hnote]
    · exact .inr ⟨g, List.mem_cons_of_mem _ hg, hpath, e, he, hrecord⟩

/-- What holds of all records, of an empty one and of what comes of extracting the files, holds of the records of a run: a
record is kept, dropped or made anew. -/
theorem forall_recordOf_take {P : FileRecord → Prop} {policy : KeywordPolicy} {tree : Files.Entry}
    (hs : ∀ path, P (s.recordOf path)) (hblank : P .blank)
    (hextracted : ∀ file ∈ files, P (.ofExtraction (extractionOf policy file.2 (tree.read file.1)))) (path : String) :
    P ((take policy tree s files).checkpoint.recordOf path) := by
  have hmem : ∀ f ∈ inOrder (look policy tree (s.purge (files.map (·.2))).1 files),
      f ∈ look policy tree (s.purge (files.map (·.2))).1 files := fun f hf => (inOrder_perm _).mem_iff.1 hf
  rw [take, ofFindings]
  rcases recordOf_foldl_note_cases (fun f hf => look_names (hmem f hf)) path (start s (files.map (·.2))) with
    ⟨-, hrecord⟩ | ⟨f, hf, rfl, e, he, hrecord⟩
  · rw [hrecord, start, purge, recordOf_foldl_forgetFile]
    split
    · exact hblank
    · exact hs path
  · obtain ⟨file, hfile, rfl⟩ := List.mem_map.1 (hmem f hf)
    rw [hrecord, extraction_of_extraction? he]
    exact hextracted file hfile

/-- Whatever goes by a path, its record is kept if nothing else than before is found there, and else is that of
something that goes by it. -/
theorem recordOf_take_cases (policy : KeywordPolicy) (tree : Files.Entry)
    (hs : ∀ path, (s.recordOf path).Sound) {path : String} (hpath : path ∈ files.map (·.2)) :
    ((∀ file ∈ files, file.2 = path → ofFile policy (s.purge (files.map (·.2))).1 path
        (tree.read file.1) = .unchanged) ∧
      (take policy tree s files).checkpoint.recordOf path = s.recordOf path) ∨
    ∃ file ∈ files, file.2 = path ∧
      ofFile policy (s.purge (files.map (·.2))).1 path (tree.read file.1) ≠ .unchanged ∧
      (take policy tree s files).checkpoint.recordOf path =
        .ofExtraction (extractionOf policy path (tree.read file.1)) := by
  have hmem : ∀ f, f ∈ inOrder (look policy tree (s.purge (files.map (·.2))).1 files) ↔
      f ∈ look policy tree (s.purge (files.map (·.2))).1 files := fun f => (inOrder_perm _).mem_iff
  have hstart : (start s (files.map (·.2))).checkpoint.recordOf path = s.recordOf path :=
    (recordOf_purge hs _ path).trans (if_pos hpath)
  rcases recordOf_foldl_note_cases (fun f hf => look_names ((hmem f).1 hf)) path
    (start s (files.map (·.2))) with ⟨hnone, hrecord⟩ | ⟨f, hf, hname, e, he, hrecord⟩
  · refine .inl ⟨?_, hrecord.trans hstart⟩
    intro file hfile hname
    have hfound := hnone _ ((hmem _).2 (List.mem_map_of_mem hfile)) hname
    rcases ofFile_eq policy (s.purge (files.map (·.2))).1 path (tree.read file.1) with
      ⟨-, -, -, heq⟩ | ⟨-, heq⟩
    · exact heq
    · dsimp only at hfound
      rw [hname, heq] at hfound
      cases hfound
  · obtain ⟨file, hfile, rfl⟩ := List.mem_map.1 ((hmem f).1 hf)
    dsimp only at hname he
    rw [hname] at he
    obtain rfl := extraction_of_extraction? he
    refine .inr ⟨file, hfile, hname, ?_, hrecord⟩
    intro heq
    rw [heq] at he
    cases he

end Inventory

/-! ## Reading back -/

/-- A checkpoint whose functions can be written is read back but for its errors, or it is lost as a
whole. -/
theorem Checkpoint.ofBytes_toBytes_cases {s : Checkpoint} (hversion : s.version = checkpointVersion)
    (hrecords : ∀ path fs, s.functions.find? path = some fs → ∀ f ∈ fs, f.Writable) :
    ofBytes s.toBytes = empty ∨ ∃ errors, ofBytes s.toBytes = { s with syntaxErrors := errors } := by
  cases herrors : Json.asList? errorOfJson? (Json.strs (s.syntaxErrors.map ParseError.display)) with
  | none =>
    have hnone : ofJson? s.toJson = none := by
      rw [ofJson?_toJson_eq, herrors]
      simp
    rw [ofBytes, toBytes, (plain_toJson s).ofBytes?_toPrettyBytes, Option.bind_some, hnone]
    exact .inl rfl
  | some errors =>
    -- the rest is read as in a checkpoint without errors
    have hplain : Writable { s with syntaxErrors := [] } := by
      refine ⟨hversion, fun e he => absurd he List.not_mem_nil, fun fs hfs => ?_⟩
      obtain ⟨path, hpath⟩ := Dict.mem_values_iff.1 hfs
      exact hrecords path fs hpath
    have hread := hplain.ofJson?_toJson
    have hsome : ofJson? s.toJson = some { s with syntaxErrors := errors } := by
      rw [ofJson?_toJson_eq] at hread ⊢
      obtain ⟨version, hv, hread⟩ := Option.bind_eq_some_iff.1 hread
      obtain ⟨processed, hp, hread⟩ := Option.bind_eq_some_iff.1 hread
      obtain ⟨layout, hl, hread⟩ := Option.bind_eq_some_iff.1 hread
      obtain ⟨none, -, hread⟩ := Option.bind_eq_some_iff.1 hread
      obtain ⟨hashes, hh, hread⟩ := Option.bind_eq_some_iff.1 hread
      obtain ⟨functions, hf, hread⟩ := Option.bind_eq_some_iff.1 hread
      obtain ⟨memberships, hm, hread⟩ := Option.bind_eq_some_iff.1 hread
      dsimp only at hv hp hl hh hf hm
      rw [hv, hp, hl, herrors, hh, hf, hm]
      have heq := Option.some.inj hread
      simp only [Checkpoint.mk.injEq] at heq
      obtain ⟨rfl, hprocessed, rfl, -, rfl, rfl, rfl⟩ := heq
      exact congrArg (fun processed => some { s with processed := processed, syntaxErrors := errors })
        hprocessed
    rw [ofBytes, toBytes, (plain_toJson s).ofBytes?_toPrettyBytes, Option.bind_some, hsome]
    exact .inr ⟨errors, by simp [hversion]⟩

/-! ## The last visit that extracted a file -/

/-- The functions that are recorded for a path after the files have been looked at. -/
def Visit.functionsAt (v : Visit) (s : Checkpoint) (path : String) : Option (List FunctionRecord) :=
  (v.loaded s).inventory.checkpoint.functions.find? path

/-- Is something else than before found by a visit at a path? -/
def Visit.Extracts (v : Visit) (s : Checkpoint) (path : String) : Prop :=
  ∃ file ∈ v.files, file.2 = path ∧
    ofFile v.policy (s.purge (v.files.map (·.2))).1 path (v.world.files.read file.1) ≠ .unchanged

/-- Is a visit the last one of some visits that extracted what goes by a path? -/
inductive LastExtracted (path : String) : List Visit → Visit → Prop where
  | now {visits : List Visit} {v : Visit} : v.Extracts (afterVisits visits) path →
      LastExtracted path (visits ++ [v]) v
  | earlier {visits : List Visit} {v w : Visit} : LastExtracted path visits w →
      ¬v.Extracts (afterVisits visits) path → LastExtracted path (visits ++ [v]) w

theorem LastExtracted.mem {path : String} {visits : List Visit} {w : Visit}
    (h : LastExtracted path visits w) : w ∈ visits := by
  induction h with
  | now _ => exact List.mem_append_right _ (List.mem_singleton_self _)
  | earlier _ _ ih => exact List.mem_append_left _ ih

theorem LastExtracted.eq_of_extracts {path : String} {visits : List Visit} {v w : Visit}
    (h : LastExtracted path (visits ++ [v]) w) (hv : v.Extracts (afterVisits visits) path) : w = v := by
  generalize heq : visits ++ [v] = all at h
  cases h with
  | now _ =>
    obtain ⟨-, hlast⟩ := List.append_inj' heq rfl
    exact (List.singleton_inj.1 hlast).symm
  | earlier _ hnot =>
    obtain ⟨rfl, hlast⟩ := List.append_inj' heq rfl
    obtain rfl := List.singleton_inj.1 hlast
    exact absurd hv hnot

/-- Is a file with these bytes in the last tree, at some path? -/
def InLastTree (visits : List Visit) (path : String) (bytes : List UInt8) : Prop :=
  ∃ file ∈ (lastTree visits).2, file.2 = path ∧ (lastTree visits).1.read file.1 = .ok bytes

/-- Does a checkpoint hold, of files in the last tree, the functions that the last visits found which extracted
them? -/
def Traced (visits : List Visit) (s : Checkpoint) : Prop :=
  ∀ path, (s.recordOf path).Bare ∨
    ∃ w bytes, LastExtracted path visits w ∧ InLastTree visits path bytes ∧
      (s.recordOf path).Holds w.policy path bytes

/-- Do digests tell the contents of files of visits apart? -/
def TellApart (visits : List Visit) : Prop :=
  ∀ v ∈ visits, ∀ w ∈ visits, DigestsTell v.world.files v.files w.world.files w.files

section Visits

variable {visits : List Visit} {v : Visit} {s : Checkpoint}

theorem TellApart.init (h : TellApart (visits ++ [v])) : TellApart visits := fun a ha b hb =>
  h a (List.mem_append_left _ ha) b (List.mem_append_left _ hb)

theorem TellApart.eq_of_digest (h : TellApart (visits ++ [v])) {path : String}
    {bytes bytes' : List UInt8} (hlast : InLastTree visits path bytes)
    {file : Files.Path × String} (hfile : file ∈ v.files) (hpath : file.2 = path)
    (hread : v.world.files.read file.1 = .ok bytes')
    (hdigest : Digest.sha256 bytes = Digest.sha256 bytes') : bytes = bytes' := by
  obtain ⟨file₀, hfile₀, hpath₀, hread₀⟩ := hlast
  cases hw : visits.getLast? with
  | some w =>
    rw [lastTree, hw] at hfile₀ hread₀
    exact h w (List.mem_append_left _ (List.mem_of_getLast? hw)) v (by simp) file₀ hfile₀ file hfile
      (hpath₀.trans hpath.symm) bytes bytes' hread₀ hread hdigest
  | none =>
    rw [lastTree, hw] at hfile₀
    cases hfile₀

theorem Traced.sound (h : Traced visits s) (path : String) : (s.recordOf path).Sound := by
  rcases h path with hbare | ⟨w, bytes, -, -, hholds⟩
  · exact hbare.sound
  · exact hholds.sound

theorem traced_empty : Traced [] .empty := fun _ => .inl ⟨rfl, rfl, rfl⟩

theorem Traced.of_errors (h : Traced visits s) (errors : List ParseError) :
    Traced visits { s with syntaxErrors := errors } := by
  intro path
  rcases h path with hbare | ⟨w, bytes, hlast, hin, hholds⟩
  · exact .inl ⟨hbare.processed, hbare.hash?, hbare.functions?⟩
  · exact .inr ⟨w, bytes, hlast, hin, hholds.processed, hholds.hash?, hholds.functions?⟩

/-- A visit keeps what it does not extract, and extracts the rest itself. -/
theorem Traced.loaded (h : Traced visits (afterVisits visits)) (htell : TellApart (visits ++ [v])) :
    Traced (visits ++ [v]) (v.loaded (afterVisits visits)).inventory.checkpoint := by
  intro path
  rw [Visit.inventory_loaded]
  by_cases hpath : path ∈ v.files.map (·.2)
  · rcases recordOf_take_cases v.policy v.world.files h.sound hpath with
      ⟨hunchanged, hrecord⟩ | ⟨file, hfile, hname, hchanged, hrecord⟩
    · rw [hrecord]
      rcases h path with hbare | ⟨w, bytes, hlast, hin, hholds⟩
      · exact .inl hbare
      · have hnot : ¬v.Extracts (afterVisits visits) path := by
          rintro ⟨file, hfile, hname, hchanged⟩
          exact hchanged (hunchanged file hfile hname)
        obtain ⟨file, hfile, hname⟩ := List.mem_map.1 hpath
        refine .inr ⟨w, bytes, .earlier hlast hnot, ?_, hholds⟩
        rcases ofFile_eq v.policy ((afterVisits visits).purge (v.files.map (·.2))).1 path
          (v.world.files.read file.1) with ⟨bytes', hread, hknown, -⟩ | ⟨-, hfound⟩
        · -- the file has the recorded digest, and with it the recorded bytes
          rw [← hname, knownHash?_purge hfile, knownHash?_eq, hname, hholds.processed,
            if_pos rfl, hholds.hash?] at hknown
          obtain rfl := htell.eq_of_digest hin hfile hname hread (Option.some.inj hknown)
          rw [InLastTree, lastTree_append]
          exact ⟨file, hfile, hname, hread⟩
        · rw [hunchanged file hfile hname] at hfound
          cases hfound
    · rw [hrecord]
      rcases FileRecord.bare_or_holds v.policy path (v.world.files.read file.1) with
        hbare | ⟨bytes, hread, hholds⟩
      · exact .inl hbare
      · refine .inr ⟨v, bytes, .now ⟨file, hfile, hname, hchanged⟩, ?_, hholds⟩
        rw [InLastTree, lastTree_append]
        exact ⟨file, hfile, hname, hread⟩
  · rw [recordOf_take_of_not_mem h.sound hpath]
    exact .inl ⟨rfl, rfl, rfl⟩

theorem Traced.writable (h : Traced visits s) (path : String) {fs : List FunctionRecord}
    (hfs : s.functions.find? path = some fs) : ∀ f ∈ fs, f.Writable := by
  rcases h path with hbare | ⟨w, bytes, -, -, hholds⟩
  · rw [show s.functions.find? path = none from hbare.functions?] at hfs
    cases hfs
  · rw [show s.functions.find? path = _ from hholds.functions?] at hfs
    cases hfs
    intro f hf
    rw [← extractionOf_ok] at hf
    exact writable_of_mem_extractionOf hf

theorem version_afterVisits (visits : List Visit) :
    (afterVisits visits).version = checkpointVersion := by
  induction visits using List.reverseRecOn with
  | nil => rfl
  | append_singleton visits v ih =>
    rw [afterVisits_append, ofBytes]
    split
    · split
      · next hversion => exact beq_iff_eq.1 hversion
      · rfl
    · rfl

/-- After some visits what the checkpoint holds is traced. -/
theorem traced_afterVisits (htell : TellApart visits) : Traced visits (afterVisits visits) := by
  induction visits using List.reverseRecOn with
  | nil => exact traced_empty
  | append_singleton visits v ih =>
    have hloaded := (ih htell.init).loaded htell
    have hresult : Traced (visits ++ [v]) (v.result (afterVisits visits)).checkpoint := by
      intro path
      exact hloaded path
    have hversion : (v.result (afterVisits visits)).checkpoint.version = checkpointVersion :=
      (version_take ..).trans (version_afterVisits visits)
    rw [afterVisits_append]
    rcases ofBytes_toBytes_cases hversion fun path _ => hresult.writable path with
      hempty | ⟨errors, herrors⟩
    · rw [hempty]
      exact fun _ => .inl ⟨rfl, rfl, rfl⟩
    · rw [herrors]
      exact hresult.of_errors errors

/-- **Keywords are those of the last extraction**: after the files have been looked at, the functions recorded
for a path are those of a file that goes by it, as it is now, with the keywords that the policy of the last visit
which extracted it finds in their sources.  This is the visit itself if it extracted the file, and its policy is the
one at hand if all visits have that. -/
theorem keywords_of_lastExtracted (htell : TellApart (visits ++ [v])) {path : String}
    {fs : List FunctionRecord} (hfs : v.functionsAt (afterVisits visits) path = some fs) :
    ∃ w bytes, LastExtracted path (visits ++ [v]) w ∧
      (∃ file ∈ v.files, file.2 = path ∧ v.world.files.read file.1 = .ok bytes) ∧
      fs = (Extraction.ofBytes w.policy path bytes).functions ∧
      fs.map (·.contextKeywords) =
        (Extraction.definitionsIn bytes).map (fun d => w.policy.extract d.source) ∧
      (v.Extracts (afterVisits visits) path → w = v) ∧
      ((∀ u ∈ visits, u.policy = v.policy) → w.policy = v.policy) := by
  rcases (traced_afterVisits htell.init).loaded htell path with hbare | ⟨w, bytes, hlast, hin, hholds⟩
  · cases hfs.symm.trans hbare.functions?
  · rw [InLastTree, lastTree_append] at hin
    cases hfs.symm.trans hholds.functions?
    refine ⟨w, bytes, hlast, hin, rfl, Extraction.keywords_ofBytes .., hlast.eq_of_extracts, ?_⟩
    intro hpolicy
    rcases List.mem_append.1 hlast.mem with hw | hw
    · exact hpolicy w hw
    · rw [List.mem_singleton.1 hw]

end Visits

/-! A file that is looked at twice, and in between keywords are turned off. -/

namespace Sample

def keyed (keywords : Bool) : Visit where
  σ := Unit
  setup := ⟨[], "", { Settings.default with
    clustering := { ClusterSettings.default with keywords := keywords } }, silent, none, false⟩
  files := [(["a.py"], "a.py")]
  world := ⟨.folder [("a.py", .file worded)], ()⟩

theorem keyed_plain (keywords : Bool) : (keyed keywords).Plain := .of_single rfl (by decide)

theorem afterVisits_keyed :
    afterVisits [keyed true] = ((keyed true).result .empty).checkpoint := by
  have hregular : Regular (keyed true).policy ([] ++ [keyed true]) := .singleton (keyed_plain true)
  exact hregular.afterVisits_concat_eq

theorem keyed_keywords :
    ((keyed false).functionsAt ((keyed true).result .empty).checkpoint "a.py").map
        (fun fs => fs.map (·.contextKeywords)) = some ["config"] ∧
      (Extraction.definitionsIn worded).map (fun d => (keyed false).policy.extract d.source) = [""] := by
  decide +kernel

theorem read_keyed {keywords : Bool} {file : Files.Path × String} (hfile : file ∈ (keyed keywords).files)
    {bytes : List UInt8} (hread : (keyed keywords).world.files.read file.1 = .ok bytes) :
    bytes = worded := by
  obtain rfl := List.mem_singleton.1 hfile
  exact (Except.ok.inj hread).symm

theorem keyed_tellApart : TellApart ([keyed true] ++ [keyed false]) := by
  intro v hv w hw file hfile file' hfile' _ bytes bytes' hread hread' _
  have hkeyed : ∀ v ∈ [keyed true] ++ [keyed false], ∃ keywords, v = keyed keywords := by simp
  obtain ⟨k, rfl⟩ := hkeyed v hv
  obtain ⟨k', rfl⟩ := hkeyed w hw
  exact (read_keyed hfile hread).trans (read_keyed hfile' hread').symm

end Sample

theorem keywords_of_lastExtracted_sample :
    TellApart ([Sample.keyed true] ++ [Sample.keyed false]) ∧
      ∃ fs w, (Sample.keyed false).functionsAt (afterVisits [Sample.keyed true]) "a.py" = some fs ∧
        LastExtracted "a.py" ([Sample.keyed true] ++ [Sample.keyed false]) w ∧
        fs = (Extraction.ofBytes w.policy "a.py" Sample.worded).functions := by
  have hkeywords := Sample.keyed_keywords.1
  rw [← Sample.afterVisits_keyed] at hkeywords
  obtain ⟨fs, hfs, -⟩ := Option.map_eq_some_iff.1 hkeywords
  obtain ⟨w, bytes, hlast, ⟨file, hfile, -, hread⟩, heq, -⟩ :=
    keywords_of_lastExtracted Sample.keyed_tellApart hfs
  obtain rfl := Sample.read_keyed hfile hread
  exact ⟨Sample.keyed_tellApart, fs, w, hfs, hlast, heq⟩

/-- Keywords are not always those of the policy at hand. -/
theorem keywords_of_earlier_policy :
    ¬∀ path fs, (Sample.keyed false).functionsAt (afterVisits [Sample.keyed true]) path = some fs →
      ∃ file ∈ (Sample.keyed false).files, file.2 = path ∧
        ∃ bytes, (Sample.keyed false).world.files.read file.1 = .ok bytes ∧
          fs.map (·.contextKeywords) = (Extraction.definitionsIn bytes).map
            (fun d => (Sample.keyed false).policy.extract d.source) := by
  intro hfresh
  obtain ⟨hkeywords, hnone⟩ := Sample.keyed_keywords
  rw [← Sample.afterVisits_keyed] at hkeywords
  obtain ⟨fs, hfs, hconfig⟩ := Option.map_eq_some_iff.1 hkeywords
  obtain ⟨file, hfile, -, bytes, hread, heq⟩ := hfresh "a.py" fs hfs
  obtain rfl := Sample.read_keyed hfile hread
  rw [hconfig, hnone] at heq
  exact absurd heq (by decide)

end Consolidation
