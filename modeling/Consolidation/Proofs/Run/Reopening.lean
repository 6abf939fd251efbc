/-
# `Proofs.Run.Reopening` — stopped runs whose index is opened again from its file

The run that follows a stopped one opens the index over a store from its file.  What it finds there depends on how far the
stopped run came.

| the stopped run | what is opened |
| :-- | :-- |
| could not put in a function, or not write the file | the store with which it had begun itself |
| wrote a store whose vectors are all finite | a store with the same documents |
| wrote a store with another vector | the empty store |

In the first case the next run meets the same obstacle: the vectors that have to be made and the dimension they have to
fit are those of before (`upsertAll_congr`).  In the second it changes nothing, since every function is there with its
keywords and what is gone is not (`upsertAll_eq_self`, `removeAll_eq_self`).  So in both it ends with the clusters with
which the stopped run would have ended, as it does with any deterministic index that keeps what was made to last
(`resumed_sameClusters`).

In the third case vectors are made anew for all functions, and nothing ties the clusters to those of before: in the sample
at the end a function that no text resembles, as its vector is infinite, is like another one afterwards.

That functions are there with their keywords needs that no two have one identifier, and so a bound on the lines of a file
(`Extraction.Identifiable`).

## What is proved

For all `earlier` runs, stopped or not, and each way to stop:

* For every visit with an index that is deterministic and every world in which it can be made again, with an index that
  keeps what was made to last: `v.MadeUp (afterRuns earlier) stop w`.
* For every visit with an index over a store that was opened from its file, and the world that the stopped visit leaves,
  with the index opened from its file again: if the vectors that were made to last are finite, the visit is made up for as
  well; if not, the index is empty.

An infinite component is not far-fetched: the file may hold a number that is too large for a single, and reading it gives
infinity (`Proofs.Similarity.StoreFile`).  Whether the clusters are then others depends on the vectors.

## How it goes

The store that is opened has the documents of the one that was saved (`documents_storeAt`), so it answers alike.  A visit
whose index lasts has saved a store in which each of its functions is with its keywords (`holdsFunction_upsertAll`);
putting them in again is passed over one by one, so that the index does not change (`lasted_again`).  A visit whose index
does not last has touched no file, or could not write one; the next one fails at the same function, or cannot write it
either (`lasted_of_again`).
-/
import Consolidation.Proofs.Run.IndexHistory
import Consolidation.Proofs.Run.Interruption
import Consolidation.Proofs.Similarity.StoreFile

namespace Consolidation

open Number SimilarityIndex

/-! ## The same functions once more -/

namespace DocumentStore

variable {e : Embedder} {s s' : DocumentStore} {id text : String} {metadata : Metadata}
  {f : FunctionRecord}

/-- Is a function in a store with its keywords? -/
def HoldsFunction (s : DocumentStore) (f : FunctionRecord) : Prop :=
  ∃ d, s.documents.find? f.id = some d ∧ d.text = f.contextKeywords ∧ d.metadata = metadataOf f

theorem HoldsFunction.upsert_eq (h : s.HoldsFunction f) (e : Embedder) :
    s.upsert e f.id f.contextKeywords (metadataOf f) = .ok s := by
  obtain ⟨d, hd, htext, hmetadata⟩ := h
  have hinsert : s.documents.insert f.id d = s.documents := by
    refine Dict.ext_find? fun id => ?_
    rw [Dict.find?_insert]
    split
    · next hid => rw [← hid, hd]
    · rfl
  rw [← htext, upsert_of_kept hd, ← hmetadata, hinsert]

theorem Indexed.remove_eq (h : Indexed s) (hid : s.documents.find? id = none) : s.remove id = s := by
  have herase : ∀ {β : Type} (d : Dict β), d.find? id = none → d.erase id = d := by
    intro β d hnone
    refine Dict.ext_find? fun id' => ?_
    rw [Dict.find?_erase]
    split
    · next heq => rw [← heq, hnone]
    · rfl
  have hvector : s.index.vectors.find? id = none := by
    rw [h.vectors, hid]
    rfl
  rw [DocumentStore.remove, VectorIndex.remove, herase _ hid, herase _ hvector]

theorem find?_upsert (h : s.upsert e id text metadata = .ok s') :
    ∃ d, d.text = text ∧ d.metadata = metadata ∧
      ∀ id', s'.documents.find? id' = if id = id' then some d else s.documents.find? id' := by
  obtain ⟨d, -, rfl, rfl⟩ | ⟨vector, -, hadd⟩ := upsert_eq_ok h
  · exact ⟨{ d with metadata := metadata }, rfl, rfl, fun id' => Dict.find?_insert ..⟩
  · refine ⟨⟨id, text, metadata, vector⟩, rfl, rfl, fun id' => ?_⟩
    rw [(add_eq_ok hadd).2, Dict.find?_insert]

/-! ## Stores that are alike for some functions -/

/-- Are two stores of one dimension, with the same documents under some identifiers? -/
structure AlikeFor (ids : List String) (s s' : DocumentStore) : Prop where
  dimension_eq : s'.index.dimension = s.index.dimension
  find?_eq : ∀ id ∈ ids, s'.documents.find? id = s.documents.find? id

variable {ids : List String}

theorem AlikeFor.insert (h : AlikeFor ids s s') (id : String) (d : Document)
    {index index' : VectorIndex} (hdimension : index'.dimension = index.dimension) :
    AlikeFor ids ⟨s.documents.insert id d, index⟩ ⟨s'.documents.insert id d, index'⟩ where
  dimension_eq := hdimension
  find?_eq := by
    intro id' hid'
    rw [Dict.find?_insert, Dict.find?_insert, h.find?_eq id' hid']

theorem AlikeFor.add (h : AlikeFor ids s s') (id : String) (d : Document) :
    (∃ t t', s.add id d = .ok t ∧ s'.add id d = .ok t' ∧ AlikeFor ids t t') ∨
      ∃ error, s.add id d = .error error ∧ s'.add id d = .error error := by
  have hcheck : s'.index.checkDimension d.vector = s.index.checkDimension d.vector := by
    rw [VectorIndex.checkDimension, h.dimension_eq]
    rfl
  cases hfits : s.index.checkDimension d.vector with
  | ok u =>
    rw [hfits] at hcheck
    have hadd : ∀ t : DocumentStore, t.index.checkDimension d.vector = .ok u →
        t.add id d = .ok ⟨t.documents.insert id d, t.index.dimension.or (some d.vector.length),
          t.index.vectors.insert id d.vector⟩ := by
      intro t ht
      simp only [DocumentStore.add, VectorIndex.add, ht]
    exact .inl ⟨_, _, hadd s hfits, hadd s' hcheck, h.insert id d (by rw [h.dimension_eq])⟩
  | error error =>
    rw [hfits] at hcheck
    have hadd : ∀ t : DocumentStore, t.index.checkDimension d.vector = .error error →
        t.add id d = .error error := by
      intro t ht
      simp only [DocumentStore.add, VectorIndex.add, ht]
    exact .inr ⟨error, hadd s hfits, hadd s' hcheck⟩

/-- Stores that are alike take in a text both or neither, and stay alike. -/
theorem AlikeFor.upsert (h : AlikeFor ids s s') (hid : id ∈ ids) (e : Embedder) (text : String)
    (metadata : Metadata) :
    (∃ t t', s.upsert e id text metadata = .ok t ∧ s'.upsert e id text metadata = .ok t' ∧
        AlikeFor ids t t') ∨
      ∃ error, s.upsert e id text metadata = .error error ∧
        s'.upsert e id text metadata = .error error := by
  rcases s.pending_or_kept id text with hpending | ⟨d, hd, rfl⟩
  · have hpending' : s'.Pending id text := by
      intro d hd
      rw [h.find?_eq id hid] at hd
      exact hpending d hd
    rw [upsert_of_pending hpending, upsert_of_pending hpending']
    cases e.embed text with
    | error error => exact .inr ⟨error, rfl, rfl⟩
    | ok vector => exact h.add id ⟨id, text, metadata, vector⟩
  · have hd' : s'.documents.find? id = some d := by rw [h.find?_eq id hid, hd]
    exact .inl ⟨_, _, upsert_of_kept hd e metadata, upsert_of_kept hd' e metadata,
      h.insert id _ h.dimension_eq⟩

end DocumentStore

/-! ## Bringing a store up to date again -/

namespace SimilarityIndex

open DocumentStore

variable {e : Embedder} {path : Files.Path} {s s' : DocumentStore} {functions : List FunctionRecord}

theorem upsert_ofStore (hworks : works e = true) (s : DocumentStore) (id text : String)
    (metadata : Metadata) :
    (ofStore e path).upsert s id text metadata = s.upsert e id text metadata := by
  simp only [ofStore, whenAvailable, hworks, if_true]

/-- Functions that are there are put in once more, and nothing changes. -/
theorem upsertAll_eq_self (hworks : works e = true) (h : ∀ f ∈ functions, s.HoldsFunction f) :
    (ofStore e path).upsertAll functions s = (s, none) := by
  induction functions with
  | nil => rfl
  | cons f functions ih =>
    obtain ⟨hf, hfunctions⟩ := List.forall_mem_cons.1 h
    rw [upsertAll, upsert_ofStore hworks, hf.upsert_eq e]
    exact ih hfunctions

/-- Functions that are put in are there with their keywords, and other documents stay. -/
theorem holdsFunction_upsertAll (hworks : works e = true)
    (h : (ofStore e path).upsertAll functions s = (s', none))
    (hnodup : (functions.map (·.id)).Nodup) :
    (∀ f ∈ functions, s'.HoldsFunction f) ∧
      ∀ id, id ∉ functions.map (·.id) → s'.documents.find? id = s.documents.find? id := by
  induction functions generalizing s with
  | nil =>
    cases h
    exact ⟨by simp, fun _ _ => rfl⟩
  | cons f functions ih =>
    rw [List.map_cons, List.nodup_cons] at hnodup
    rw [upsertAll, upsert_ofStore hworks] at h
    cases hupsert : s.upsert e f.id f.contextKeywords (metadataOf f) with
    | error error =>
      rw [hupsert] at h
      cases h
    | ok s₁ =>
      rw [hupsert] at h
      obtain ⟨d, htext, hmetadata, hfind⟩ := find?_upsert hupsert
      obtain ⟨hheld, hother⟩ := ih h hnodup.2
      constructor
      · refine List.forall_mem_cons.2 ⟨⟨d, ?_, htext, hmetadata⟩, hheld⟩
        rw [hother f.id hnodup.1, hfind, if_pos rfl]
      · intro id hid
        rw [List.map_cons, List.mem_cons, not_or] at hid
        rw [hother id hid.2, hfind, if_neg (Ne.symm hid.1)]

variable (path) in
/-- Stores that are alike for functions take in the same of them. -/
theorem upsertAll_congr (hworks : works e = true) {ids : List String} (h : AlikeFor ids s s')
    (hids : ∀ f ∈ functions, f.id ∈ ids) :
    ((ofStore e path).upsertAll functions s').2 = ((ofStore e path).upsertAll functions s).2 := by
  induction functions generalizing s s' with
  | nil => rfl
  | cons f functions ih =>
    obtain ⟨hf, hfunctions⟩ := List.forall_mem_cons.1 hids
    rw [upsertAll, upsertAll, upsert_ofStore hworks, upsert_ofStore hworks]
    rcases h.upsert hf e f.contextKeywords (metadataOf f) with ⟨t, t', ht, ht', halike⟩ | ⟨error, ht, ht'⟩
    · rw [ht, ht']
      exact ih halike hfunctions
    · rw [ht, ht']

theorem find?_removeAll (ids : List String) (s : DocumentStore) (id : String) :
    ((ofStore e path).removeAll ids s).documents.find? id =
      if id ∈ ids then none else s.documents.find? id := by
  induction ids generalizing s with
  | nil => rfl
  | cons gone ids ih =>
    have hcons : (ofStore e path).removeAll (gone :: ids) s =
        (ofStore e path).removeAll ids (s.remove gone) := rfl
    rw [hcons, ih, DocumentStore.remove, Dict.find?_erase]
    by_cases hid : gone = id
    · simp [hid]
    · by_cases hmem : id ∈ ids <;> simp [hmem, hid, Ne.symm hid]

theorem dimension_removeAll (ids : List String) (s : DocumentStore) :
    ((ofStore e path).removeAll ids s).index.dimension = s.index.dimension := by
  induction ids generalizing s with
  | nil => rfl
  | cons id ids ih => exact ih (s.remove id)

/-- What is not there is taken out once more, and nothing changes. -/
theorem removeAll_eq_self {ids : List String} (h : Indexed s)
    (hids : ∀ id ∈ ids, s.documents.find? id = none) : (ofStore e path).removeAll ids s = s := by
  induction ids with
  | nil => rfl
  | cons id ids ih =>
    obtain ⟨hid, hrest⟩ := List.forall_mem_cons.1 hids
    have hcons : (ofStore e path).removeAll (id :: ids) s =
        (ofStore e path).removeAll ids (s.remove id) := rfl
    rw [hcons, h.remove_eq hid]
    exact ih hrest

theorem indexed_removeAll (h : Indexed s) (ids : List String) :
    Indexed ((ofStore e path).removeAll ids s) := by
  induction ids generalizing s with
  | nil => exact h
  | cons id ids ih => exact ih (h.remove id)

theorem indexed_upsertAll (hworks : works e = true) (h : Indexed s)
    (hupsert : (ofStore e path).upsertAll functions s = (s', none)) : Indexed s' := by
  induction functions generalizing s with
  | nil =>
    cases hupsert
    exact h
  | cons f functions ih =>
    rw [upsertAll, upsert_ofStore hworks] at hupsert
    cases hone : s.upsert e f.id f.contextKeywords (metadataOf f) with
    | error error =>
      rw [hone] at hupsert
      cases hupsert
    | ok s₁ =>
      rw [hone] at hupsert
      exact ih (h.upsert hone) hupsert

/-! ## Opening a store again -/

variable {tree tree' : Files.Entry}

theorem storeAt_congr (h : tree'.read path = tree.read path) (e : Embedder) (fresh : Bool) :
    storeAt e path fresh tree' = storeAt e path fresh tree := by
  simp only [storeAt, open?, load, h]

theorem indexed_storeAt (e : Embedder) (path : Files.Path) (fresh : Bool) (tree : Files.Entry) :
    Indexed (storeAt e path fresh tree) := by
  unfold storeAt open?
  split
  · exact indexed_empty
  · split
    · next s hload => exact indexed_of_load hload
    · exact indexed_empty

theorem storeAt_of_works (hworks : works e = true) :
    storeAt e path false tree = open? e path tree := by
  simp [storeAt, hworks]

theorem documents_storeAt (hworks : works e = true) (h : Indexed s)
    (hsave : (s.save e path tree).2 = .ok ())
    (hleft : tree'.read path = (s.save e path tree).1.read path) (hfinite : s.FiniteVectors) :
    (storeAt e path false tree').documents = s.documents := by
  obtain ⟨s', hload, -, hdocuments⟩ := h.load_save hsave hfinite
  rw [storeAt_congr hleft, storeAt_of_works hworks, open?, hload]
  exact hdocuments

theorem storeAt_eq_empty (hworks : works e = true) (hsave : (s.save e path tree).2 = .ok ())
    (hleft : tree'.read path = (s.save e path tree).1.read path) (hfinite : ¬s.FiniteVectors) :
    storeAt e path false tree' = .empty := by
  rw [storeAt_congr hleft, storeAt_of_works hworks, open?, load_save_of_infinite hsave hfinite]

end SimilarityIndex

/-! ## Visits whose index is opened from its file -/

/-- The files of a visit get functions of different identifiers. -/
def Visit.Identifiable (v : Visit) : Prop :=
  ∀ file ∈ v.files, ∀ bytes, v.world.files.read file.1 = .ok bytes → Extraction.Identifiable bytes

namespace StoreVisit

open DocumentStore

def again (u : StoreVisit) (w : World DocumentStore) : StoreVisit := { u with world := w }

/-- Has a visit found its index in its file, and does the next one find it as a stopped one has left it? -/
structure Reopened (u : StoreVisit) (s : Checkpoint) (w : World DocumentStore) : Prop where
  opened : u.world.index = storeAt u.embedder u.place false u.world.files
  reopened : w.index = storeAt u.embedder u.place false w.files
  left : w.files.read u.place = (u.loaded s).world.files.read u.place
  read_eq : ∀ file ∈ u.files, u.world.files.read file.1 = w.files.read file.1
  /-- The file of the index can be written if it could be written before. -/
  lasts_iff : (w.files.save u.place []).2 = none ↔ (u.world.files.save u.place []).2 = none

def searchables (u : StoreVisit) (s : Checkpoint) : List FunctionRecord := searchable (u.functions s)

variable {u : StoreVisit} {s t : Checkpoint} {w : World DocumentStore}

theorem completes_iff : u.completes s = true ↔ u.visit.Lasted s := by
  simp only [completes, Bool.and_eq_true, Option.isNone_iff_eq_none]
  exact ⟨fun h => ⟨h.1.1, h.1.2, h.2⟩, fun h => ⟨⟨h.available, h.keywords⟩, h.completed⟩⟩

theorem works_of_lasted (h : u.visit.Lasted s) : works u.embedder = true := by
  have havailable := h.available
  rw [show u.visit.setup.index = u.setup.index from rfl, u.index_eq] at havailable
  exact havailable

theorem saved_of_lasted (h : u.visit.Lasted s) :
    (ofStore u.embedder u.place).upsertAll (u.searchables s)
        ((ofStore u.embedder u.place).removeAll (u.loaded s).inventory.gone u.world.index) =
          ((u.loaded s).world.index, none) ∧
      (u.loaded s).world.index.save u.embedder u.place u.world.files =
        ((u.loaded s).world.files, .ok ()) := by
  obtain ⟨havailable, hupdate⟩ := update_of_completes (completes_iff.2 h)
  have herror := congrArg Prod.snd hupdate
  have hupsert := upsertAll_of_completed havailable herror
  have hpersist := persist_of_completed havailable herror
  rw [hupdate] at hupsert hpersist
  refine ⟨hupsert, ?_⟩
  simpa only [ofStore, works_of_lasted h, if_true] using hpersist

theorem lasted_of_saved {state : DocumentStore} (hworks : works u.embedder = true)
    (hkeywords : u.setup.settings.clustering.keywords = true)
    (hupsert : (ofStore u.embedder u.place).upsertAll (u.searchables s)
      ((ofStore u.embedder u.place).removeAll (u.loaded s).inventory.gone u.world.index) = (state, none))
    (hsave : (state.save u.embedder u.place u.world.files).2 = .ok ()) :
    u.visit.Lasted s ∧ (u.loaded s).world.index = state := by
  have hpersist : (ofStore u.embedder u.place).persist state u.world.files =
      ((state.save u.embedder u.place u.world.files).1, .ok ()) := by
    simp only [ofStore, hworks, if_true]
    rw [← hsave]
  have hupdate : u.setup.index.update u.setup.settings.clustering.keywords (u.loaded s).inventory
      u.world = ((u.loaded s).world, (u.loaded s).indexError) := rfl
  rw [u.index_eq, hkeywords, update_eq_of_persist hworks hupsert hpersist] at hupdate
  obtain ⟨hworld, herror⟩ := Prod.mk.inj hupdate
  exact ⟨⟨by rw [visit, u.index_eq]; exact hworks, hkeywords, herror.symm⟩, by rw [← hworld]⟩

theorem disjoint_gone (h : Visit.Continues (u.loaded s).inventory ((u.again w).loaded t).inventory)
    {id : String} (hid : id ∈ ((u.again w).loaded t).inventory.gone) :
    id ∈ (u.loaded s).inventory.gone := by
  rcases h.gone with hgone | hgone
  · rwa [hgone] at hid
  · rw [hgone] at hid
    cases hid

theorem not_mem_searchables_of_mem_gone {id : String} (h : id ∈ (u.loaded s).inventory.gone) :
    id ∉ (u.searchables s).map (·.id) := by
  intro hid
  obtain ⟨f, hf, rfl⟩ := List.mem_map.1 hid
  exact Inventory.not_mem_ids_of_mem_gone h (List.mem_map_of_mem (mem_searchable_iff.1 hf).1)

theorem searchables_again
    (h : Visit.Continues (u.loaded s).inventory ((u.again w).loaded t).inventory) :
    (u.again w).searchables t = u.searchables s := by
  rw [searchables, functions, h.allFunctions_eq]
  rfl

/-- After a visit whose finite vectors were made to last, the next one changes nothing in its store. -/
theorem lasted_again (h : u.visit.Lasted s) (hreopened : u.Reopened s w)
    (hcontinues : Visit.Continues (u.loaded s).inventory ((u.again w).loaded t).inventory)
    (hids : ((u.functions s).map (·.id)).Nodup) (hfinite : (u.loaded s).world.index.FiniteVectors) :
    (u.again w).visit.Lasted t ∧ ((u.again w).loaded t).world.index = w.index ∧
      ∀ text threshold count, w.index.query u.embedder text threshold count =
        (u.loaded s).world.index.query u.embedder text threshold count := by
  have hworks := works_of_lasted h
  obtain ⟨hupsert, hsave⟩ := saved_of_lasted h
  -- the store that is opened has the documents of the one that was written
  have hopened : Indexed u.world.index := hreopened.opened ▸ indexed_storeAt ..
  have hindexed : Indexed (u.loaded s).world.index :=
    indexed_upsertAll hworks (indexed_removeAll hopened _) hupsert
  have hindexed' : Indexed w.index := hreopened.reopened ▸ indexed_storeAt ..
  have hdocuments : w.index.documents = (u.loaded s).world.index.documents := by
    rw [hreopened.reopened]
    refine documents_storeAt hworks hindexed (congrArg Prod.snd hsave) ?_ hfinite
    rw [hsave]
    exact hreopened.left
  -- so every function is there, and none that is gone
  have hnodup : ((u.searchables s).map (·.id)).Nodup :=
    hids.sublist (List.Sublist.map _ List.filter_sublist)
  obtain ⟨hheld, hother⟩ := holdsFunction_upsertAll hworks hupsert hnodup
  have hheld' : ∀ f ∈ (u.again w).searchables t, w.index.HoldsFunction f := by
    rw [searchables_again hcontinues]
    intro f hf
    unfold HoldsFunction
    rw [hdocuments]
    exact hheld f hf
  have hgone : ∀ id ∈ ((u.again w).loaded t).inventory.gone, w.index.documents.find? id = none := by
    intro id hid
    have hid := disjoint_gone hcontinues hid
    rw [hdocuments, hother id (not_mem_searchables_of_mem_gone hid), find?_removeAll, if_pos hid]
  have hupsert' : (ofStore u.embedder u.place).upsertAll ((u.again w).searchables t)
      ((ofStore u.embedder u.place).removeAll ((u.again w).loaded t).inventory.gone w.index) =
        (w.index, none) := by
    rw [removeAll_eq_self hindexed' hgone]
    exact upsertAll_eq_self hworks hheld'
  have hsave' : (w.index.save u.embedder u.place w.files).2 = .ok () := by
    rw [save_eq_ok_iff, hreopened.lasts_iff, ← save_eq_ok_iff, hsave]
  obtain ⟨hlasted, hstate⟩ := lasted_of_saved (u := u.again w) hworks h.keywords hupsert' hsave'
  exact ⟨hlasted, hstate, hindexed.query_congr hindexed' hdocuments u.embedder⟩

/-- What keeps a visit from making its index last keeps the next one from it. -/
theorem lasted_of_again (hreopened : u.Reopened s w)
    (hcontinues : Visit.Continues (u.loaded s).inventory ((u.again w).loaded t).inventory)
    (h : (u.again w).visit.Lasted t) : u.visit.Lasted s := by
  have hworks : works u.embedder = true := works_of_lasted (u := u.again w) h
  obtain ⟨hupsert, hsave⟩ := saved_of_lasted (u := u.again w) h
  by_contra hnot
  cases hfirst : (ofStore u.embedder u.place).upsertAll (u.searchables s)
      ((ofStore u.embedder u.place).removeAll (u.loaded s).inventory.gone u.world.index) with
  | mk state error =>
    cases error with
    | none =>
      -- the file could be written later, so it could be written before
      have hsaved : (state.save u.embedder u.place u.world.files).2 = .ok () := by
        rw [save_eq_ok_iff, ← hreopened.lasts_iff, ← save_eq_ok_iff]
        exact congrArg Prod.snd hsave
      exact hnot (lasted_of_saved hworks h.keywords hfirst hsaved).1
    | some error =>
      -- no file was touched, so the next visit began with the same store
      have hfiles : (u.loaded s).world.files = u.world.files := by
        have hupdate : (u.setup.index.update u.setup.settings.clustering.keywords
            (u.loaded s).inventory u.world).1.files = (u.loaded s).world.files := rfl
        have hkeywords : u.setup.settings.clustering.keywords = true := h.keywords
        rw [← hupdate, u.index_eq, hkeywords]
        exact files_update hworks (congrArg Prod.snd hfirst)
      have hindex : w.index = u.world.index := by
        rw [hreopened.reopened, hreopened.opened]
        exact storeAt_congr (by rw [hreopened.left, hfiles]) ..
      have halike : AlikeFor ((u.searchables s).map (·.id))
          ((ofStore u.embedder u.place).removeAll (u.loaded s).inventory.gone u.world.index)
          ((ofStore u.embedder u.place).removeAll ((u.again w).loaded t).inventory.gone w.index) := by
        constructor
        · rw [dimension_removeAll, dimension_removeAll, hindex]
        · intro id hid
          have hkept : id ∉ (u.loaded s).inventory.gone :=
            fun hgone => not_mem_searchables_of_mem_gone hgone hid
          rw [find?_removeAll, find?_removeAll, if_neg hkept,
            if_neg fun hgone => hkept (disjoint_gone hcontinues hgone), hindex]
      have herrors := upsertAll_congr u.place hworks halike
        (fun f hf => List.mem_map_of_mem hf)
      rw [hfirst, ← searchables_again hcontinues] at herrors
      cases herrors.symm.trans (congrArg Prod.snd hupsert)

theorem madeUp (hs : s.Orderly) (hplain : u.visit.Plain) (hids : ((u.functions s).map (·.id)).Nodup)
    (hreopened : u.Reopened s w) (stop : Stop)
    (hfinite : u.visit.Lasted s → (u.loaded s).world.index.FiniteVectors) :
    u.visit.MadeUp s stop w := by
  have hcontinues : Visit.Continues (u.loaded s).inventory
      ((u.again w).loaded (u.visit.left s (some stop))).inventory :=
    Visit.continues_left hs hplain hreopened.read_eq stop
  refine Visit.madeUp_of_query hs hplain hreopened.read_eq stop ⟨lasted_of_again hreopened hcontinues,
    fun h => (lasted_again h hreopened hcontinues hids (hfinite h)).1⟩ fun h => ?_
  obtain ⟨-, hindex, hquery⟩ := lasted_again h hreopened hcontinues hids (hfinite h)
  have hindex' : ((u.visit.again w).loaded (u.visit.left s (some stop))).world.index = w.index := hindex
  rw [hindex']
  show u.setup.index.query w.index = u.setup.index.query (u.loaded s).world.index
  rw [u.index_eq]
  funext text threshold count
  simp only [ofStore, hquery]

theorem index_eq_empty (hreopened : u.Reopened s w) (h : u.visit.Lasted s)
    (hfinite : ¬(u.loaded s).world.index.FiniteVectors) : w.index = .empty := by
  obtain ⟨-, hsave⟩ := saved_of_lasted h
  rw [hreopened.reopened]
  refine storeAt_eq_empty (works_of_lasted h) (congrArg Prod.snd hsave) ?_ hfinite
  rw [hsave]
  exact hreopened.left

end StoreVisit

/-! ## Different identifiers -/

namespace Visit

variable {v : Visit} {s : Checkpoint}

theorem each_loaded (hs : s.Each fun fs => (fs.map (·.id)).Nodup) (hids : v.Identifiable) :
    (v.loaded s).inventory.checkpoint.Each fun fs => (fs.map (·.id)).Nodup :=
  Inventory.each_take hs fun file hfile => FileFinding.nodup_ids_extractionOf (hids file hfile)

theorem each_left (horderly : s.Orderly) (hs : s.Each fun fs => (fs.map (·.id)).Nodup)
    (hplain : v.Plain) (hids : v.Identifiable) (stop : Option Stop) :
    (v.left s stop).Each fun fs => (fs.map (·.id)).Nodup := by
  match stop with
  | some .indexed => exact hs
  | some .recorded =>
    rw [left_recorded horderly hplain]
    exact each_loaded hs hids
  | none =>
    rw [left, (orderly_result horderly hplain).ofBytes_toBytes]
    exact each_loaded hs hids

end Visit

theorem each_afterRuns {runs : List (Visit × Option Stop)} (hplain : ∀ run ∈ runs, run.1.Plain)
    (hids : ∀ run ∈ runs, run.1.Identifiable) :
    (afterRuns runs).Each fun fs => (fs.map (·.id)).Nodup := by
  induction runs using List.reverseRecOn with
  | nil => exact Checkpoint.each_empty
  | append_singleton runs run ih =>
    obtain ⟨v, stop⟩ := run
    have hbefore : ∀ run ∈ runs, run ∈ runs ++ [(v, stop)] := fun run hrun => List.mem_append_left _ hrun
    have hlast : (v, stop) ∈ runs ++ [(v, stop)] := by simp
    rw [afterRuns_append]
    exact Visit.each_left (orderly_afterRuns fun run hrun => hplain run (hbefore run hrun))
      (ih (fun run hrun => hplain run (hbefore run hrun)) fun run hrun => hids run (hbefore run hrun))
      (hplain _ hlast) (hids _ hlast) stop

/-- **A run that was stopped is made up for by the next one**, if its index keeps what was made to last.  Whatever earlier
runs have left, each of which may have been stopped itself: the run that follows goes by the same strategy and ends with the
same functions, keys and clusters as the stopped one would have done.  An index over a store that is opened
from its file keeps what was made to last if all vectors are finite; otherwise it is empty. -/
theorem resumed_sameClusters {earlier : List (Visit × Option Stop)}
    (hearlier : ∀ run ∈ earlier, run.1.Plain) (stop : Stop) :
    (∀ (v : Visit) (b : Behaviour) (holds : v.σ → Held → Prop) (d : Held) (w : World v.σ),
      v.Plain → v.setup.index.Deterministic b holds → holds v.world.index d →
        v.Resumes (afterRuns earlier) b holds w → v.MadeUp (afterRuns earlier) stop w) ∧
      ∀ (u : StoreVisit) (w : World DocumentStore), u.visit.Plain →
        (∀ run ∈ earlier, run.1.Identifiable) → u.visit.Identifiable →
        u.Reopened (afterRuns earlier) w →
          ((u.visit.Lasted (afterRuns earlier) →
              (u.loaded (afterRuns earlier)).world.index.FiniteVectors) →
            u.visit.MadeUp (afterRuns earlier) stop w) ∧
          (u.visit.Lasted (afterRuns earlier) →
              ¬(u.loaded (afterRuns earlier)).world.index.FiniteVectors → w.index = .empty) := by
  have hs := orderly_afterRuns hearlier
  constructor
  · intro v b holds d w hplain hindex hd hresumes
    exact Visit.madeUp_of_deterministic hs hplain hindex hd hresumes stop
  · intro u w hplain hids hid hreopened
    have hnodup : ((u.functions (afterRuns earlier)).map (·.id)).Nodup :=
      (Visit.orderly_loaded hs hplain).checkpoint.nodup_ids_of_each
        (Visit.each_loaded (each_afterRuns hearlier hids) hid)
    exact ⟨StoreVisit.madeUp hs hplain hnodup hreopened stop, StoreVisit.index_eq_empty hreopened⟩

/-! Runs that are stopped after their index was made to last, and the next ones with the index that is opened then. -/

namespace Sample

def reopened (u : StoreVisit) (s : Checkpoint) : World DocumentStore :=
  ⟨(u.loaded s).world.files, storeAt u.embedder u.place false (u.loaded s).world.files⟩

/-- A visit to one file of a tree, whose index is opened from another one. -/
def visitIn (e : Embedder) (threshold : Single) (tree : Files.Entry) : StoreVisit where
  setup := ⟨[], "", { Settings.default with
      clustering := { ClusterSettings.default with threshold := threshold } },
    .ofStore e ["index.json"], none, false⟩
  files := [(["a.py"], "a.py")]
  world := ⟨tree, storeAt e ["index.json"] false tree⟩
  embedder := e
  place := ["index.json"]
  index_eq := rfl

section VisitIn

variable (e : Embedder) (threshold : Single) {tree : Files.Entry}

theorem visitIn_plain : (visitIn e threshold tree).visit.Plain := .of_single rfl (by decide)

theorem visitIn_identifiable {bytes : List UInt8} (hread : tree.read ["a.py"] = .ok bytes)
    (h : Extraction.Identifiable bytes) : (visitIn e threshold tree).visit.Identifiable := by
  intro file hfile bytes' hread'
  obtain rfl := List.mem_singleton.1 hfile
  cases hread.symm.trans hread'
  exact h

variable {e threshold} in
/-- Next to the index, which can be written again, the file is there as before. -/
theorem visitIn_reopened {s : Checkpoint}
    (hread : ((visitIn e threshold tree).loaded s).world.files.read ["a.py"] = tree.read ["a.py"])
    (hlasts : (tree.save ["index.json"] []).2 = none ∧
      (((visitIn e threshold tree).loaded s).world.files.save ["index.json"] []).2 = none) :
    (visitIn e threshold tree).Reopened s (reopened (visitIn e threshold tree) s) where
  opened := rfl
  reopened := rfl
  left := rfl
  read_eq := by
    intro file hfile
    obtain rfl := List.mem_singleton.1 hfile
    exact hread.symm
  lasts_iff := ⟨fun _ => hlasts.1, fun _ => hlasts.2⟩

end VisitIn

/-- A visit that finds keywords where one that was stopped had found none. -/
def wordedVisit : StoreVisit := visitIn uniform .one (.folder [("a.py", .file worded)])

def wordlessVisit : StoreVisit := visitIn uniform .one (.folder [("a.py", .file wordless)])

def stopped : List (Visit × Option Stop) := [(wordlessVisit.visit, some .recorded)]

theorem stopped_plain : ∀ run ∈ stopped, run.1.Plain := by
  intro run hrun
  obtain rfl := List.mem_singleton.1 hrun
  exact visitIn_plain ..

theorem afterRuns_stopped :
    afterRuns stopped = (wordlessVisit.loaded .empty).inventory.checkpoint :=
  (afterRuns_append [] wordlessVisit.visit (some .recorded)).trans
    (Visit.left_recorded Checkpoint.orderly_empty (visitIn_plain ..))

theorem wordedVisit_loaded :
    (wordedVisit.loaded (afterRuns stopped)).world.files.read ["a.py"] = .ok worded ∧
      ((wordedVisit.loaded (afterRuns stopped)).world.files.save ["index.json"] []).2 = none ∧
      (wordedVisit.loaded (afterRuns stopped)).world.index.documents.values.all
        (fun d => d.vector.all Single.isFinite) = true := by
  rw [afterRuns_stopped]
  decide +kernel

def twoFunctions : List UInt8 :=
  bytesOf "def f(config):\n    return config\n\n\ndef g(mode):\n    return mode\n"

/-- A component for the first function is infinite as a single. -/
def infiniteTree : Files.Entry := .folder [
  ("a.py", .file twoFunctions),
  ("index.json", .file (Json.toBytes (.obj [
    ("schema_version", .nat 1),
    ("model_id", .str "upright"),
    ("documents", .obj [("a.py::f", .obj [
      ("id", .str "a.py::f"),
      ("text", .str "config"),
      ("vector", .arr [.num ⟨⟨false, 1, 39⟩, false⟩, .nat 0])])])])))]

def largest : Single := ⟨false, 0x7F7FFFFF, by decide⟩

/-- Vectors at right angles, so long that none is close to itself. -/
def upright : Embedder where
  modelId := "upright"
  enabled := true
  embedBatch texts :=
    .ok (texts.map fun text => if text = "config" then [largest, .zero] else [.zero, largest])

/-- Right angles are close enough. -/
def infiniteVisit : StoreVisit := visitIn upright .zero infiniteTree

theorem infiniteVisit_loaded :
    infiniteVisit.completes .empty = true ∧
      (infiniteVisit.loaded .empty).world.index.documents.values.all
        (fun d => d.vector.all Single.isFinite) = false ∧
      (infiniteVisit.loaded .empty).world.files.read ["a.py"] = .ok twoFunctions ∧
      ((infiniteVisit.loaded .empty).world.files.save ["index.json"] []).2 = none := by
  decide +kernel

theorem infiniteVisit_keys :
    ((infiniteVisit.again ⟨(infiniteVisit.loaded .empty).world.files, .empty⟩).visit.result
        .empty).checkpoint.memberships ≠ (infiniteVisit.visit.result .empty).checkpoint.memberships := by
  decide +kernel

theorem stopped_identifiable : ∀ run ∈ stopped, run.1.Identifiable := by
  intro run hrun
  obtain rfl := List.mem_singleton.1 hrun
  exact visitIn_identifiable _ _ rfl (Extraction.identifiable_encode (by decide))

theorem wordedVisit_identifiable : wordedVisit.visit.Identifiable :=
  visitIn_identifiable _ _ rfl (Extraction.identifiable_encode (by decide))

theorem wordedVisit_reopened :
    wordedVisit.Reopened (afterRuns stopped) (reopened wordedVisit (afterRuns stopped)) :=
  visitIn_reopened wordedVisit_loaded.1 ⟨rfl, wordedVisit_loaded.2.1⟩

theorem infiniteVisit_identifiable : infiniteVisit.visit.Identifiable :=
  visitIn_identifiable _ _ rfl (Extraction.identifiable_encode (by decide))

theorem infiniteVisit_reopened : infiniteVisit.Reopened .empty (reopened infiniteVisit .empty) := by
  have hread : infiniteTree.read ["a.py"] = .ok twoFunctions := rfl
  have hsaved : (infiniteTree.save ["index.json"] []).2 = none := rfl
  exact visitIn_reopened (infiniteVisit_loaded.2.2.1.trans hread.symm)
    ⟨hsaved, infiniteVisit_loaded.2.2.2⟩

theorem uniform_uniform : uniform.Uniform 1 := by
  intro text vector h
  cases h
  rfl

theorem wordedVisit_resumes :
    wordedVisit.visit.Resumes (afterRuns stopped) (behaviourOf uniform ["index.json"])
      (DocumentStore.Holds uniform 1) (wordedVisit.loaded (afterRuns stopped)).world := by
  obtain ⟨hread, hsaved, -⟩ := wordedVisit_loaded
  refine Visit.resumes_loaded (v := wordedVisit.visit) (deterministic_ofStore uniform_uniform ["index.json"])
    (DocumentStore.holds_empty uniform 1) ?_ ?_
  · intro file hfile
    obtain rfl := List.mem_singleton.1 hfile
    exact hread.symm
  · have hbefore : (wordedVisit.visit.world.files.save ["index.json"] []).2 = none := rfl
    simp only [behaviourOf, hbefore]
    exact congrArg (!works uniform || ·.isNone) hsaved

theorem wordedVisit_finite : (wordedVisit.loaded (afterRuns stopped)).world.index.FiniteVectors := by
  intro d hd x hx
  exact List.all_eq_true.1 (List.all_eq_true.1 wordedVisit_loaded.2.2 d hd) x hx

theorem infiniteVisit_plain : infiniteVisit.visit.Plain := visitIn_plain ..

theorem infiniteVisit_lasted : infiniteVisit.visit.Lasted .empty :=
  StoreVisit.completes_iff.1 infiniteVisit_loaded.1

theorem infiniteVisit_not_finite : ¬(infiniteVisit.loaded .empty).world.index.FiniteVectors := by
  intro h
  have hall := infiniteVisit_loaded.2.1
  rw [List.all_eq_true.2 fun d hd => List.all_eq_true.2 (h d hd)] at hall
  cases hall

end Sample

/-- With finite vectors the third run ends with the clusters with which the second would have ended, wherever that was
stopped; after one with an infinite vector the index is empty, and the clusters are others. -/
theorem resumed_sameClusters_sample :
    (∀ stop, Sample.wordedVisit.visit.MadeUp (afterRuns Sample.stopped) stop
        (Sample.wordedVisit.loaded (afterRuns Sample.stopped)).world) ∧
      (∀ stop, Sample.wordedVisit.visit.MadeUp (afterRuns Sample.stopped) stop
        (Sample.reopened Sample.wordedVisit (afterRuns Sample.stopped))) ∧
      (Sample.reopened Sample.infiniteVisit .empty).index = .empty ∧
      ¬Sample.infiniteVisit.visit.MadeUp .empty .indexed (Sample.reopened Sample.infiniteVisit .empty) := by
  obtain ⟨-, hvisit⟩ := resumed_sameClusters (List.forall_mem_nil _) .indexed
  obtain ⟨-, hlost⟩ := hvisit Sample.infiniteVisit (Sample.reopened Sample.infiniteVisit .empty)
    Sample.infiniteVisit_plain (List.forall_mem_nil _) Sample.infiniteVisit_identifiable
    Sample.infiniteVisit_reopened
  have hempty := hlost Sample.infiniteVisit_lasted Sample.infiniteVisit_not_finite
  refine ⟨fun stop => ?kept, fun stop => ?finite, hempty, fun hmadeUp => ?infinite⟩
  case kept =>
    exact (resumed_sameClusters Sample.stopped_plain stop).1 Sample.wordedVisit.visit _ _ Dict.empty _
      (Sample.visitIn_plain ..) (deterministic_ofStore Sample.uniform_uniform ["index.json"])
      (DocumentStore.holds_empty Sample.uniform 1) Sample.wordedVisit_resumes
  case finite =>
    exact ((resumed_sameClusters Sample.stopped_plain stop).2 Sample.wordedVisit _
      (Sample.visitIn_plain ..) Sample.stopped_identifiable Sample.wordedVisit_identifiable
      Sample.wordedVisit_reopened).1 fun _ => Sample.wordedVisit_finite
  case infinite =>
    have hworld : Sample.reopened Sample.infiniteVisit .empty =
        ⟨(Sample.infiniteVisit.loaded .empty).world.files, .empty⟩ :=
      congrArg (World.mk _) hempty
    have hkeys := hmadeUp.clusters.memberships_eq
    rw [hworld] at hkeys
    exact Sample.infiniteVisit_keys hkeys

end Consolidation
