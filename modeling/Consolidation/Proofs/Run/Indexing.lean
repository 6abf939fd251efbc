/-
# `Proofs.Run.Indexing` — what an index holds after it has been brought up to date

A store is looked at by the texts that it holds (`DocumentStore.textOf?`), since these are what functions put in and what
changes from run to run; vectors follow from them.

Bringing an index up to date takes out what is gone and puts in what is searchable, and leaves everything else
(`textOf?_update`).  So it holds the keywords of the functions and nothing else exactly if nothing else was left: whatever
it held before is searchable or gone (`mirrorsKeywords_update_iff`).  A function that stays without keywords is neither.

The calls are the same whatever the store holds: removals of all that is gone, whether it is there or not, and then an
upsert of each function that has keywords, in order, up to the first that fails.  What comes of them is told text by text:

| identifier | text behind the calls |
| :-- | :-- |
| of a function with keywords | its keywords |
| of no such function, but gone | none |
| of any other | what was there before |

If an upsert fails, nothing is written (`files_update`), and the error is reported; the texts that were put in before it
are in the store in memory and are lost with it.  If none fails, the index has been made to last as it is
(`persist_of_completed`).
-/
import Consolidation.Run.Indexing
import Consolidation.Proofs.Collection.Dict
import Consolidation.Proofs.Similarity.StoreIndex

namespace Consolidation

/-! ## The texts of a store -/

namespace DocumentStore

/-- The text that a store holds under an identifier. -/
def textOf? (s : DocumentStore) (id : String) : Option String := (s.documents.find? id).map (·.text)

variable {s s' : DocumentStore}

theorem textOf?_insert (s : DocumentStore) (index : VectorIndex) (id : String) (d : Document)
    (id' : String) :
    textOf? ⟨s.documents.insert id d, index⟩ id' = if id = id' then some d.text else s.textOf? id' := by
  unfold textOf?
  rw [Dict.find?_insert]
  split <;> rfl

theorem textOf?_add {id : String} {d : Document} (h : s.add id d = .ok s') (id' : String) :
    s'.textOf? id' = if id = id' then some d.text else s.textOf? id' := by
  have hinsert := textOf?_insert s s'.index id d id'
  rwa [← (add_eq_ok h).2] at hinsert

/-- An upsert puts its text under the identifier, whether the vector is kept or made anew. -/
theorem textOf?_upsert {e : Embedder} {id text : String} {metadata : Metadata}
    (h : s.upsert e id text metadata = .ok s') (id' : String) :
    s'.textOf? id' = if id = id' then some text else s.textOf? id' := by
  obtain ⟨d, -, rfl, rfl⟩ | ⟨vector, -, hadd⟩ := upsert_eq_ok h
  · exact textOf?_insert ..
  · exact textOf?_add hadd id'

theorem textOf?_remove (s : DocumentStore) (id id' : String) :
    (s.remove id).textOf? id' = if id = id' then none else s.textOf? id' := by
  unfold textOf? remove
  dsimp only
  rw [Dict.find?_erase]
  split <;> rfl

end DocumentStore

/-! ## Bringing an index up to date -/

namespace SimilarityIndex

section Completion

variable {σ : Type} {index : SimilarityIndex σ} {i : Inventory} {w : World σ}

theorem upsertAll_of_completed (havailable : index.available = true)
    (herror : (index.update true i w).2 = none) :
    index.upsertAll (searchable i.checkpoint.allFunctions) (index.removeAll i.gone w.index) =
      ((index.update true i w).1.index, none) := by
  unfold update at herror ⊢
  rw [havailable] at herror ⊢
  simp only [Bool.not_true, Bool.or_self, Bool.false_eq_true, if_false] at herror ⊢
  cases hupsert : index.upsertAll (searchable i.checkpoint.allFunctions)
      (index.removeAll i.gone w.index) with
  | mk state error =>
    rw [hupsert] at herror
    cases error with
    | some error => cases herror
    | none =>
      dsimp only at herror ⊢
      split at herror
      · rfl
      · cases herror

theorem persist_of_completed (havailable : index.available = true)
    (herror : (index.update true i w).2 = none) :
    index.persist (index.update true i w).1.index w.files =
      ((index.update true i w).1.files, .ok ()) := by
  have hupsert := upsertAll_of_completed havailable herror
  unfold update at herror hupsert ⊢
  rw [havailable] at herror hupsert ⊢
  simp only [Bool.not_true, Bool.or_self, Bool.false_eq_true, if_false] at herror hupsert ⊢
  rw [hupsert] at herror ⊢
  dsimp only at herror ⊢
  split at herror
  · next hpersist => rw [hpersist]
  · cases herror

theorem update_eq_of_persist {state : σ} {files : Files.Entry} (havailable : index.available = true)
    (hupsert : index.upsertAll (searchable i.checkpoint.allFunctions) (index.removeAll i.gone w.index) =
      (state, none)) (hpersist : index.persist state w.files = (files, .ok ())) :
    index.update true i w = (⟨files, state⟩, none) := by
  unfold update
  simp only [havailable, Bool.not_true, Bool.or_self, Bool.false_eq_true, if_false, hupsert, hpersist]

theorem files_update {error : StoreError} (havailable : index.available = true)
    (hupsert : (index.upsertAll (searchable i.checkpoint.allFunctions)
      (index.removeAll i.gone w.index)).2 = some error) :
    (index.update true i w).1.files = w.files := by
  unfold update
  simp only [havailable, Bool.not_true, Bool.or_self, Bool.false_eq_true, if_false]
  cases h : index.upsertAll (searchable i.checkpoint.allFunctions) (index.removeAll i.gone w.index) with
  | mk state error' =>
    rw [h] at hupsert
    cases hupsert
    rfl

theorem upsertAll_error (h : ∀ state id text metadata, ∃ state',
    index.upsert state id text metadata = .ok state') (functions : List FunctionRecord) (state : σ) :
    (index.upsertAll functions state).2 = none := by
  induction functions generalizing state with
  | nil => rfl
  | cons f functions ih =>
    obtain ⟨state', hstate'⟩ := h state f.id f.contextKeywords (metadataOf f)
    rw [upsertAll, hstate']
    exact ih state'

theorem update_error (hupsert : ∀ state id text metadata, ∃ state',
    index.upsert state id text metadata = .ok state')
    (hpersist : ∀ state tree, (index.persist state tree).2 = .ok ()) (keywords : Bool) :
    (index.update keywords i w).2 = none := by
  have herror := upsertAll_error hupsert (searchable i.checkpoint.allFunctions)
    (index.removeAll i.gone w.index)
  unfold update
  dsimp only
  split
  · rfl
  · split
    · next hfailed =>
      rw [hfailed] at herror
      cases herror
    · split
      · rfl
      · next hfailed =>
        have hlast := congrArg Prod.snd hfailed
        rw [hpersist] at hlast
        cases hlast

end Completion

section Store

variable {e : Embedder} {path : Files.Path} {s s' : DocumentStore}

theorem textOf?_removeAll (ids : List String) (s : DocumentStore) (id : String) :
    ((ofStore e path).removeAll ids s).textOf? id = if id ∈ ids then none else s.textOf? id := by
  induction ids generalizing s with
  | nil => rfl
  | cons id' ids ih =>
    have hcons : (ofStore e path).removeAll (id' :: ids) s =
        (ofStore e path).removeAll ids (s.remove id') := rfl
    rw [hcons, ih, DocumentStore.textOf?_remove]
    by_cases hid : id' = id
    · simp [hid]
    · by_cases hmem : id ∈ ids <;> simp [hmem, hid, Ne.symm hid]

/-- Under each identifier are the keywords of a function that was put in, or what was there before. -/
theorem textOf?_upsertAll {functions : List FunctionRecord}
    (h : (ofStore e path).upsertAll functions s = (s', none)) (id : String) :
    (∃ f ∈ functions, f.id = id ∧ s'.textOf? id = some f.contextKeywords) ∨
      ((∀ f ∈ functions, f.id ≠ id) ∧ s'.textOf? id = s.textOf? id) := by
  induction functions generalizing s with
  | nil =>
    cases h
    exact .inr ⟨by simp, rfl⟩
  | cons f functions ih =>
    rw [upsertAll] at h
    split at h
    · next s₁ hupsert =>
      have hone : ∀ id, s₁.textOf? id = if f.id = id then some f.contextKeywords else s.textOf? id := by
        intro id
        unfold ofStore whenAvailable at hupsert
        dsimp only at hupsert
        split at hupsert
        · exact DocumentStore.textOf?_upsert hupsert id
        · cases hupsert
      rcases ih h with ⟨g, hg, hid, htext⟩ | ⟨hnot, htext⟩
      · exact .inl ⟨g, List.mem_cons_of_mem _ hg, hid, htext⟩
      · rw [hone] at htext
        by_cases hid : f.id = id
        · rw [if_pos hid] at htext
          exact .inl ⟨f, List.mem_cons_self, hid, htext⟩
        · rw [if_neg hid] at htext
          exact .inr ⟨List.forall_mem_cons.2 ⟨hid, hnot⟩, htext⟩
    · cases h

end Store

end SimilarityIndex

/-! ## What an index mirrors -/

/-- Does a store hold the keywords of the functions that have some, and nothing else? -/
structure MirrorsKeywords (s : DocumentStore) (functions : List FunctionRecord) : Prop where
  held_iff : ∀ id, (s.textOf? id).isSome ↔
    ∃ f ∈ functions, f.contextKeywords.isEmpty = false ∧ f.id = id
  text_eq : ∀ id text, s.textOf? id = some text →
    ∃ f ∈ functions, f.contextKeywords.isEmpty = false ∧ f.id = id ∧ f.contextKeywords = text

namespace SimilarityIndex

variable {e : Embedder} {path : Files.Path} {i : Inventory} {w : World DocumentStore}

theorem mem_searchable_iff {functions : List FunctionRecord} {f : FunctionRecord} :
    f ∈ searchable functions ↔ f ∈ functions ∧ f.contextKeywords.isEmpty = false := by
  simp [searchable]

/-- After the index has been brought up to date it holds the keywords of the functions, and what was held before
and is not gone. -/
theorem textOf?_update (havailable : (ofStore e path).available = true)
    (herror : ((ofStore e path).update true i w).2 = none) (id : String) :
    (∃ f ∈ i.checkpoint.allFunctions, f.contextKeywords.isEmpty = false ∧ f.id = id ∧
        ((ofStore e path).update true i w).1.index.textOf? id = some f.contextKeywords) ∨
      ((∀ f ∈ i.checkpoint.allFunctions, f.contextKeywords.isEmpty = false → f.id ≠ id) ∧
        ((ofStore e path).update true i w).1.index.textOf? id =
          if id ∈ i.gone then none else w.index.textOf? id) := by
  rcases textOf?_upsertAll (upsertAll_of_completed havailable herror) id with
    ⟨f, hf, hid, htext⟩ | ⟨hnot, htext⟩
  · obtain ⟨hf, hkeywords⟩ := mem_searchable_iff.1 hf
    exact .inl ⟨f, hf, hkeywords, hid, htext⟩
  · rw [textOf?_removeAll] at htext
    exact .inr ⟨fun f hf hkeywords => hnot f (mem_searchable_iff.2 ⟨hf, hkeywords⟩), htext⟩

/-- The index mirrors the functions exactly if all that it held before is searchable or gone. -/
theorem mirrorsKeywords_update_iff (havailable : (ofStore e path).available = true)
    (herror : ((ofStore e path).update true i w).2 = none) :
    MirrorsKeywords ((ofStore e path).update true i w).1.index i.checkpoint.allFunctions ↔
      ∀ id, (w.index.textOf? id).isSome →
        (∃ f ∈ i.checkpoint.allFunctions, f.contextKeywords.isEmpty = false ∧ f.id = id) ∨
          id ∈ i.gone := by
  have hupdate := textOf?_update havailable herror
  constructor
  · intro h id hid
    rcases hupdate id with ⟨f, hf, hkeywords, hfid, -⟩ | ⟨hnot, htext⟩
    · exact .inl ⟨f, hf, hkeywords, hfid⟩
    · by_cases hgone : id ∈ i.gone
      · exact .inr hgone
      · -- what is left in the index is mirrored, so it belongs to a function after all
        rw [if_neg hgone] at htext
        rw [← htext, h.held_iff] at hid
        exact .inl hid
  · intro h
    have hleft : ∀ id text, ((ofStore e path).update true i w).1.index.textOf? id = some text →
        ∃ f ∈ i.checkpoint.allFunctions, f.contextKeywords.isEmpty = false ∧ f.id = id ∧
          f.contextKeywords = text := by
      intro id text hheld
      rcases hupdate id with ⟨f, hf, hkeywords, hfid, htext⟩ | ⟨hnot, htext⟩
      · exact ⟨f, hf, hkeywords, hfid, Option.some.inj (htext.symm.trans hheld)⟩
      · rw [hheld] at htext
        split at htext
        · cases htext
        · next hgone =>
          rcases h id (by rw [← htext]; rfl) with ⟨f, hf, hkeywords, hfid⟩ | hmem
          · exact absurd hfid (hnot f hf hkeywords)
          · exact absurd hmem hgone
    refine ⟨fun id => ?_, hleft⟩
    constructor
    · intro hid
      obtain ⟨text, htext⟩ := Option.isSome_iff_exists.1 hid
      obtain ⟨f, hf, hkeywords, hfid, -⟩ := hleft id text htext
      exact ⟨f, hf, hkeywords, hfid⟩
    · rintro ⟨f, hf, hkeywords, rfl⟩
      rcases hupdate f.id with ⟨g, -, -, -, htext⟩ | ⟨hnot, -⟩
      · rw [htext]
        rfl
      · exact absurd rfl (hnot f hf hkeywords)

end SimilarityIndex

end Consolidation
