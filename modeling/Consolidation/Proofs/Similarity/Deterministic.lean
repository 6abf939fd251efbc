/-
# `Proofs.Similarity.Deterministic` — indexes that do the same again

A similarity index is `Deterministic` if each of its operations succeeds or fails by what it is asked, and what it answers
depends on the texts that it holds alone.  Which states hold which texts is a relation, kept by every operation; so two
states that hold the same cannot be told apart, however they came about.

Bringing such an index up to date takes out some texts and puts in others (`Held.put`, `Held.drop`).  Doing that a second
time changes nothing (`Held.put_drop_put`), and it succeeds again if it has succeeded (`Deterministic.update_error_iff`).

The index over a store is such an index, if its embedder makes vectors of one dimension (`deterministic_ofStore`).

| operation | what it depends on |
| :-- | :-- |
| taking in a text | the identifier, the text, and what else is known of it |
| taking one out | the identifier |
| being made to last | the tree in which it is to be written |
| answering | the texts that are held, and the question |

An operation that fails leaves the index as it was.  What was put in before the first function that is not taken stays
(`Deterministic.upsertAll_failed`); which of the texts are held then is not said, only that some are.

For a store the relation is `DocumentStore.Holds`: the documents are these texts, each with the vector that the embedder
makes of its text.  That excludes a store whose documents were made by another embedder; opened from a file, a store may
be such a one.
-/
import Consolidation.Run.Indexing
import Consolidation.Proofs.Collection.Dict
import Consolidation.Proofs.Files.Entry
import Consolidation.Proofs.Similarity.StoreIndex

namespace Consolidation

open Number SimilarityIndex

/-! ## What an index holds -/

/-- Texts by identifier, each with what else is known of it. -/
abbrev Held := Dict (String × Metadata)

namespace Held

/-- What is held once functions have been put in. -/
def put (functions : List FunctionRecord) (d : Held) : Held :=
  functions.foldl (fun d f => d.insert f.id (f.contextKeywords, metadataOf f)) d

/-- What is held once functions have been taken out, those that can be. -/
def drop (drops : String → Bool) (ids : List String) (d : Held) : Held :=
  ids.foldl (fun d id => if drops id then d.erase id else d) d

theorem find?_put (functions : List FunctionRecord) (d : Held) (id : String) :
    (put functions d).find? id = ((put functions Dict.empty).find? id).or (d.find? id) := by
  induction functions generalizing d with
  | nil => rfl
  | cons f functions ih =>
    have hcons : ∀ d : Held, put (f :: functions) d =
        put functions (d.insert f.id (f.contextKeywords, metadataOf f)) := fun _ => rfl
    rw [hcons, hcons, ih, ih (Dict.insert _ _ _), Option.or_assoc, Dict.find?_insert,
      Dict.find?_insert]
    split <;> simp

theorem find?_drop (drops : String → Bool) (ids : List String) (d : Held) (id : String) :
    (drop drops ids d).find? id = if id ∈ ids ∧ drops id then none else d.find? id := by
  induction ids generalizing d with
  | nil => simp [drop]
  | cons gone ids ih =>
    have hcons : drop drops (gone :: ids) d =
        drop drops ids (if drops gone then d.erase gone else d) := rfl
    rw [hcons, ih]
    by_cases hgone : gone = id
    · subst hgone
      by_cases hdrops : drops gone <;> simp [hdrops]
    · by_cases hdrops : drops gone <;> simp [hdrops, hgone, Ne.symm hgone]

/-- To put in and take out the same again changes nothing. -/
theorem put_drop_put (functions : List FunctionRecord) (drops : String → Bool) (ids : List String)
    (d : Held) :
    put functions (drop drops ids (put functions (drop drops ids d))) =
      put functions (drop drops ids d) := by
  refine Dict.ext_find? fun id => ?_
  rw [find?_put, find?_drop, find?_put functions (drop drops ids d), find?_drop]
  cases (put functions Dict.empty).find? id with
  | some held => rfl
  | none =>
    simp only [Option.none_or]
    split <;> rfl

theorem put_put (functions : List FunctionRecord) (d : Held) :
    put functions (put functions d) = put functions d :=
  put_drop_put functions (fun _ => false) [] d

end Held

/-! ## Deterministic indexes -/

/-- What an index does, by what it is asked. -/
structure Behaviour where
  /-- Does it take in a text with what else is known of it? -/
  takes : (id text : String) → Metadata → Bool
  /-- Does it let a text be taken out? -/
  drops : String → Bool
  /-- Can it be made to last in a tree? -/
  lasts : Files.Entry → Bool
  answers : Held → NeighbourQuery

/-- Does it take in all of some functions? -/
def Behaviour.takesAll (b : Behaviour) (functions : List FunctionRecord) : Bool :=
  functions.all (fun f => b.takes f.id f.contextKeywords (metadataOf f))

namespace SimilarityIndex

/-- Does an index behave as described, the states holding what is said of them? -/
structure Deterministic {σ : Type} (index : SimilarityIndex σ) (b : Behaviour)
    (holds : σ → Held → Prop) : Prop where
  upsert_ok : ∀ {state d id text metadata}, holds state d → b.takes id text metadata = true →
    ∃ state', index.upsert state id text metadata = .ok state' ∧
      holds state' (d.insert id (text, metadata))
  upsert_error : ∀ {state d id text metadata}, holds state d → b.takes id text metadata = false →
    ∃ error, index.upsert state id text metadata = .error error
  remove_ok : ∀ {state d id}, holds state d → b.drops id = true →
    ∃ state', index.remove state id = .ok state' ∧ holds state' (d.erase id)
  remove_error : ∀ {state d id}, holds state d → b.drops id = false →
    ∃ error, index.remove state id = .error error
  query_eq : ∀ {state d}, holds state d → index.query state = b.answers d
  persist_iff : ∀ {state d tree}, holds state d →
    ((index.persist state tree).2 = .ok () ↔ b.lasts tree = true)

namespace Deterministic

variable {σ : Type} {index : SimilarityIndex σ} {b : Behaviour} {holds : σ → Held → Prop}
  {state : σ} {d : Held}

theorem holds_removeAll (h : index.Deterministic b holds) (hd : holds state d) (ids : List String) :
    holds (index.removeAll ids state) (Held.drop b.drops ids d) := by
  induction ids generalizing state d with
  | nil => exact hd
  | cons id ids ih =>
    cases hdrops : b.drops id with
    | true =>
      obtain ⟨state', hremove, hd'⟩ := h.remove_ok hd hdrops
      have hstep := ih hd'
      simpa only [removeAll, Held.drop, List.foldl_cons, hremove, hdrops, if_true] using hstep
    | false =>
      obtain ⟨error, hremove⟩ := h.remove_error hd hdrops
      have hstep := ih hd
      simpa only [removeAll, Held.drop, List.foldl_cons, hremove, hdrops, Bool.false_eq_true,
        if_false] using hstep

theorem upsertAll_ok (h : index.Deterministic b holds) {functions : List FunctionRecord}
    (htakes : b.takesAll functions = true) (hd : holds state d) :
    ∃ state', index.upsertAll functions state = (state', none) ∧
      holds state' (Held.put functions d) := by
  induction functions generalizing state d with
  | nil => exact ⟨state, rfl, hd⟩
  | cons f functions ih =>
    rw [Behaviour.takesAll, List.all_cons, Bool.and_eq_true] at htakes
    obtain ⟨state', hupsert, hd'⟩ := h.upsert_ok hd htakes.1
    obtain ⟨state'', hrest, hd''⟩ := ih htakes.2 hd'
    exact ⟨state'', by rw [upsertAll, hupsert]; exact hrest, hd''⟩

/-- What was put in before the first function that is not taken stays. -/
theorem upsertAll_failed (h : index.Deterministic b holds) {functions : List FunctionRecord}
    (htakes : b.takesAll functions = false) (hd : holds state d) :
    ∃ state' error d', index.upsertAll functions state = (state', some error) ∧ holds state' d' := by
  induction functions generalizing state d with
  | nil => cases htakes
  | cons f functions ih =>
    rw [Behaviour.takesAll, List.all_cons, Bool.and_eq_false_iff] at htakes
    rw [upsertAll]
    cases hf : b.takes f.id f.contextKeywords (metadataOf f) with
    | false =>
      obtain ⟨error, hupsert⟩ := h.upsert_error hd hf
      exact ⟨state, error, d, by rw [hupsert], hd⟩
    | true =>
      obtain ⟨state', hupsert, hd'⟩ := h.upsert_ok hd hf
      rw [hupsert]
      exact ih (htakes.resolve_left (by simp [hf])) hd'

variable {i : Inventory} {w : World σ}

/-- Nothing goes wrong with an index that takes all functions and lasts. -/
theorem update_error_iff (h : index.Deterministic b holds) (havailable : index.available = true)
    (hd : holds w.index d) :
    (index.update true i w).2 = none ↔
      b.takesAll (searchable i.checkpoint.allFunctions) = true ∧ b.lasts w.files = true := by
  have hremoved := h.holds_removeAll hd i.gone
  unfold update
  simp only [havailable, Bool.not_true, Bool.or_self, Bool.false_eq_true, if_false]
  cases htakes : b.takesAll (searchable i.checkpoint.allFunctions) with
  | false =>
    obtain ⟨state', error, -, hupsert, -⟩ := h.upsertAll_failed htakes hremoved
    simp [hupsert]
  | true =>
    obtain ⟨state', hupsert, hd'⟩ := h.upsertAll_ok htakes hremoved
    simp only [hupsert, true_and]
    rw [← h.persist_iff hd']
    split
    · next hpersist => simp [hpersist]
    · next hpersist => simp [hpersist]

/-- If nothing goes wrong, the index holds what was put in, and what it held before and was not taken out. -/
theorem holds_update (h : index.Deterministic b holds) (havailable : index.available = true)
    (hd : holds w.index d) (herror : (index.update true i w).2 = none) :
    holds (index.update true i w).1.index
      (Held.put (searchable i.checkpoint.allFunctions) (Held.drop b.drops i.gone d)) := by
  have htakes := ((h.update_error_iff havailable hd).1 herror).1
  obtain ⟨state', hupsert, hd'⟩ := h.upsertAll_ok htakes (h.holds_removeAll hd i.gone)
  unfold update
  simp only [havailable, Bool.not_true, Bool.or_self, Bool.false_eq_true, if_false, hupsert]
  split <;> exact hd'

theorem exists_holds_update (h : index.Deterministic b holds) (hd : holds w.index d)
    (keywords : Bool) : ∃ d', holds (index.update keywords i w).1.index d' := by
  have hremoved := h.holds_removeAll hd i.gone
  unfold update
  dsimp only
  split
  · exact ⟨_, hremoved⟩
  · cases htakes : b.takesAll (searchable i.checkpoint.allFunctions) with
    | false =>
      obtain ⟨state', error, d', hupsert, hd'⟩ := h.upsertAll_failed htakes hremoved
      rw [hupsert]
      exact ⟨d', hd'⟩
    | true =>
      obtain ⟨state', hupsert, hd'⟩ := h.upsertAll_ok htakes hremoved
      rw [hupsert]
      dsimp only
      split <;> exact ⟨_, hd'⟩

end Deterministic

end SimilarityIndex

/-! ## Stores -/

/-- Has every vector that an embedder makes the same dimension? -/
def Embedder.Uniform (e : Embedder) (dimension : Nat) : Prop :=
  ∀ text vector, e.embed text = .ok vector → vector.length = dimension

namespace DocumentStore

variable {e : Embedder} {dimension : Nat} {s s' : DocumentStore} {d : Held}

/-- A store that holds texts with the vectors that an embedder makes of them. -/
structure Holds (e : Embedder) (dimension : Nat) (s : DocumentStore) (d : Held) : Prop where
  documents : ∀ id, (s.documents.find? id).map (fun d => (d.text, d.metadata)) = d.find? id
  embedded : ∀ id d, s.documents.find? id = some d → e.embed d.text = .ok d.vector
  vectors : ∀ id, s.index.vectors.find? id = (s.documents.find? id).map (·.vector)
  dimension_eq : ∀ n ∈ s.index.dimension, n = dimension

theorem holds_empty (e : Embedder) (dimension : Nat) : Holds e dimension empty Dict.empty where
  documents := fun _ => rfl
  embedded := nofun
  vectors := fun _ => rfl
  dimension_eq := nofun

theorem Holds.remove (h : Holds e dimension s d) (id : String) :
    Holds e dimension (s.remove id) (d.erase id) where
  documents := by
    intro id'
    rw [DocumentStore.remove, Dict.find?_erase, Dict.find?_erase, ← h.documents]
    split <;> rfl
  embedded := by
    intro id' doc hdoc
    rw [DocumentStore.remove, Dict.find?_erase] at hdoc
    split at hdoc
    · cases hdoc
    · exact h.embedded id' doc hdoc
  vectors := by
    intro id'
    rw [DocumentStore.remove, VectorIndex.remove, Dict.find?_erase, Dict.find?_erase, h.vectors]
    split <;> rfl
  dimension_eq := h.dimension_eq

theorem Holds.insert (h : Holds e dimension s d) (id : String) (doc : Document)
    (hvector : e.embed doc.text = .ok doc.vector) {index : VectorIndex}
    (hindex : ∀ id', index.vectors.find? id' =
      if id = id' then some doc.vector else s.index.vectors.find? id')
    (hdimension : ∀ n ∈ index.dimension, n = dimension) :
    Holds e dimension ⟨s.documents.insert id doc, index⟩ (d.insert id (doc.text, doc.metadata)) where
  documents := by
    intro id'
    rw [Dict.find?_insert, Dict.find?_insert, ← h.documents]
    split <;> rfl
  embedded := by
    intro id' doc' hdoc
    rw [Dict.find?_insert] at hdoc
    split at hdoc
    · cases hdoc
      exact hvector
    · exact h.embedded id' doc' hdoc
  vectors := by
    intro id'
    rw [hindex, Dict.find?_insert, h.vectors]
    split <;> rfl
  dimension_eq := hdimension

theorem Holds.exists_add (h : Holds e dimension s d) (hu : e.Uniform dimension) (id : String)
    (doc : Document) (hvector : e.embed doc.text = .ok doc.vector) :
    ∃ s', s.add id doc = .ok s' ∧ Holds e dimension s' (d.insert id (doc.text, doc.metadata)) := by
  have hlength : doc.vector.length = dimension := hu _ _ hvector
  have hdimension : s.index.dimension = none ∨ s.index.dimension = some doc.vector.length := by
    cases hn : s.index.dimension with
    | none => exact .inl rfl
    | some n => exact .inr (congrArg some ((h.dimension_eq n hn).trans hlength.symm))
  obtain ⟨index, hindex⟩ := VectorIndex.exists_add id hdimension
  obtain ⟨hvectors, hafter, -⟩ := VectorIndex.add_eq_ok hindex
  refine ⟨⟨s.documents.insert id doc, index⟩, by rw [add, hindex], h.insert id doc hvector (fun id' => ?_) fun n hn => ?_⟩
  · rw [hvectors, Dict.find?_insert]
  · rw [hafter] at hn
    rw [← Option.some.inj hn, hlength]

theorem Holds.exists_upsert (h : Holds e dimension s d) (hu : e.Uniform dimension) (id : String)
    {text : String} {vector : Embedding} (htext : e.embed text = .ok vector) (metadata : Metadata) :
    ∃ s', s.upsert e id text metadata = .ok s' ∧
      Holds e dimension s' (d.insert id (text, metadata)) := by
  rcases s.pending_or_kept id text with hpending | ⟨doc, hdoc, rfl⟩
  · rw [upsert_of_pending hpending, htext]
    exact h.exists_add hu id ⟨id, text, metadata, vector⟩ htext
  · refine ⟨_, upsert_of_kept hdoc e metadata, h.insert id { doc with metadata := metadata }
      (h.embedded id doc hdoc) (fun id' => ?_) h.dimension_eq⟩
    split
    · next hid => rw [← hid, h.vectors, hdoc]; rfl
    · rfl

theorem Holds.upsert_error (h : Holds e dimension s d) (id : String) {text : String}
    {error : StoreError} (htext : e.embed text = .error error) (metadata : Metadata) :
    s.upsert e id text metadata = .error error := by
  have hpending : s.Pending id text := by
    rintro doc hdoc rfl
    have hembedded := h.embedded id doc hdoc
    rw [htext] at hembedded
    cases hembedded
  rw [upsert_of_pending hpending, htext]
  rfl

def vectorsOf (e : Embedder) (d : Held) : Dict Embedding :=
  d.mapValues (fun held => match e.embed held.1 with
    | .ok vector => vector
    | .error _ => [])

/-- A store with these vectors, for look-ups. -/
def searched (e : Embedder) (d : Held) : DocumentStore := ⟨Dict.empty, none, vectorsOf e d⟩

theorem Holds.vectors_eq (h : Holds e dimension s d) : s.index.vectors = vectorsOf e d := by
  refine Dict.ext_find? fun id => ?_
  rw [h.vectors, vectorsOf, Dict.find?_mapValues, ← h.documents]
  cases hdoc : s.documents.find? id with
  | none => rfl
  | some doc =>
    simp only [Option.map_some]
    rw [h.embedded id doc hdoc]

theorem Holds.query_eq (h : Holds e dimension s d) (hu : e.Uniform dimension) (text : String)
    (threshold : Single) (count : Nat) :
    s.query e text threshold count = (searched e d).query e text threshold count := by
  have hempty : s.index.isEmpty = (searched e d).index.isEmpty :=
    congrArg Dict.isEmpty h.vectors_eq
  unfold query
  rw [hempty]
  split
  · rfl
  · cases htext : e.embed text with
    | error error => rfl
    | ok vector =>
      have hcheck : s.index.checkDimension vector = .ok () := by
        unfold VectorIndex.checkDimension
        split
        · next n hn => rw [h.dimension_eq n hn, hu text vector htext, beq_self_eq_true, if_pos rfl]
        · rfl
      have hcheck' : (searched e d).index.checkDimension vector = .ok () := rfl
      simp only [VectorIndex.search, hcheck, hcheck', VectorIndex.hits, h.vectors_eq]
      rfl

theorem save_eq_ok_iff {path : Files.Path} {tree : Files.Entry} :
    (s.save e path tree).2 = .ok () ↔ (tree.save path []).2 = none := by
  rw [Files.Entry.save_eq_none_congr tree path [] (s.toBytes e.modelId), save]
  split
  · next hsave => simp [hsave]
  · next hsave => simp [hsave]

end DocumentStore

namespace SimilarityIndex

/-- What the index over a store does. -/
def behaviourOf (e : Embedder) (path : Files.Path) : Behaviour where
  takes _ text _ := works e && (e.embed text).isOk
  drops _ := true
  lasts tree := !works e || (tree.save path []).2.isNone
  answers d text threshold count := whenAvailable (works e)
    (((DocumentStore.searched e d).query e text threshold count).map (·.map Hit.id))

/-- The index over a store is deterministic, if vectors are of one dimension. -/
theorem deterministic_ofStore {e : Embedder} {dimension : Nat} (hu : e.Uniform dimension)
    (path : Files.Path) :
    (ofStore e path).Deterministic (behaviourOf e path) (DocumentStore.Holds e dimension) where
  upsert_ok := by
    intro s d id text metadata h htakes
    obtain ⟨hworks, hok⟩ := Bool.and_eq_true_iff.1 htakes
    cases htext : e.embed text with
    | error error =>
      rw [htext] at hok
      cases hok
    | ok vector =>
      simp only [ofStore, whenAvailable, hworks, if_true]
      exact h.exists_upsert hu id htext metadata
  upsert_error := by
    intro s d id text metadata h htakes
    simp only [ofStore, whenAvailable]
    cases hworks : works e with
    | false => exact ⟨_, rfl⟩
    | true =>
      cases htext : e.embed text with
      | error error => exact ⟨error, h.upsert_error id htext metadata⟩
      | ok vector =>
        simp only [behaviourOf, hworks, htext] at htakes
        cases htakes
  remove_ok := fun h _ => ⟨_, rfl, h.remove _⟩
  remove_error := fun _ h => nomatch h
  query_eq := by
    intro s d h
    funext text threshold count
    simp only [ofStore, behaviourOf, h.query_eq hu]
  persist_iff := by
    intro s d tree h
    simp only [ofStore, behaviourOf]
    cases hworks : works e with
    | false => simp
    | true =>
      simp only [Bool.not_true, Bool.false_or, if_true, Option.isNone_iff_eq_none]
      exact DocumentStore.save_eq_ok_iff

end SimilarityIndex

end Consolidation
