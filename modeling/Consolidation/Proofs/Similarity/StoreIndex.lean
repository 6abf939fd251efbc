/-
# `Proofs.Similarity.StoreIndex` — the index of a store is that of its documents

Whatever the calls are, the index of a store has the vectors of the documents, and their dimension if there are any
(`Indexed`, kept by every call).  So the documents alone decide what a store answers (`Indexed.query_congr`), and a store
can be made again from them (`Indexed.exists_ofDocuments`).  A dimension that has outlived its documents is not seen by
queries.

An upsert does one of two things (`upsert_eq_ok`): if the document has the same text already it keeps its vector and gets
what else is known anew, and otherwise a vector is made and has to fit.  Removing a document leaves the dimension as it
is, even if it was the last one.

Stores are made from documents when they are read from a file, one document after the other, and this fails if two of them
have vectors of different dimensions; so what was loaded is `Indexed` from the start (`indexed_of_load`).
-/
import Consolidation.Similarity.DocumentStore
import Consolidation.Proofs.Collection.Dict

namespace Consolidation

open Number

namespace VectorIndex

theorem add_eq_ok {i i' : VectorIndex} {id : String} {v : Embedding} (h : i.add id v = .ok i') :
    i'.vectors = i.vectors.insert id v ∧ i'.dimension = some v.length ∧
      (i.dimension = none ∨ i.dimension = some v.length) := by
  unfold add checkDimension at h
  cases hdimension : i.dimension with
  | none =>
    rw [hdimension] at h
    cases h
    exact ⟨rfl, rfl, .inl rfl⟩
  | some n =>
    simp only [hdimension] at h
    split at h
    · cases h
    · next hcheck =>
      split at hcheck
      · next heq =>
        cases h
        obtain rfl : n = v.length := beq_iff_eq.1 heq
        exact ⟨rfl, rfl, .inr rfl⟩
      · cases hcheck

theorem exists_add {i : VectorIndex} (id : String) {v : Embedding}
    (h : i.dimension = none ∨ i.dimension = some v.length) : ∃ i', i.add id v = .ok i' := by
  rcases h with h | h <;> simp [add, checkDimension, h]

end VectorIndex

namespace DocumentStore

variable {e : Embedder} {s s' : DocumentStore} {id text : String} {metadata : Metadata}

/-! ## Upserts -/

/-- Is the vector of a text still to be made? -/
def Pending (s : DocumentStore) (id text : String) : Prop := ∀ d, s.documents.find? id = some d → d.text ≠ text

theorem pending_or_kept (s : DocumentStore) (id text : String) :
    s.Pending id text ∨ ∃ d, s.documents.find? id = some d ∧ d.text = text := by
  by_cases h : s.Pending id text
  · exact .inl h
  · unfold Pending at h
    push Not at h
    exact .inr h

theorem upsert_of_pending (h : s.Pending id text) (e : Embedder) (metadata : Metadata) :
    s.upsert e id text metadata =
      (e.embed text).bind (fun vector => s.add id ⟨id, text, metadata, vector⟩) := by
  unfold upsert
  cases hd : s.documents.find? id with
  | none => cases e.embed text <;> rfl
  | some d =>
    simp only [beq_eq_false_iff_ne.2 (h d hd)]
    cases e.embed text <;> rfl

theorem upsert_of_kept {d : Document} (h : s.documents.find? id = some d) (e : Embedder) (metadata : Metadata) :
    s.upsert e id d.text metadata =
      .ok { s with documents := s.documents.insert id { d with metadata := metadata } } := by
  simp only [upsert, h, beq_self_eq_true, if_true]

theorem add_eq_ok {d : Document} (h : s.add id d = .ok s') :
    s.index.add id d.vector = .ok s'.index ∧ s'.documents = s.documents.insert id d := by
  unfold add at h
  split at h
  · cases h
  · next hindex =>
    cases h
    exact ⟨hindex, rfl⟩

/-- A document keeps its vector with its text; otherwise it comes with a vector that is made now. -/
theorem upsert_eq_ok (h : s.upsert e id text metadata = .ok s') :
    (∃ d, s.documents.find? id = some d ∧ d.text = text ∧
      s' = { s with documents := s.documents.insert id { d with metadata := metadata } }) ∨
      ∃ vector, e.embed text = .ok vector ∧ s.add id ⟨id, text, metadata, vector⟩ = .ok s' := by
  rcases s.pending_or_kept id text with hpending | ⟨d, hd, rfl⟩
  · rw [upsert_of_pending hpending] at h
    cases hembed : e.embed text with
    | error error =>
      rw [hembed] at h
      cases h
    | ok vector =>
      rw [hembed] at h
      exact .inr ⟨vector, rfl, h⟩
  · rw [upsert_of_kept hd] at h
    exact .inl ⟨d, hd, rfl, (Except.ok.inj h).symm⟩

/-! ## Calls -/

inductive Call where
  | upsert (id text : String) (metadata : Metadata)
  | remove (id : String)

/-- The store after a call; one that fails leaves it as it is. -/
def Call.apply (e : Embedder) (s : DocumentStore) : Call → DocumentStore
  | upsert id text metadata =>
    match s.upsert e id text metadata with
    | .ok s' => s'
    | .error _ => s
  | remove id => s.remove id

def afterCalls (e : Embedder) (s : DocumentStore) (calls : List Call) : DocumentStore :=
  calls.foldl (Call.apply e) s

/-! ## The index -/

/-- Has the index the vectors of the documents, and their dimension? -/
structure Indexed (s : DocumentStore) : Prop where
  vectors : ∀ id, s.index.vectors.find? id = (s.documents.find? id).map (·.vector)
  dimension : ∀ id d, s.documents.find? id = some d → s.index.dimension = some d.vector.length

theorem indexed_empty : Indexed empty := ⟨fun _ => rfl, nofun⟩

theorem Indexed.remove (h : Indexed s) (id : String) : Indexed (s.remove id) where
  vectors := by
    intro id'
    rw [DocumentStore.remove, VectorIndex.remove, Dict.find?_erase, Dict.find?_erase, h.vectors]
    split <;> rfl
  dimension := by
    intro id' d hd
    rw [DocumentStore.remove, Dict.find?_erase] at hd
    split at hd
    · cases hd
    · exact h.dimension id' d hd

theorem Indexed.add (h : Indexed s) {id : String} {d : Document} (hadd : s.add id d = .ok s') :
    Indexed s' := by
  obtain ⟨hindex, hdocuments⟩ := add_eq_ok hadd
  obtain ⟨hvectors, hdimension, hbefore⟩ := VectorIndex.add_eq_ok hindex
  constructor
  case vectors =>
    intro id'
    rw [hvectors, hdocuments, Dict.find?_insert, Dict.find?_insert, h.vectors]
    split <;> rfl
  case dimension =>
    intro id' d' hd'
    rw [hdocuments, Dict.find?_insert] at hd'
    rw [hdimension]
    split at hd'
    · cases hd'
      rfl
    · -- the dimension was there already
      have hd := h.dimension id' d' hd'
      rcases hbefore with hnone | hsome
      · rw [hnone] at hd
        cases hd
      · rw [← hsome, hd]

theorem Indexed.upsert (h : Indexed s) {id text : String} {metadata : Metadata}
    (hupsert : s.upsert e id text metadata = .ok s') : Indexed s' := by
  obtain ⟨d, hd, -, rfl⟩ | ⟨vector, -, hadd⟩ := upsert_eq_ok hupsert
  · constructor
    case vectors =>
      intro id'
      rw [Dict.find?_insert, h.vectors]
      split
      · next hid => rw [← hid, hd]; rfl
      · rfl
    case dimension =>
      intro id' d' hd'
      rw [Dict.find?_insert] at hd'
      split at hd'
      · cases hd'
        exact h.dimension id d hd
      · exact h.dimension id' d' hd'
  · exact h.add hadd

theorem Indexed.apply (h : Indexed s) (call : Call) : Indexed (call.apply e s) := by
  cases call with
  | upsert id text metadata =>
    unfold Call.apply
    dsimp only
    split
    · next hupsert => exact h.upsert hupsert
    · exact h
  | remove id => exact h.remove id

theorem Indexed.afterCalls (h : Indexed s) (calls : List Call) : Indexed (afterCalls e s calls) := by
  induction calls generalizing s with
  | nil => exact h
  | cons call calls ih => exact ih (h.apply call)

/-! ## Stores from documents -/

theorem indexed_foldlM {entries : List (String × Document)} (h : Indexed s)
    (hfold : entries.foldlM (fun s e => s.add e.1 e.2) s = .ok s') :
    Indexed s' ∧ s'.documents = entries.foldl (fun d e => d.insert e.1 e.2) s.documents := by
  induction entries generalizing s with
  | nil =>
    cases hfold
    exact ⟨h, rfl⟩
  | cons entry entries ih =>
    rw [List.foldlM_cons] at hfold
    cases hadd : s.add entry.1 entry.2 with
    | error error =>
      rw [hadd] at hfold
      cases hfold
    | ok s₁ =>
      rw [hadd] at hfold
      rw [List.foldl_cons, ← (add_eq_ok hadd).2]
      exact ih (h.add hadd) hfold

theorem indexed_of_ofDocuments {documents : Dict Document} (h : ofDocuments documents = .ok s) :
    Indexed s ∧ s.documents = documents := by
  obtain ⟨hindexed, hdocuments⟩ := indexed_foldlM indexed_empty h
  refine ⟨hindexed, hdocuments.trans ?_⟩
  exact Dict.ofList_entries documents

theorem indexed_of_load {path : Files.Path} {tree : Files.Entry} (h : load e path tree = .ok s) : Indexed s := by
  unfold load at h
  split at h
  · cases h
  · next bytes hbytes =>
    unfold ofBytes at h
    split at h
    · cases h
    · split at h
      · cases h
      · split at h
        · cases h
          exact indexed_empty
        · exact (indexed_of_ofDocuments h).1

theorem exists_foldlM {entries : List (String × Document)} {n : Nat}
    (hdimension : s.index.dimension = none ∨ s.index.dimension = some n)
    (hlength : ∀ entry ∈ entries, entry.2.vector.length = n) :
    ∃ s', entries.foldlM (fun s e => s.add e.1 e.2) s = .ok s' := by
  induction entries generalizing s with
  | nil => exact ⟨s, rfl⟩
  | cons entry entries ih =>
    obtain ⟨hentry, hrest⟩ := List.forall_mem_cons.1 hlength
    obtain ⟨i, hi⟩ := VectorIndex.exists_add entry.1 (hentry ▸ hdimension)
    have hadd : s.add entry.1 entry.2 = .ok ⟨s.documents.insert entry.1 entry.2, i⟩ := by
      rw [DocumentStore.add, hi]
    rw [List.foldlM_cons, hadd]
    exact ih (.inr (by rw [(VectorIndex.add_eq_ok hi).2.1, hentry])) hrest

/-- A store is made again from its documents, since their vectors are of one dimension. -/
theorem Indexed.exists_ofDocuments (h : Indexed s) : ∃ s', ofDocuments s.documents = .ok s' := by
  refine exists_foldlM (n := s.index.dimension.getD 0) (.inl rfl) ?_
  rintro ⟨id, d⟩ hd
  rw [h.dimension id d (Dict.mem_entries_iff.1 hd)]
  rfl

/-! ## Queries -/

/-- Stores with the same documents answer alike. -/
theorem Indexed.query_congr (h : Indexed s) (h' : Indexed s') (hdocuments : s'.documents = s.documents)
    (e : Embedder) (text : String) (threshold : Single) (count : Nat) :
    s'.query e text threshold count = s.query e text threshold count := by
  have hvectors : s'.index.vectors = s.index.vectors :=
    Dict.ext_find? fun id => by rw [h.vectors, h'.vectors, hdocuments]
  cases hentries : s.index.vectors.entries with
  | nil =>
    -- whatever the dimensions are, nothing is looked for
    have hempty : s.index.isEmpty = true := by
      rw [VectorIndex.isEmpty, Dict.isEmpty, hentries]
      rfl
    have hempty' : s'.index.isEmpty = true := by
      rw [VectorIndex.isEmpty, hvectors]
      exact hempty
    rw [query, query, hempty, hempty']
    rfl
  | cons entry entries =>
    obtain ⟨d, hd, -⟩ : ∃ d, s.documents.find? entry.1 = some d ∧ d.vector = entry.2 := by
      rw [← Option.map_eq_some_iff, ← h.vectors, ← Dict.mem_entries_iff, hentries]
      exact List.mem_cons_self
    have hdimension : s'.index.dimension = s.index.dimension := by
      rw [h.dimension _ d hd, h'.dimension _ d (hdocuments ▸ hd)]
    have hindex : s'.index = s.index := by
      cases hi : s.index
      cases hi' : s'.index
      rw [hi, hi'] at hvectors hdimension
      cases hvectors
      cases hdimension
      rfl
    rw [query, query, hindex]

end DocumentStore

end Consolidation
