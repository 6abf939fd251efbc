/-
# `Proofs.Similarity.StoreInPlace` — a store that is changed in place

A store has two maps, of documents and of vectors, and an upsert changes them one after the other.  Between the steps it
may fail: a vector has to be made, and it has to be of the dimension of the index.  Step by step (`upsertInPlace`), an
upsert either does all that `DocumentStore.upsert` does or leaves everything as it was (`upsertInPlace_atomic`), since all
that can fail comes before the first change.

So whatever operations have come before, with whatever embedders, the index has the vectors of the documents, and an
upsert that fails changes none of them (`indexed_afterOperations`).

## What is proved

For every store that is empty or was loaded, and every sequence of operations, each with an embedder of its own and ending
well or not: the index has the vectors of the documents, all of one dimension.  An upsert that comes next does, step by
step, what `DocumentStore.upsert` does if that succeeds; if it fails, nothing has changed, and there is a reason for it
(`Refused`): the text is a new one for its identifier, and no vector can be made of it, or none of the right dimension.

## How it goes

That an operation comes to all or nothing is `Atomic` (`Proofs.InPlace`), which is put together along its steps: first
those that may fail and change nothing, then those that change something and do not fail.  An upsert keeps to this order
(`embedInPlace_atomic`).
-/
import Consolidation.Proofs.InPlace
import Consolidation.Proofs.Similarity.StoreFile

namespace Consolidation

open InPlace Number

namespace VectorIndex

/-- Adds or replaces a vector, step by step: the dimension first, then the vector. -/
def addInPlace (id : String) (v : Embedding) : EStateM StoreError VectorIndex Unit := do
  MonadExcept.ofExcept ((← get).checkDimension v)
  modify fun i => { i with dimension := i.dimension.or (some v.length) }
  modify fun i => { i with vectors := i.vectors.insert id v }

theorem addInPlace_atomic (id : String) (v : Embedding) :
    Atomic (addInPlace id v) (fun i => (i.add id v).map (fun i' => ((), i'))) := by
  intro i
  dsimp only
  cases hcheck : i.checkDimension v with
  | ok u =>
    simp only [addInPlace, add, EStateM.run_bind, EStateM.run_get, hcheck]
    rfl
  | error error =>
    simp only [addInPlace, add, EStateM.run_bind, EStateM.run_get, hcheck]
    rfl

theorem add_eq_error {i : VectorIndex} {id : String} {v : Embedding} {error : StoreError}
    (h : i.add id v = .error error) :
    ∃ n, i.dimension = some n ∧ n ≠ v.length ∧ error = .dimension n v.length := by
  unfold add checkDimension at h
  cases hdimension : i.dimension with
  | none =>
    rw [hdimension] at h
    cases h
  | some n =>
    simp only [hdimension] at h
    split at h
    · next error' hcheck =>
      cases h
      split at hcheck
      · cases hcheck
      · next hne =>
        cases hcheck
        exact ⟨n, rfl, fun heq => hne (beq_iff_eq.2 heq), rfl⟩
    · cases h

end VectorIndex

namespace DocumentStore

variable {e : Embedder} {s : DocumentStore} {id text : String} {metadata : Metadata}

/-! ## One operation -/

def onIndex (x : EStateM StoreError VectorIndex Unit) : EStateM StoreError DocumentStore Unit :=
  onPart (·.index) (fun i s => { s with index := i }) x

/-- Makes a vector, adds it to the index and then the document to the documents. -/
def embedInPlace (e : Embedder) (id text : String) (metadata : Metadata) :
    EStateM StoreError DocumentStore Unit := do
  let vector ← MonadExcept.ofExcept (e.embed text)
  onIndex (VectorIndex.addInPlace id vector)
  modify fun s => { s with documents := s.documents.insert id ⟨id, text, metadata, vector⟩ }

/-- Inserts or replaces a document, step by step. -/
def upsertInPlace (e : Embedder) (id text : String) (metadata : Metadata) :
    EStateM StoreError DocumentStore Unit := do
  match (← get).documents.find? id with
  | some d =>
    if d.text == text then
      modify fun s => { s with documents := s.documents.insert id { d with metadata := metadata } }
    else embedInPlace e id text metadata
  | none => embedInPlace e id text metadata

/-- Removes a document, step by step: its vector first. -/
def removeInPlace (id : String) : EStateM StoreError DocumentStore Unit := do
  onIndex (modify fun i => i.remove id)
  modify fun s => { s with documents := s.documents.erase id }

/-- All that can fail in a new document comes before the first change. -/
theorem embedInPlace_atomic (e : Embedder) (id text : String) (metadata : Metadata) :
    Atomic (embedInPlace e id text metadata) (fun s => (e.embed text).bind fun vector =>
      (s.add id ⟨id, text, metadata, vector⟩).map (fun s' => ((), s'))) := by
  refine Atomic.ofExcept_bind fun vector => ?_
  have hindex : Atomic (onIndex (VectorIndex.addInPlace id vector)) _ :=
    (VectorIndex.addInPlace_atomic id vector).onPart fun _ => rfl
  have hboth := hindex.bind_modify fun s =>
    { s with documents := s.documents.insert id ⟨id, text, metadata, vector⟩ }
  intro s
  refine (hboth s).trans (congrArg (orKept s) ?_)
  dsimp only
  rw [add]
  cases s.index.add id vector with
  | ok index => rfl
  | error error => rfl

theorem upsertInPlace_of_pending (h : s.Pending id text) (e : Embedder) (metadata : Metadata) :
    (upsertInPlace e id text metadata).run s = (embedInPlace e id text metadata).run s := by
  simp only [upsertInPlace, EStateM.run_bind, EStateM.run_get]
  cases hd : s.documents.find? id with
  | none => rfl
  | some d =>
    simp only [beq_eq_false_iff_ne.2 (h d hd)]
    rfl

theorem upsertInPlace_atomic (e : Embedder) (id text : String) (metadata : Metadata) :
    Atomic (upsertInPlace e id text metadata)
      (fun s => (s.upsert e id text metadata).map (fun s' => ((), s'))) := by
  intro s
  dsimp only
  rcases s.pending_or_kept id text with h | ⟨d, hd, rfl⟩
  · rw [upsertInPlace_of_pending h, upsert_of_pending h, embedInPlace_atomic e id text metadata s]
    cases e.embed text <;> rfl
  · -- the text is there with its vector, and only the metadata change
    rw [upsert_of_kept hd]
    simp only [upsertInPlace, EStateM.run_bind, EStateM.run_get, hd, beq_self_eq_true, if_true]
    rfl

theorem add_eq_error {d : Document} {error : StoreError} (h : s.add id d = .error error) :
    s.index.add id d.vector = .error error := by
  unfold add at h
  split at h
  · next hindex =>
    cases h
    exact hindex
  · cases h

/-- Why an upsert is refused: a vector has to be made, and cannot be, or is not of the dimension of the index. -/
structure Refused (e : Embedder) (s : DocumentStore) (id text : String) (error : StoreError) : Prop where
  pending : s.Pending id text
  reason : e.embed text = .error error ∨
    ∃ vector n, e.embed text = .ok vector ∧ s.index.dimension = some n ∧ n ≠ vector.length ∧
      error = .dimension n vector.length

theorem refused_of_upsert_eq_error {error : StoreError} (h : s.upsert e id text metadata = .error error) :
    Refused e s id text error := by
  have hpending : s.Pending id text := by
    rintro d hd rfl
    rw [upsert_of_kept hd] at h
    cases h
  refine ⟨hpending, ?_⟩
  rw [upsert_of_pending hpending] at h
  cases hembed : e.embed text with
  | error error' =>
    rw [hembed] at h
    cases h
    exact .inl rfl
  | ok vector =>
    rw [hembed] at h
    obtain ⟨n, hn⟩ := VectorIndex.add_eq_error (add_eq_error h)
    exact .inr ⟨vector, n, rfl, hn⟩

/-! ## Operations one after another -/

/-- An operation on a store.  Each has an embedder of its own, so that texts may get vectors of any dimension. -/
inductive Operation where
  | upsert (e : Embedder) (id text : String) (metadata : Metadata)
  | remove (id : String)
  | query (e : Embedder) (text : String) (threshold : Single) (count : Nat)

/-- What an operation does, step by step; the answer to a query is not kept. -/
def Operation.inPlace : Operation → EStateM StoreError DocumentStore Unit
  | upsert e id text metadata => upsertInPlace e id text metadata
  | remove id => removeInPlace id
  | query e text threshold count => do
    let _ ← MonadExcept.ofExcept ((← get).query e text threshold count)

/-- The store after an operation, whether it failed or not. -/
def afterOperation (s : DocumentStore) (operation : Operation) : DocumentStore := stateOf (operation.inPlace.run s)

def afterOperations (s : DocumentStore) (operations : List Operation) : DocumentStore :=
  operations.foldl afterOperation s

theorem Indexed.afterOperation (h : Indexed s) (operation : Operation) : Indexed (s.afterOperation operation) := by
  unfold DocumentStore.afterOperation
  cases operation with
  | upsert e id text metadata =>
    show Indexed (stateOf ((upsertInPlace e id text metadata).run s))
    rw [upsertInPlace_atomic e id text metadata s]
    dsimp only
    cases hupsert : s.upsert e id text metadata with
    | ok s' => exact h.upsert hupsert
    | error error => exact h
  | remove id => exact h.remove id
  | query e text threshold count =>
    have hkept : stateOf ((Operation.query e text threshold count).inPlace.run s) = s := by
      simp only [Operation.inPlace, EStateM.run_bind, EStateM.run_get]
      cases s.query e text threshold count <;> rfl
    rw [hkept]
    exact h

theorem Indexed.afterOperations (h : Indexed s) (operations : List Operation) :
    Indexed (s.afterOperations operations) := by
  induction operations generalizing s with
  | nil => exact h
  | cons operation operations ih => exact ih (h.afterOperation operation)

/-- After any operations on a store that is new or was loaded, the index has the vectors of the documents, all of its dimension.
An upsert then comes to what `DocumentStore.upsert` gives; where that is an error, there is a reason, and nothing has changed. -/
theorem indexed_afterOperations (hs : s = empty ∨ ∃ e path tree, load e path tree = .ok s)
    (operations : List Operation) :
    Indexed (s.afterOperations operations) ∧
      ∀ e id text metadata,
        (∀ s', (s.afterOperations operations).upsert e id text metadata = .ok s' →
          (upsertInPlace e id text metadata).run (s.afterOperations operations) = .ok () s') ∧
        ∀ error, (s.afterOperations operations).upsert e id text metadata = .error error →
          (upsertInPlace e id text metadata).run (s.afterOperations operations) =
            .error error (s.afterOperations operations) ∧
          Refused e (s.afterOperations operations) id text error := by
  have hindexed : Indexed s := by
    rcases hs with rfl | ⟨e, path, tree, hload⟩
    · exact indexed_empty
    · exact indexed_of_load hload
  refine ⟨hindexed.afterOperations operations, ?_⟩
  intro e id text metadata
  have hatomic := upsertInPlace_atomic e id text metadata
  constructor
  · intro s' hupsert
    exact hatomic.run_of_ok (by rw [hupsert]; rfl)
  · intro error hupsert
    exact ⟨hatomic.run_of_error (by rw [hupsert]; rfl), refused_of_upsert_eq_error hupsert⟩

/-- An embedder that gives every text the same vector of two numbers. -/
def Sample.flat : Embedder := ⟨"stub:256", true, fun texts => .ok (texts.map (fun _ => [Single.one, Single.one]))⟩

/-- The document that was loaded has a vector of one number, and keeps its text when it should get another one of two numbers. -/
theorem indexed_afterOperations_refused :
    load .hashed ["index.json"] Sample.tree = .ok Sample.store ∧
      (Sample.store.documents.find? "a").map (fun d => (d.text, d.vector.length)) = some ("alpha", 1) ∧
      (upsertInPlace Sample.flat "a" "beta" Dict.empty).run
          (Sample.store.afterOperations [.upsert Sample.flat "b" "beta" Dict.empty, .remove "c"]) =
        .error (.dimension 1 2)
          (Sample.store.afterOperations [.upsert Sample.flat "b" "beta" Dict.empty, .remove "c"]) := by
  have hrefused : ((Sample.store.afterOperations [.upsert Sample.flat "b" "beta" Dict.empty, .remove "c"]).upsert
      Sample.flat "a" "beta" Dict.empty).map (fun _ => ()) = .error (.dimension 1 2) := by decide +kernel
  refine ⟨Sample.load_tree, by decide +kernel, ?_⟩
  refine (((indexed_afterOperations (.inr ⟨_, _, _, Sample.load_tree⟩) _).2 _ _ _ _).2 _ ?_).1
  cases hupsert : (Sample.store.afterOperations [.upsert Sample.flat "b" "beta" Dict.empty, .remove "c"]).upsert
      Sample.flat "a" "beta" Dict.empty with
  | ok s =>
    rw [hupsert] at hrefused
    cases hrefused
  | error error =>
    rw [hupsert] at hrefused
    cases hrefused
    rfl

end DocumentStore

end Consolidation
