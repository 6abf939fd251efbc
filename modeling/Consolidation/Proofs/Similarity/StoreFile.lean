/-
# `Proofs.Similarity.StoreFile` — which stores come back from their file

A component of a vector that is finite is written by its shortest decimal and comes back (`asSingle?_numberToJson`).  One
that is infinite, or no number, is written as nothing, and nothing is no component.  So a store that is saved comes back
with its documents, and answers every query alike, exactly if all components are finite; one component that is not loses
the whole store (`load_save_of_loaded`).  Loading lets such components in: a number that is too large for a single, but
not for a double, is read as infinite.

## What is proved

For every store that was loaded from a file, all calls that change it and every place where it can be saved: if all
components of its vectors are finite, loading it again gives a store with the same documents, which answers every query
alike; otherwise loading fails, and the empty store is opened.

## How it goes

The way from a store to its file and back is told in three steps: the value that is written (`toJson`), what a written
value is read as (`Json.reread`, of `Proofs.Json.Compact`), and what a reader of stores makes of that.  In the value only
the vectors are of interest, so that documents and stores are written here with any value in their place (`membersWith`,
`storeMembersWith`).  A component that is no number spoils its vector, its document and all documents in turn
(`mapM_eq_none`, `asDict?_eq_none`).
-/
import Consolidation.Proofs.Files.Entry
import Consolidation.Proofs.Json.Compact
import Consolidation.Proofs.Json.Record
import Consolidation.Proofs.Number.Rereading
import Consolidation.Proofs.Similarity.StoreIndex

namespace Consolidation

open Number

/-! ## What is read of values that were written -/

namespace Json

theorem data_ofDict {α : Type} {f : α → Json} (h : ∀ a, Data (f a)) (d : Dict α) : Data (ofDict f d) := by
  refine .obj ?_
  intro m hm
  obtain ⟨e, -, rfl⟩ := List.mem_map.1 hm
  exact h e.2

theorem reread_ofDict {α : Type} (f : α → Json) (d : Dict α) :
    reread (ofDict f d) = ofDict (fun a => reread (f a)) d := by
  rw [ofDict, reread, rereadMembers_eq_map, List.map_map]
  rfl

theorem mapM_eq_none {α β : Type} {read : α → Option β} {items : List α} {a : α} (ha : a ∈ items)
    (hread : read a = none) : items.mapM read = none := by
  refine Option.not_isSome_iff_eq_none.1 fun hsome => ?_
  have hsome := isSome_mapM_iff.1 hsome a ha
  rw [hread] at hsome
  cases hsome

theorem asDict?_eq_none {α β : Type} {f : α → Json} {read : Json → Option β} {d : Dict α} {a : α}
    (ha : a ∈ d.values) (hread : read (f a) = none) : asDict? read (ofDict f d) = none := by
  obtain ⟨key, hkey⟩ := Dict.mem_values_iff.1 ha
  have hmember : (key, f a) ∈ d.entries.map (fun e => (e.1, f e.2)) :=
    List.mem_map_of_mem (f := fun e : String × α => (e.1, f e.2)) (Dict.mem_entries_iff.2 hkey)
  have hnone : (d.entries.map (fun e => (e.1, f e.2))).mapM
      (fun m => (read m.2).map (fun v => (m.1, v))) = none :=
    mapM_eq_none hmember (by rw [hread]; rfl)
  rw [ofDict, asDict?, hnone]
  rfl

end Json

namespace DocumentStore

open Consolidation.Json

/-! ## Vectors -/

/-- Exactly the finite components come back. -/
theorem asSingle?_numberToJson (x : Single) :
    asSingle? (reread (numberToJson x)) = if x.isFinite then some x else none := by
  unfold numberToJson
  split
  · next h => exact Decimal.readsBack_of_isFinite h
  · rfl

theorem data_numberToJson (x : Single) : Data (numberToJson x) := by
  unfold numberToJson
  split
  · exact .decimal _
  · exact .null

def FiniteVector (v : Embedding) : Prop := ∀ x ∈ v, x.isFinite = true

/-- What is read of the vector that was written for another. -/
def rereadVector? (v : Embedding) : Option Embedding :=
  asList? asSingle? (arr (v.map (fun x => reread (numberToJson x))))

theorem rereadVector?_of_finite {v : Embedding} (h : FiniteVector v) : rereadVector? v = some v :=
  asList?_arr_iff.2 fun x hx => by rw [asSingle?_numberToJson, if_pos (h x hx)]

theorem rereadVector?_eq_none {v : Embedding} (h : ¬FiniteVector v) : rereadVector? v = none := by
  unfold FiniteVector at h
  push Not at h
  obtain ⟨x, hx, hfinite⟩ := h
  refine mapM_eq_none (List.mem_map_of_mem hx) ?_
  rw [asSingle?_numberToJson, if_neg hfinite]

/-! ## Documents -/

/-- What is written of a document, with any value for its vector. -/
def membersWith (vector : Json) (d : Document) : List (String × Json) := [
  ("id", .str d.id),
  ("text", .str d.text),
  ("metadata", ofDict .str d.metadata),
  ("vector", vector)]

theorem data_document (d : Document) : Data (Document.toJson d) := by
  refine .obj ?_
  simp only [List.forall_mem_cons, List.not_mem_nil, false_implies, implies_true, and_true]
  refine ⟨.str _, .str _, data_ofDict .str _, .arr ?_⟩
  intro j hj
  obtain ⟨x, -, rfl⟩ := List.mem_map.1 hj
  exact data_numberToJson x

theorem reread_document (d : Document) : reread (Document.toJson d) =
    .obj (membersWith (.arr (d.vector.map (fun x => reread (numberToJson x)))) d) := by
  rw [Document.toJson, reread, rereadMembers_eq_map]
  simp only [List.map_cons, List.map_nil, reread_ofDict, reread, rereadItems_eq_map, List.map_map]
  rfl

theorem ofJson?_reread (d : Document) :
    Document.ofJson? (reread (Document.toJson d)) =
      (rereadVector? d.vector).map (fun v => { d with vector := v }) := by
  have hrecord (vector : Json) : record? ["id", "text", "metadata", "vector"] (.obj (membersWith vector d)) =
      some ⟨fun name => (membersWith vector d).lookup name, false⟩ :=
    record?_obj (show ((membersWith vector d).map (·.1)).Nodup by simp [membersWith])
  have hmetadata : asDict? asStr? (ofDict .str d.metadata) = some d.metadata :=
    asDict?_ofDict fun _ _ => rfl
  rw [reread_document, Document.ofJson?, hrecord]
  -- each field finds what was written for it
  show (do
    some {
      id := ← asStr? (.str d.id)
      text := ← asStr? (.str d.text)
      metadata := ← asDict? asStr? (ofDict .str d.metadata)
      vector := ← rereadVector? d.vector : Document }) = _
  rw [hmetadata]
  cases rereadVector? d.vector <;> rfl

/-! ## Stores -/

/-- Are all components of all vectors finite? -/
def FiniteVectors (s : DocumentStore) : Prop := ∀ d ∈ s.documents.values, FiniteVector d.vector

theorem data_store (modelId : String) (s : DocumentStore) : Data (s.toJson modelId) := by
  refine .obj ?_
  simp only [List.forall_mem_cons, List.not_mem_nil, false_implies, implies_true, and_true]
  exact ⟨.nat _, .str _, data_ofDict data_document _⟩

/-- What is read of the documents of a store. -/
def rereadDocuments? (s : DocumentStore) : Option (Dict Document) :=
  asDict? Document.ofJson? (ofDict (fun d => reread (Document.toJson d)) s.documents)

/-- What is written of a store, with any value for its documents. -/
def storeMembersWith (documents : Json) (modelId : String) : List (String × Json) := [
  ("schema_version", .nat formVersion),
  ("model_id", .str modelId),
  ("documents", documents)]

theorem reread_store (modelId : String) (s : DocumentStore) : reread (s.toJson modelId) =
    .obj (storeMembersWith (ofDict (fun d => reread (Document.toJson d)) s.documents) modelId) := by
  rw [toJson, reread, rereadMembers_eq_map]
  simp only [List.map_cons, List.map_nil, reread_ofDict, reread]
  rfl

theorem writtenOfJson?_reread (modelId : String) (s : DocumentStore) :
    Written.ofJson? (reread (s.toJson modelId)) =
      s.rereadDocuments?.map (fun documents => ⟨formVersion, modelId, documents⟩) := by
  have hrecord (documents : Json) : record? ["schema_version", "model_id", "documents"]
      (.obj (storeMembersWith documents modelId)) =
      some ⟨fun name => (storeMembersWith documents modelId).lookup name, false⟩ :=
    record?_obj (show ((storeMembersWith documents modelId).map (·.1)).Nodup by simp [storeMembersWith])
  rw [reread_store, Written.ofJson?, hrecord]
  -- each field finds what was written for it
  show (do
    some {
      version := ← asNatUpTo? maxWord (.nat formVersion)
      modelId := ← asStr? (.str modelId)
      documents := ← s.rereadDocuments? : Written }) = _
  rw [asNatUpTo?_nat (by decide)]
  cases s.rereadDocuments? <;> rfl

theorem rereadDocuments?_of_finite {s : DocumentStore} (h : s.FiniteVectors) :
    s.rereadDocuments? = some s.documents := by
  refine asDict?_ofDict fun d hd => ?_
  rw [ofJson?_reread, rereadVector?_of_finite (h d hd)]
  rfl

theorem rereadDocuments?_eq_none {s : DocumentStore} (h : ¬s.FiniteVectors) : s.rereadDocuments? = none := by
  unfold FiniteVectors at h
  push Not at h
  obtain ⟨d, hd, hfinite⟩ := h
  refine asDict?_eq_none hd ?_
  rw [ofJson?_reread, rereadVector?_eq_none hfinite]
  rfl

/-- The bytes of a store make it again from the documents that come back. -/
theorem ofBytes_toBytes (e : Embedder) (s : DocumentStore) :
    ofBytes e (s.toBytes e.modelId) =
      match s.rereadDocuments? with
      | some documents => ofDocuments documents
      | none => .error .content := by
  rw [ofBytes, toBytes, (data_store e.modelId s).ofBytes?_toBytes, Option.bind_some, writtenOfJson?_reread]
  cases s.rereadDocuments? with
  | none => rfl
  | some documents => simp

/-! ## Files -/

theorem load_save {e : Embedder} {s : DocumentStore} {path : Files.Path} {tree : Files.Entry}
    (h : (s.save e path tree).2 = .ok ()) :
    load e path (s.save e path tree).1 = ofBytes e (s.toBytes e.modelId) := by
  have hsave : (tree.save path (s.toBytes e.modelId)).2 = none := by
    unfold save at h
    split at h
    · next hsaved => rw [hsaved]
    · cases h
  have htree : (s.save e path tree).1 = (tree.save path (s.toBytes e.modelId)).1 := by
    unfold save
    split <;> next hsaved => rw [hsaved]
  rw [load, htree, Files.Entry.read_save hsave]

/-- A store that was saved comes back with its documents, if all components of its vectors are finite. -/
theorem Indexed.load_save {e : Embedder} {s : DocumentStore} {path : Files.Path} {tree : Files.Entry}
    (h : Indexed s) (hsave : (s.save e path tree).2 = .ok ()) (hfinite : s.FiniteVectors) :
    ∃ s', load e path (s.save e path tree).1 = .ok s' ∧ Indexed s' ∧ s'.documents = s.documents := by
  have hback := DocumentStore.load_save hsave
  rw [ofBytes_toBytes, rereadDocuments?_of_finite hfinite] at hback
  obtain ⟨s', hs'⟩ := h.exists_ofDocuments
  exact ⟨s', hback.trans hs', indexed_of_ofDocuments hs'⟩

/-- Otherwise it does not come back. -/
theorem load_save_of_infinite {e : Embedder} {s : DocumentStore} {path : Files.Path} {tree : Files.Entry}
    (hsave : (s.save e path tree).2 = .ok ()) (hfinite : ¬s.FiniteVectors) :
    load e path (s.save e path tree).1 = .error .content := by
  rw [DocumentStore.load_save hsave, ofBytes_toBytes, rereadDocuments?_eq_none hfinite]

/-- A store that was loaded, changed by any calls and saved comes back with its documents, and answers every query alike,
if all components of its vectors are finite.  Otherwise it cannot be loaded, and is opened as the empty store. -/
theorem load_save_of_loaded {e : Embedder} {path path' : Files.Path} {tree tree' : Files.Entry}
    {s : DocumentStore} (hload : load e path tree = .ok s) (calls : List Call)
    (hsave : ((afterCalls e s calls).save e path' tree').2 = .ok ()) :
    ((afterCalls e s calls).FiniteVectors →
        ∃ s', load e path' ((afterCalls e s calls).save e path' tree').1 = .ok s' ∧
          s'.documents = (afterCalls e s calls).documents ∧
          ∀ text threshold count,
            s'.query e text threshold count = (afterCalls e s calls).query e text threshold count) ∧
      (¬(afterCalls e s calls).FiniteVectors →
        load e path' ((afterCalls e s calls).save e path' tree').1 = .error .content ∧
          open? e path' ((afterCalls e s calls).save e path' tree').1 = empty) := by
  have hindexed : Indexed (afterCalls e s calls) := (indexed_of_load hload).afterCalls calls
  generalize afterCalls e s calls = s at *
  constructor
  · intro hfinite
    obtain ⟨s', hload', hindexed', hdocuments⟩ := hindexed.load_save hsave hfinite
    exact ⟨s', hload', hdocuments, hindexed.query_congr hindexed' hdocuments e⟩
  · intro hfinite
    have hback := load_save_of_infinite hsave hfinite
    exact ⟨hback, by rw [open?, hback]⟩

/-! ## A number that is too large for a single -/

namespace Sample

/-- A file with a component that is infinite as a single. -/
def tree : Files.Entry := .folder [("index.json", .file (Json.toBytes (.obj [
  ("schema_version", .nat 1),
  ("model_id", .str "stub:256"),
  ("documents", .obj [("a", .obj [
    ("id", .str "a"),
    ("text", .str "alpha"),
    ("vector", .arr [.num ⟨⟨false, 1, 39⟩, false⟩])])])])))]

def store : DocumentStore := open? .hashed ["index.json"] tree

theorem load_tree : load .hashed ["index.json"] tree = .ok store := by
  have hok : (load .hashed ["index.json"] tree).isOk = true := by decide +kernel
  unfold store open?
  cases h : load .hashed ["index.json"] tree with
  | ok s => rfl
  | error error =>
    rw [h] at hok
    cases hok

theorem store_infinite : ¬(afterCalls .hashed store [.remove "b"]).FiniteVectors := by
  intro h
  have hall : (afterCalls .hashed store [.remove "b"]).documents.values.all
      (fun d => d.vector.all Single.isFinite) = true := by
    rw [List.all_eq_true]
    exact fun d hd => List.all_eq_true.2 (h d hd)
  revert hall
  decide +kernel

end Sample

/-- A store is loaded, and saved after a call, and does not come back. -/
theorem load_save_of_loaded_infinite :
    load .hashed ["index.json"] Sample.tree = .ok Sample.store ∧
      ((afterCalls .hashed Sample.store [.remove "b"]).save .hashed ["index.json"] Sample.tree).2 = .ok () ∧
      load .hashed ["index.json"]
          ((afterCalls .hashed Sample.store [.remove "b"]).save .hashed ["index.json"] Sample.tree).1 =
        .error .content ∧
      open? .hashed ["index.json"]
          ((afterCalls .hashed Sample.store [.remove "b"]).save .hashed ["index.json"] Sample.tree).1 =
        empty := by
  have hsave : ((afterCalls .hashed Sample.store [.remove "b"]).save .hashed ["index.json"] Sample.tree).2 =
      .ok () := by decide
  exact ⟨Sample.load_tree, hsave,
    (load_save_of_loaded Sample.load_tree [.remove "b"] hsave).2 Sample.store_infinite⟩

end DocumentStore

end Consolidation
