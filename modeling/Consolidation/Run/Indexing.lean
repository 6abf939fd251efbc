/-
# `Run.Indexing` — bringing a similarity index up to date

Functions that are gone leave the index, and every recorded function with keywords is put into it, in the order of
the records.  The first one that cannot be put in ends that; otherwise the index is
made to last.
-/
import Consolidation.Run.Inventory
import Consolidation.Similarity.Index

namespace Consolidation

/-- The files and the state of the index. -/
structure World (σ : Type) where
  files : Files.Entry
  index : σ

namespace SimilarityIndex

variable {σ : Type}

/-- Takes functions out of an index; that one cannot be taken out does not matter. -/
def removeAll (index : SimilarityIndex σ) (ids : List String) (state : σ) : σ :=
  ids.foldl (fun state id =>
    match index.remove state id with
    | .ok state => state
    | .error _ => state) state

/-- What an index is told of a function besides its keywords. -/
def metadataOf (f : FunctionRecord) : Metadata :=
  Dict.ofList [
    ("file_path", f.filePath), ("name", f.name), ("line", toString f.lineNumber)]

/-- Puts functions into an index up to the first that cannot be put in. -/
def upsertAll (index : SimilarityIndex σ) : List FunctionRecord → σ → σ × Option StoreError
  | [], state => (state, none)
  | f :: rest, state =>
    match index.upsert state f.id f.contextKeywords (metadataOf f) with
    | .ok state => upsertAll index rest state
    | .error error => (state, some error)

/-- The functions that are looked up by their keywords. -/
def searchable (functions : List FunctionRecord) : List FunctionRecord :=
  functions.filter (fun f => !f.contextKeywords.isEmpty)

/-- Brings an index up to date with an inventory, and says what went wrong. -/
def update (index : SimilarityIndex σ) (keywords : Bool) (i : Inventory) (w : World σ) :
    World σ × Option StoreError :=
  let state := index.removeAll i.gone w.index
  if !index.available || !keywords then ({ w with index := state }, none)
  else
    match index.upsertAll (searchable i.checkpoint.allFunctions) state with
    | (state, some error) => ({ w with index := state }, some error)
    | (state, none) =>
      match index.persist state w.files with
      | (files, .ok ()) => (⟨files, state⟩, none)
      | (files, .error error) => (⟨files, state⟩, some error)

end SimilarityIndex

end Consolidation
