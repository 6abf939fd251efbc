/-
# `Similarity.VectorIndex` — vectors by identifier

An index holds vectors of one dimension, which the first of them fixes.  A search gives the identifiers
whose vectors are at least so close to a given one, the closest first.
-/
import Consolidation.Collection.Dict
import Consolidation.Embedding.Hashed
import Consolidation.Similarity.StoreError

namespace Consolidation

open Number

/-- An identifier and how close its vector is. -/
structure Hit where
  id : String
  score : Single
deriving DecidableEq

namespace Hit

/-- Does a hit stand before another: closer, or as close with a smaller identifier? -/
def before (a b : Hit) : Bool := b.score.lt a.score || (!a.score.lt b.score && a.id ≤ b.id)

end Hit

structure VectorIndex where
  dimension : Option Nat
  vectors : Dict Embedding

namespace VectorIndex

def empty : VectorIndex := ⟨none, Dict.empty⟩

/-- Fails for a vector of another dimension. -/
def checkDimension (i : VectorIndex) (v : Embedding) : Except StoreError Unit :=
  match i.dimension with
  | some expected =>
    if expected == v.length then .ok () else .error (.dimension expected v.length)
  | none => .ok ()

/-- Adds or replaces the vector of an identifier. -/
def add (i : VectorIndex) (id : String) (v : Embedding) : Except StoreError VectorIndex :=
  match i.checkDimension v with
  | .error error => .error error
  | .ok () => .ok ⟨i.dimension.or (some v.length), i.vectors.insert id v⟩

/-- Removes a vector; the dimension stays. -/
def remove (i : VectorIndex) (id : String) : VectorIndex := { i with vectors := i.vectors.erase id }

/-- The hits whose score reaches a threshold. -/
def hits (i : VectorIndex) (query : Embedding) (threshold : Single) : List Hit :=
  (i.vectors.entries.map (fun e => ⟨e.1, query.cosine e.2⟩)).filter (fun h => threshold.le h.score)

/-- Up to `count` hits, the closest first. -/
def search (i : VectorIndex) (query : Embedding) (count : Nat) (threshold : Single) :
    Except StoreError (List Hit) :=
  if i.vectors.isEmpty then .ok []
  else match i.checkDimension query with
    | .error error => .error error
    | .ok () => .ok (((i.hits query threshold).mergeSort Hit.before).take count)

def size (i : VectorIndex) : Nat := i.vectors.size

def isEmpty (i : VectorIndex) : Bool := i.vectors.isEmpty

end VectorIndex

end Consolidation
