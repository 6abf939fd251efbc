/-
# `Similarity.Index` — what resembles a text

A similarity index takes texts in under identifiers and tells which of them resemble a text.  `SimilarityIndex`
lists what it has to do, over any type of states.  An operation that fails leaves the state as it
was.  Whether an index is available is decided when it is opened.
-/
import Consolidation.Similarity.DocumentStore

namespace Consolidation

open Number

/-- The operations of a similarity index with states of a type. -/
structure SimilarityIndex (σ : Type) where
  available : Bool
  upsert : σ → (id text : String) → Metadata → Except StoreError σ
  /-- The identifiers of texts that are at least so close to a text, the closest first, up to a number. -/
  query : σ → String → Single → Nat → Except StoreError (List String)
  remove : σ → String → Except StoreError σ
  /-- Writes what has to outlast the state into the tree of files. -/
  persist : σ → Files.Entry → Files.Entry × Except StoreError Unit

namespace SimilarityIndex

/-- The index that is never there. -/
def unavailable : SimilarityIndex Unit where
  available := false
  upsert _ _ _ _ := .error (.unavailable "no similarity backend")
  query _ _ _ _ := .error (.unavailable "no similarity backend")
  remove _ _ := .ok ()
  persist _ tree := (tree, .ok ())

/-- Can an embedder make vectors? -/
def works (e : Embedder) : Bool :=
  e.enabled &&
    match e.probe with
    | .ok _ => true
    | .error _ => false

/-- Goes on if the index is available. -/
def whenAvailable {α : Type} (available : Bool) (result : Except StoreError α) :
    Except StoreError α :=
  if available then result
  else .error (.unavailable "embedding backend did not answer at startup")

/-- The index over a store with an embedder, kept in the file at a path. -/
def ofStore (e : Embedder) (path : Files.Path) : SimilarityIndex DocumentStore :=
  let available := works e
  {
    available := available
    upsert := fun s id text metadata => whenAvailable available (s.upsert e id text metadata)
    query := fun s text threshold count =>
      whenAvailable available ((s.query e text threshold count).map (·.map Hit.id))
    remove := fun s id => .ok (s.remove id)
    persist := fun s tree =>
      if available then s.save e path tree else (tree, .ok ()) }

/-- The state in which the index over a store starts: what is in the file, or nothing if it is to start
fresh or is not available. -/
def storeAt (e : Embedder) (path : Files.Path) (fresh : Bool) (tree : Files.Entry) :
    DocumentStore :=
  if fresh || !works e then .empty else .open? e path tree

end SimilarityIndex

end Consolidation
