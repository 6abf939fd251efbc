/-
# `Similarity.DocumentStore` — texts with their vectors

A store keeps documents by identifier, each with the vector of its text, and an index of the vectors.  An
embedder makes the vectors when documents come in; one whose text has not changed keeps its
vector.  A store is written to a file as JSON, and only an embedder of the same model reads it back.
-/
import Consolidation.Embedding.Embedder
import Consolidation.Similarity.VectorIndex

namespace Consolidation

open Number

/-- What else is known of a document. -/
abbrev Metadata := Dict String

structure Document where
  id : String
  text : String
  metadata : Metadata
  vector : Embedding

structure DocumentStore where
  documents : Dict Document
  index : VectorIndex

namespace DocumentStore

def empty : DocumentStore := ⟨Dict.empty, .empty⟩

def size (s : DocumentStore) : Nat := s.documents.size

/-- Adds a document with its vector. -/
def add (s : DocumentStore) (id : String) (d : Document) : Except StoreError DocumentStore :=
  match s.index.add id d.vector with
  | .error error => .error error
  | .ok index => .ok ⟨s.documents.insert id d, index⟩

/-- Inserts a document or replaces the one of the same identifier. -/
def upsert (e : Embedder) (s : DocumentStore) (id text : String) (metadata : Metadata) :
    Except StoreError DocumentStore :=
  let embedded : Except StoreError DocumentStore :=
    match e.embed text with
    | .error error => .error error
    | .ok vector => s.add id ⟨id, text, metadata, vector⟩
  match s.documents.find? id with
  | some d =>
    if d.text == text then
      .ok { s with documents := s.documents.insert id { d with metadata := metadata } }
    else embedded
  | none => embedded

def remove (s : DocumentStore) (id : String) : DocumentStore :=
  ⟨s.documents.erase id, s.index.remove id⟩

/-- Up to `count` documents whose vectors are close to that of a text, the closest first. -/
def query (e : Embedder) (s : DocumentStore) (text : String) (threshold : Single) (count : Nat) :
    Except StoreError (List Hit) :=
  if s.index.isEmpty || count == 0 then .ok []
  else match e.embed text with
    | .error error => .error error
    | .ok vector => s.index.search vector count threshold

/-! ## The file of a store -/

open Consolidation.Json

/-- The version of the form in which stores are written. -/
def formVersion : Nat := 1

/-- A number of a vector; what is not finite has no form of its own. -/
def numberToJson (x : Single) : Json :=
  if x.isFinite then .num ⟨.shortest x, false⟩ else .null

def Document.toJson (d : Document) : Json := .obj [
  ("id", .str d.id),
  ("text", .str d.text),
  ("metadata", ofDict .str d.metadata),
  ("vector", .arr (d.vector.map numberToJson))]

def Document.ofJson? (j : Json) : Option Document := do
  let r ← record? ["id", "text", "metadata", "vector"] j
  some {
    id := ← r.required "id" asStr?
    text := ← r.required "text" asStr?
    metadata := ← r.withDefault "metadata" (asDict? asStr?) Dict.empty
    vector := ← r.required "vector" (asList? asSingle?) }

/-- A store in its written form, made by a model. -/
def toJson (modelId : String) (s : DocumentStore) : Json := .obj [
  ("schema_version", .nat formVersion),
  ("model_id", .str modelId),
  ("documents", ofDict Document.toJson s.documents)]

def toBytes (modelId : String) (s : DocumentStore) : List UInt8 := (s.toJson modelId).toBytes

/-- A written store: its version, its model and its documents. -/
structure Written where
  version : Nat
  modelId : String
  documents : Dict Document

def Written.ofJson? (j : Json) : Option Written := do
  let r ← record? ["schema_version", "model_id", "documents"] j
  some {
    version := ← r.required "schema_version" (asNatUpTo? maxWord)
    modelId := ← r.required "model_id" asStr?
    documents := ← r.required "documents" (asDict? Document.ofJson?) }

/-- A store with these documents, in the order of their identifiers. -/
def ofDocuments (documents : Dict Document) : Except StoreError DocumentStore :=
  documents.entries.foldlM (fun s e => s.add e.1 e.2) empty

/-- The store that bytes write.  One that was made by another model comes back empty. -/
def ofBytes (e : Embedder) (bytes : List UInt8) : Except StoreError DocumentStore :=
  match (ofBytes? bytes).bind Written.ofJson? with
  | none => .error .content
  | some w =>
    if w.version != formVersion then
      .error (.index ("Unsupported vector store schema_version " ++ toString w.version ++
        " (expected " ++ toString formVersion ++ ")"))
    else if w.modelId != e.modelId then .ok empty
    else ofDocuments w.documents

/-- The store in a file. -/
def load (e : Embedder) (path : Files.Path) (tree : Files.Entry) : Except StoreError DocumentStore :=
  match tree.read path with
  | .error fault => .error (.file fault)
  | .ok bytes => ofBytes e bytes

/-- The store in a file; an empty one if there is none that can be read. -/
def open? (e : Embedder) (path : Files.Path) (tree : Files.Entry) : DocumentStore :=
  match load e path tree with
  | .ok s => s
  | .error _ => empty

/-- Writes a store to a file. -/
def save (e : Embedder) (s : DocumentStore) (path : Files.Path) (tree : Files.Entry) :
    Files.Entry × Except StoreError Unit :=
  match tree.save path (s.toBytes e.modelId) with
  | (tree, none) => (tree, .ok ())
  | (tree, some fault) => (tree, .error (.file fault))

end DocumentStore

end Consolidation
