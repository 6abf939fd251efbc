/-
# `Embedding.Embedder` — what makes vectors of texts

An embedder makes vectors of a batch of texts, all or none.  One that asks a server checks that it gets a
vector for each text: the vectors come in the order of the texts, or each with the place of
its text.
-/
import Consolidation.Embedding.Hashed
import Consolidation.Embedding.Settings
import Consolidation.Http
import Consolidation.Json.Record

namespace Consolidation

open Number

/-- What makes vectors of texts. -/
structure Embedder where
  /-- Names the space of the vectors; those of another space mean nothing in this one. -/
  modelId : String
  enabled : Bool
  embedBatch : List String → Except StoreError (List Embedding)

namespace Embedder

/-- The vector of one text. -/
def embed (e : Embedder) (text : String) : Except StoreError Embedding :=
  match e.embedBatch [text] with
  | .error error => .error error
  | .ok vectors =>
    match vectors.getLast? with
    | some v => .ok v
    | none => .error (.embedding "Empty embedding result")

/-- The dimension of the vectors, if they can be made. -/
def probe (e : Embedder) : Except StoreError Nat :=
  match e.embed "consolidator probe" with
  | .error error => .error error
  | .ok [] => .error (.embedding "Embedding backend returned an empty vector")
  | .ok v => .ok v.length

end Embedder

/-! ## Servers -/

namespace EmbeddingServer

open Consolidation.Json

/-- Where requests go. -/
def url (s : EmbeddingSettings) : String :=
  withoutSlashes s.endpoint ++
    match s.provider with
    | .ollama => "/api/embed"
    | .openAi => "/v1/embeddings"

def request (s : EmbeddingSettings) (texts : List String) : HttpRequest :=
  ⟨url s, s.token, .obj [("model", .str s.model), ("input", strs texts)]⟩

/-- The vectors of an answer that gives them in the order of the texts. -/
def ofOrdered? (j : Json) : Option (List Embedding) := do
  let r ← record? ["embeddings"] j
  r.required "embeddings" (asList? (asList? asSingle?))

/-- A vector and the place of its text. -/
structure PlacedVector where
  vector : Embedding
  place : Nat

def PlacedVector.ofJson? (j : Json) : Option PlacedVector := do
  let r ← record? ["embedding", "index"] j
  some {
    vector := ← r.required "embedding" (asList? asSingle?)
    place := ← r.required "index" (asNatUpTo? maxLong) }

/-- Vectors in the order of their places. -/
def inOrder (vectors : List PlacedVector) : List Embedding :=
  (vectors.mergeSort (fun a b => a.place ≤ b.place)).map (·.vector)

/-- The vectors of an answer that gives their places. -/
def ofPlaced? (j : Json) : Option (List Embedding) := do
  let r ← record? ["data"] j
  (r.required "data" (asList? PlacedVector.ofJson?)).map inOrder

def ofAnswer? (provider : Provider) (body : List UInt8) : Option (List Embedding) :=
  (ofBytes? body).bind
    (match provider with
      | .ollama => ofOrdered?
      | .openAi => ofPlaced?)

/-- The vectors that a reply gives for some texts. -/
def ofReply (s : EmbeddingSettings) (texts : List String) :
    HttpReply → Except StoreError (List Embedding)
  | .answered status body =>
    if !Http.isSuccess status then
      .error (.embedding (url s ++ " returned " ++ toString status ++ ": " ++
        String.ofList (Text.Utf8.decodeLossy body)))
    else match ofAnswer? s.provider body with
      | none => .error .http
      | some vectors =>
        if vectors.length == texts.length then .ok vectors
        else .error (.embedding ("Expected " ++ toString texts.length ++ " embeddings, got " ++
          toString vectors.length))
  | _ => .error .http

end EmbeddingServer

namespace Embedder

/-- The embedder that hashes words. -/
def hashed : Embedder where
  modelId := "stub:" ++ toString HashedEmbedding.dimension
  enabled := true
  embedBatch texts := .ok (texts.map (fun t => HashedEmbedding.ofText t.toList))

/-- The embedder that makes no vectors. -/
def off : Embedder where
  modelId := "off"
  enabled := false
  embedBatch texts :=
    if texts.isEmpty then .ok [] else .error (.unavailable "embeddings are disabled")

/-- The embedder that asks a server. -/
def remote (transport : Transport) (s : EmbeddingSettings) : Embedder where
  modelId := "http:" ++ s.model
  enabled := true
  embedBatch texts :=
    if texts.isEmpty then .ok []
    else EmbeddingServer.ofReply s texts (Http.post transport (EmbeddingServer.request s texts))

/-- The embedder that settings ask for. -/
def ofSettings (transport : Transport) (s : EmbeddingSettings) : Embedder :=
  match s.mode with
  | .http => remote transport s
  | .hashed => hashed
  | .off => off

end Embedder

end Consolidation
