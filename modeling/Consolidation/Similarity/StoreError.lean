/-
# `Similarity.StoreError` — why texts cannot be compared

Everything that can go wrong between a text and the texts that resemble it: no vector for it, no place to keep
it, nothing to compare with.
-/
import Consolidation.Files.Entry

namespace Consolidation

inductive StoreError where
  /-- No vector could be made of a text. -/
  | embedding (reason : String)
  | index (reason : String)
  | unavailable (reason : String)
  | dimension (expected actual : Nat)
  | settings (reason : String)
  | file (fault : Files.FileFault)
  /-- The file of a store holds something else. -/
  | content
  /-- A server did not answer, or not in the form expected. -/
  | http
deriving DecidableEq, Repr

namespace StoreError

def message : StoreError → String
  | embedding reason => "Embedding error: " ++ reason
  | index reason => "Index error: " ++ reason
  | unavailable reason => "Similarity index unavailable: " ++ reason
  | dimension expected actual =>
    "Invalid vector dimension: expected " ++ toString expected ++ ", got " ++ toString actual
  | settings reason => "Invalid configuration: " ++ reason
  | file fault => "IO error: " ++ fault.message
  | content => "Serialization error: unexpected content"
  | http => "HTTP error: request failed"

end StoreError

end Consolidation
