/-
# `Embedding.Hashed` — vectors from hashes of words

A word becomes a vector of numbers drawn from a generator that a hash of the word starts, brought to length
one.  A text becomes the sum of the vectors of its words, again of length one, so that texts
with common words lie close together whatever the order of the words.
-/
import Consolidation.Number.Single
import Consolidation.Text.Lines
import Consolidation.Text.Utf8

namespace Consolidation

open Number

/-- A vector of single precision numbers. -/
abbrev Embedding := List Single

namespace Embedding

/-- The length of a vector, rounded at each step. -/
def norm (v : Embedding) : Single := (Single.sum (v.map (fun x => x.mul x))).sqrt

/-- The sum of the products of the numbers of two vectors. -/
def dot (a b : Embedding) : Single := Single.sum ((a.zip b).map (fun (x, y) => x.mul y))

/-- A vector of the same direction and of length one; the zero vector stays. -/
def normalized (v : Embedding) : Embedding :=
  let length := v.norm
  if length.eq Single.zero then v else v.map (fun x => x.div length)

/-- The cosine of the angle between two vectors; zero if one of them is zero, or if they are of different
dimensions. -/
def cosine (a b : Embedding) : Single :=
  if a.length != b.length then Single.zero
  else
    let normA := a.norm
    let normB := b.norm
    if normA.eq Single.zero || normB.eq Single.zero then Single.zero
    else (dot a b).div (normA.mul normB)

end Embedding

namespace HashedEmbedding

/-- The number of components. -/
def dimension : Nat := 256

/-- The constant by which the generator goes on. -/
def increment : UInt64 := 0x9E3779B97F4A7C15

/-- A hash of some bytes: each is mixed in and the result spread by a multiplication. -/
def hash (bytes : List UInt8) : UInt64 :=
  bytes.foldl (fun h b => (h ^^^ b.toUInt64) * 0x100000001b3) 0xcbf29ce484222325

/-- Scrambles the bits of a state. -/
def scramble (z : UInt64) : UInt64 :=
  let z := (z ^^^ (z >>> 30)) * 0xBF58476D1CE4E5B9
  let z := (z ^^^ (z >>> 27)) * 0x94D049BB133111EB
  z ^^^ (z >>> 31)

/-- A number from minus one up to one, from the upper bits. -/
def component (bits : UInt64) : Single :=
  Single.ofSigned false (2 * ((bits.toNat >>> 41 : Nat) : Int) - 0x800000) 0x800000

/-- The numbers that the generator draws from a state. -/
def draws : Nat → UInt64 → Embedding
  | 0, _ => []
  | n + 1, state =>
    let state := state + increment
    component (scramble state) :: draws n state

/-- The vector of one word. -/
def ofWord (word : List Char) : Embedding :=
  let seed := hash (Text.Utf8.encode word) ^^^ (dimension.toUInt64 * increment)
  Embedding.normalized (draws dimension seed)

/-- The vector of a text; one without words counts as a word. -/
def ofText (text : List Char) : Embedding :=
  match Text.fields text with
  | [] => ofWord text
  | words =>
    let zero : Embedding := List.replicate dimension Single.zero
    Embedding.normalized (words.foldl (fun acc w => acc.zipWith Single.add (ofWord w)) zero)

end HashedEmbedding

end Consolidation
