/-
# `Cluster.Clustering` — functions sorted into clusters

A clustering knows the clusters by their keys, and the key of each function.  A function is assigned to a
cluster once and keeps its key; it may be moved or removed, and a cluster without members vanishes.
-/
import Consolidation.Cluster.Basic
import Consolidation.Cluster.Key
import Consolidation.Cluster.Strategy
import Consolidation.Collection.Dict
import Consolidation.Similarity.StoreError

namespace Consolidation

open Number

/-- Tells which functions are close to a text: at least so close, and up to a number. -/
abbrev NeighbourQuery := String → Single → Nat → Except StoreError (List String)

structure Clustering where
  clusters : Dict Cluster
  memberships : Dict String
deriving DecidableEq

namespace Clustering

def empty : Clustering := ⟨Dict.empty, Dict.empty⟩

/-- Takes a function out of its cluster. -/
def remove (c : Clustering) (id : String) : Clustering :=
  match c.memberships.find? id with
  | none => c
  | some key =>
    { clusters := match c.clusters.find? key with
        | none => c.clusters
        | some cluster =>
          match cluster.remove id with
          | some rest => c.clusters.insert key rest
          | none => c.clusters.erase key
      memberships := c.memberships.erase id }

/-- Puts a function that is in no cluster under a key. -/
def place (c : Clustering) (key : String) (f : FunctionRecord) : Clustering :=
  { clusters := match c.clusters.find? key with
      | some cluster => c.clusters.insert key (cluster.add f)
      | none => c.clusters.insert key (.single key f)
    memberships := c.memberships.insert f.id key }

/-- Puts a function under a key, out of any other cluster. -/
def insert (c : Clustering) (key : String) (f : FunctionRecord) : Clustering :=
  match c.memberships.find? f.id with
  | some previous => if previous = key then c else (c.remove f.id).place key f
  | none => c.place key f

/-- The number of neighbours asked for, one more than are wanted since a function is close to itself; it
is a number of eight bytes. -/
def neighbourCount (count : Nat) : Nat := (count + 1) % 0x10000000000000000

/-- The key of the first of some neighbours that has one, the function itself apart. -/
def donatedKey? (c : Clustering) (id : String) (neighbours : List String) : Option String :=
  (neighbours.filter (· != id)).findSome? c.memberships.find?

/-- The key of a function by what it is about. -/
def semanticKeyFor (query : NeighbourQuery) (threshold : Single) (count : Nat) (c : Clustering)
    (f : FunctionRecord) : Except StoreError String :=
  if f.contextKeywords.isEmpty then .ok (structuralKey f)
  else match query f.contextKeywords threshold (neighbourCount count) with
    | .error error => .error error
    | .ok neighbours =>
      .ok ((c.donatedKey? f.id neighbours).getD (semanticKey f.contextKeywords))

/-- The key that a strategy gives to a function. -/
def keyFor (strategy : Strategy) (query : NeighbourQuery) (c : Clustering) (f : FunctionRecord) :
    Except StoreError String :=
  match strategy with
  | .semantic threshold count => c.semanticKeyFor query threshold count f
  | .structural => .ok (structuralKey f)

/-- Assigns a function by a strategy; one that has a key keeps it.  Gives the key. -/
def assign (strategy : Strategy) (query : NeighbourQuery) (c : Clustering) (f : FunctionRecord) :
    Except StoreError (String × Clustering) :=
  match c.memberships.find? f.id with
  | some key => .ok (key, c)
  | none =>
    match c.keyFor strategy query f with
    | .error error => .error error
    | .ok key => .ok (key, c.insert key f)

/-- Puts a function under the key of functions that look alike. -/
def assignStructural (c : Clustering) (f : FunctionRecord) : Clustering :=
  c.insert (structuralKey f) f

/-- The clusters with more than one member, by key. -/
def shared (c : Clustering) : List Cluster := c.clusters.values.filter (fun k => 1 < k.size)

def size (c : Clustering) : Nat := c.clusters.size

/-- The keys, each with the files of its members. -/
def layout (c : Clustering) : List (String × List String) :=
  c.clusters.values.map (fun k => (k.key, k.filePaths))

end Clustering

end Consolidation
