/-
# `Run.Grouping` — sorting all functions into clusters

A function that was not extracted in this run keeps its key, if the strategy could have given it.  All others are
assigned after that, in the order of the records; one whose neighbours cannot be looked up
gets the key of functions that look alike.
-/
import Consolidation.Checkpoint.State

namespace Consolidation

/-- A clustering and how it came about. -/
structure Grouping where
  clustering : Clustering
  /-- Functions that kept their keys. -/
  restored : Nat
  assigned : Nat
  /-- Functions among those whose neighbours could not be looked up. -/
  degraded : Nat
deriving DecidableEq

namespace Grouping

/-- Does a text start like a semantic key? -/
def isSemanticKey (key : String) : Bool := Text.startsWith "sem:".toList key.toList

/-- Could a strategy have given a key to a function? -/
def isRestorable (strategy : Strategy) (f : FunctionRecord) (key : String) : Bool :=
  match strategy with
  | .structural => key == structuralKey f
  | .semantic _ _ => isSemanticKey key || key == structuralKey f

/-- The key that a function keeps from an earlier run. -/
def keptKey? (strategy : Strategy) (fresh : TextSet) (memberships : Dict String)
    (f : FunctionRecord) : Option String :=
  if fresh.contains f.id then none
  else (memberships.find? f.id).filter (isRestorable strategy f)

/-- The functions that keep their keys, with them. -/
def keptOf (strategy : Strategy) (fresh : TextSet) (memberships : Dict String)
    (functions : List FunctionRecord) : List (FunctionRecord × String) :=
  functions.filterMap (fun f => (keptKey? strategy fresh memberships f).map (fun key => (f, key)))

/-- The functions that are assigned anew. -/
def pendingOf (strategy : Strategy) (fresh : TextSet) (memberships : Dict String)
    (functions : List FunctionRecord) : List FunctionRecord :=
  functions.filter (fun f => (keptKey? strategy fresh memberships f).isNone)

/-- Puts functions under the keys that they keep. -/
def restore (kept : List (FunctionRecord × String)) : Clustering :=
  kept.foldl (fun c (f, key) => c.insert key f) .empty

/-- Assigns a function, by its looks if its neighbours cannot be looked up. -/
def assignOne (strategy : Strategy) (query : NeighbourQuery) (g : Grouping) (f : FunctionRecord) :
    Grouping :=
  match g.clustering.assign strategy query f with
  | .ok (_, c) => { g with clustering := c, assigned := g.assigned + 1 }
  | .error _ =>
    { g with
      clustering := g.clustering.assignStructural f
      assigned := g.assigned + 1
      degraded := g.degraded + 1 }

/-- Sorts functions into clusters. -/
def ofFunctions (strategy : Strategy) (query : NeighbourQuery) (fresh : TextSet)
    (memberships : Dict String) (functions : List FunctionRecord) : Grouping :=
  let kept := keptOf strategy fresh memberships functions
  (pendingOf strategy fresh memberships functions).foldl (assignOne strategy query)
    ⟨restore kept, kept.length, 0, 0⟩

def summary (g : Grouping) : String :=
  toString g.assigned ++ " assigned, " ++ toString g.restored ++ " restored, " ++
  toString g.clustering.size ++ " clusters" ++
  if 0 < g.degraded then ", " ++ toString g.degraded ++ " fell back to structural keys" else ""

end Grouping

end Consolidation
