/-
# `Cluster.Basic` — groups of functions that do the same

A cluster has a key, its members in the order of their places, and the member that is the best start for
a common version.
-/
import Consolidation.FunctionRecord

namespace Consolidation

structure Cluster where
  key : String
  members : List FunctionRecord
  /-- The member that is preferred to all others. -/
  canonical : FunctionRecord
deriving DecidableEq, Repr

namespace Cluster

/-- The cluster of one function. -/
def single (key : String) (f : FunctionRecord) : Cluster := ⟨key, [f], f⟩

def size (c : Cluster) : Nat := c.members.length

/-- How the member at a place stands to a function; beyond the last place nothing stands before it. -/
def compareAt (members : List FunctionRecord) (f : FunctionRecord) (place : Nat) : Ordering :=
  match members[place]? with
  | some m => m.locationCompare f
  | none => .gt

/-- Narrows down where a function belongs among the `size` members from the place `base` on, halving them until
one is left.  They have to be in the order of places. -/
def narrow (members : List FunctionRecord) (f : FunctionRecord) (base size : Nat) : Nat :=
  if size ≤ 1 then base
  else
    let middle := base + size / 2
    narrow members f (if compareAt members f middle == .gt then base else middle) (size - size / 2)
termination_by size
decreasing_by omega

/-- The place at which a function belongs among members in the order of places. -/
def slot (members : List FunctionRecord) (f : FunctionRecord) : Nat :=
  let place := narrow members f 0 members.length
  if compareAt members f place == .lt then place + 1 else place

/-- Puts a function into its place in the order of places. -/
def insertMember (f : FunctionRecord) (members : List FunctionRecord) : List FunctionRecord :=
  let place := slot members f
  members.take place ++ f :: members.drop place

def add (c : Cluster) (f : FunctionRecord) : Cluster :=
  { c with
    members := insertMember f c.members
    canonical := if f.canonicalCompare c.canonical == .lt then f else c.canonical }

/-- The preferred one of some functions; of equal ones the first. -/
def best : FunctionRecord → List FunctionRecord → FunctionRecord
  | f, [] => f
  | f, g :: rest => best (if g.canonicalCompare f == .lt then g else f) rest

/-- The cluster without a member; nothing if none is left. -/
def remove (c : Cluster) (id : String) : Option Cluster :=
  match c.members.filter (·.id != id) with
  | [] => none
  | m :: rest =>
    some { c with
      members := m :: rest
      canonical := if c.canonical.id == id then best m rest else c.canonical }

/-- Drops texts that equal the one before. -/
def withoutRepeats : List String → List String
  | [] => []
  | a :: rest =>
    match rest with
    | b :: _ => if a = b then withoutRepeats rest else a :: withoutRepeats rest
    | [] => [a]

/-- The files of the members, in order, each once. -/
def filePaths (c : Cluster) : List String :=
  withoutRepeats ((c.members.map (·.filePath)).mergeSort (· ≤ ·))

end Cluster

end Consolidation
