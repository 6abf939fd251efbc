/-
# `Toml.Table` — tables while they are read

A table comes into being under its own header, on the way to the header of another one, or by dotted keys.
That decides who may still add to it: a header takes over a table that only lay on the way, dotted
keys add to tables that lay on the way or that dotted keys made, and nobody gives a key
twice.  A list of tables is open at its last one.
-/
import Consolidation.Toml.Basic

namespace Consolidation.Toml

/-- How a table came into being. -/
inductive Origin where
  | header
  /-- On the way to the header of another table. -/
  | way
  | dotted
deriving DecidableEq, Repr

/-- What stands under a key while a file is read. -/
inductive Node where
  | closed (value : Toml)
  | opened (origin : Origin) (members : List (String × Node))
  /-- Tables under a repeated header. -/
  | repeated (elements : List (List (String × Node)))

namespace Node

/-- The members of a table. -/
abbrev Members := List (String × Node)

/-- Gives a key another node. -/
def replace (key : String) (node : Node) (members : Members) : Members :=
  members.map (fun m => if m.1 = key then (key, node) else m)

/-- Changes the table that keys lead to, making the tables on the way that are missing; `byDots` says whether
the keys are those of a dotted key. -/
def change (byDots : Bool) (f : Origin → Members → Option Members) :
    List String → Origin → Members → Option Members
  | [], origin, members => f origin members
  | key :: rest, _, members =>
    match members.lookup key with
    | none =>
      let origin := if byDots then .dotted else .way
      (change byDots f rest origin []).map (fun inner => members ++ [(key, opened origin inner)])
    | some (closed _) => none
    | some (opened origin inner) =>
      if byDots && origin == .header then none
      else (change byDots f rest origin inner).map
        (fun inner => replace key (opened origin inner) members)
    | some (repeated elements) =>
      match elements.getLast? with
      | none => none
      | some inner => (change byDots f rest .header inner).map
        (fun inner => replace key (repeated (elements.dropLast ++ [inner])) members)

/-- Gives a value to a dotted key in a table. -/
def insert (path : List String) (key : String) (value : Toml) (origin : Origin) (members : Members) :
    Option Members :=
  change true (fun origin members =>
    if (origin == .dotted) == path.isEmpty || (members.lookup key).isSome then none
    else some (members ++ [(key, closed value)])) path origin members

/-- Opens a table under its own header. -/
def openTable (path : List String) (key : String) (root : Members) : Option Members :=
  change false (fun _ members =>
    match members.lookup key with
    | none => some (members ++ [(key, opened .header [])])
    | some (opened .way inner) => some (replace key (opened .header inner) members)
    | some _ => none) path .header root

/-- Opens one more table under a repeated header. -/
def openElement (path : List String) (key : String) (root : Members) : Option Members :=
  change false (fun _ members =>
    match members.lookup key with
    | none => some (members ++ [(key, repeated [[]])])
    | some (repeated elements) => some (replace key (repeated (elements ++ [[]])) members)
    | some _ => none) path .header root

mutual

/-- The value of a node. -/
def value : Node → Toml
  | closed v => v
  | opened _ members => .table (valuesOf members)
  | repeated elements => .list (tablesOf elements)

def valuesOf : List (String × Node) → List (String × Toml)
  | [] => []
  | (key, node) :: rest => (key, node.value) :: valuesOf rest

def tablesOf : List (List (String × Node)) → List Toml
  | [] => []
  | members :: rest => .table (valuesOf members) :: tablesOf rest

end

end Node

end Consolidation.Toml
