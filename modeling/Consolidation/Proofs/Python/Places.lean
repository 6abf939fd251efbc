/-
# `Proofs.Python.Places` — a tree visited with a stack, and the places of its nodes

A tree can be visited with a stack of nodes: the one on top is visited, and the nodes below it take its place, the first
one on top (`Unstacked`).  That comes to an end for every stack (`unstacked_iff`) and visits the nodes tree by tree, each
before the ones below it.

The place of a node is the list of the numbers of the children that lead to it.  A visit comes to every place once
(`mem_places_iff`), in the order of places (`pairwise_places`), which is that of the source: a node stands before all
below it, and all below it before its later siblings.

| notion | the same told otherwise |
| :-- | :-- |
| the nodes of a tree, each before those below it | what `at?` finds at the places, in order (`preorder_eq_filterMap`) |
| the same with the kind above each | what `entryAt?` finds there (`entries_eq_filterMap`) |
| what a visit with a stack comes to | the nodes of the trees on the stack, one tree after the other (`unstacked_iff`) |

Facts about nodes are so turned into facts about places, which are lists of numbers and can be compared: that every node
is visited once, and that one lies below another, is said of places only.
-/
import Mathlib.Data.List.Basic
import Consolidation.Python.Tree

namespace Consolidation.Python.Tree

/-- What holds of a node if it holds of its children holds of all trees. -/
@[elab_as_elim]
theorem childInduction {motive : Tree → Prop}
    (node : ∀ kind extent children, (∀ c ∈ children, motive c) → motive (node kind extent children)) :
    ∀ t, motive t
  | .node kind extent children => node kind extent children fun c hc =>
      have : sizeOf c < sizeOf (Tree.node kind extent children) := by
        have := List.sizeOf_lt_of_mem hc
        simp only [Tree.node.sizeOf_spec]
        omega
      childInduction node c
termination_by t => sizeOf t

theorem preorderAll_eq (trees : List Tree) : preorderAll trees = trees.flatMap preorder := by
  induction trees with
  | nil => rfl
  | cons t trees ih => rw [preorderAll, ih, List.flatMap_cons]

theorem preorder_node (kind : NodeKind) (extent : Extent) (children : List Tree) :
    preorder (node kind extent children) = node kind extent children :: children.flatMap preorder := by
  rw [preorder, preorderAll_eq]

/-! ## Visits with a stack -/

def under (t : Tree) : List (NodeKind × Tree) := t.children.map (fun c => (t.kind, c))

/-- What is visited from a stack of nodes, each with the kind of the node above it: the node on top, and then what is
visited when the nodes right below it have taken its place. -/
inductive Unstacked : List (NodeKind × Tree) → List (NodeKind × Tree) → Prop
  | done : Unstacked [] []
  | pop {parent : NodeKind} {t : Tree} {stack visited : List (NodeKind × Tree)}
      (h : Unstacked (t.under ++ stack) visited) : Unstacked ((parent, t) :: stack) ((parent, t) :: visited)

mutual

/-- The nodes of a tree under a node of some kind, each before the ones below it. -/
def entries (parent : NodeKind) : Tree → List (NodeKind × Tree)
  | node kind extent children => (parent, node kind extent children) :: entriesAll kind children

def entriesAll (parent : NodeKind) : List Tree → List (NodeKind × Tree)
  | [] => []
  | t :: rest => entries parent t ++ entriesAll parent rest

end

section Visits

variable {parent : NodeKind} {t : Tree} {stack visited visited' : List (NodeKind × Tree)}

theorem entriesAll_eq (kind : NodeKind) (children : List Tree) :
    entriesAll kind children = (children.map (fun c => (kind, c))).flatMap (fun entry => entries entry.1 entry.2) := by
  induction children with
  | nil => rfl
  | cons c children ih => rw [entriesAll, ih, List.map_cons, List.flatMap_cons]

theorem entries_eq (parent : NodeKind) (t : Tree) :
    entries parent t = (parent, t) :: t.under.flatMap (fun entry => entries entry.1 entry.2) := by
  cases t with
  | node kind extent children => rw [entries, entriesAll_eq, under, Tree.children, Tree.kind]

theorem map_snd_entries (t : Tree) : ∀ parent, (entries parent t).map (·.2) = t.preorder := by
  induction t using childInduction with
  | node kind extent children ih =>
    intro parent
    rw [entries_eq, List.map_cons, preorder_node, under, List.map_flatMap, List.flatMap_map]
    exact congrArg _ (List.flatMap_congr fun c hc => ih c hc kind)

/-- What is visited first is the node on top with all below it. -/
theorem Unstacked.entries_append (h : Unstacked stack visited) :
    ∀ t parent, Unstacked ((parent, t) :: stack) (entries parent t ++ visited) := by
  intro t
  induction t using childInduction generalizing stack visited with
  | node kind extent children ih =>
    intro parent
    rw [entries_eq]
    refine .pop ?_
    show Unstacked (children.map (fun c => (kind, c)) ++ stack)
      ((children.map (fun c => (kind, c))).flatMap (fun entry => entries entry.1 entry.2) ++ visited)
    clear parent
    induction children with
    | nil => exact h
    | cons c children ihc =>
      have hrest := ihc fun c' hc' => ih c' (List.mem_cons_of_mem _ hc')
      have hfirst := ih c List.mem_cons_self hrest kind
      rw [List.map_cons, List.flatMap_cons, List.append_assoc]
      exact hfirst

theorem Unstacked.unique (h : Unstacked stack visited) (h' : Unstacked stack visited') : visited = visited' := by
  induction h generalizing visited' with
  | done =>
    cases h'
    rfl
  | pop _ ih =>
    cases h' with
    | pop h' => rw [ih h']

/-- A visit from a stack comes to an end, with the nodes of each tree on it. -/
theorem unstacked_iff :
    Unstacked stack visited ↔ visited = stack.flatMap (fun entry => entries entry.1 entry.2) := by
  have hall : Unstacked stack (stack.flatMap (fun entry => entries entry.1 entry.2)) := by
    induction stack with
    | nil => exact .done
    | cons entry stack ih => exact ih.entries_append entry.2 entry.1
  constructor
  · exact fun h => h.unique hall
  · rintro rfl
    exact hall

end Visits

/-! ## Places -/

def at? : List Nat → Tree → Option Tree
  | [], t => some t
  | i :: place, t => t.children[i]?.bind (at? place)

/-- The node at a place of a tree under a node of some kind, with the kind of the node right above it. -/
def entryAt? (parent : NodeKind) : List Nat → Tree → Option (NodeKind × Tree)
  | [], t => some (parent, t)
  | i :: place, t => t.children[i]?.bind (entryAt? t.kind place)

mutual

/-- The places of a tree, each before those below it. -/
def places : Tree → List (List Nat)
  | node _ _ children => [] :: placesFrom 0 children

/-- The places of children from the one of a number on. -/
def placesFrom (number : Nat) : List Tree → List (List Nat)
  | [] => []
  | t :: rest => t.places.map (number :: ·) ++ placesFrom (number + 1) rest

end

section Places

variable {parent : NodeKind} {t : Tree} {place : List Nat} {number : Nat} {trees : List Tree}

theorem map_snd_entryAt? (parent : NodeKind) : (entryAt? parent place t).map (·.2) = at? place t := by
  induction place generalizing parent t with
  | nil => rfl
  | cons i place ih =>
    rw [entryAt?, at?, Option.map_bind]
    exact congrArg _ (funext fun c => ih t.kind)

theorem entryAt?_concat (i : Nat) :
    entryAt? parent (place ++ [i]) t =
      (at? place t).bind (fun above => above.children[i]?.map (fun c => (above.kind, c))) := by
  induction place generalizing parent t with
  | nil =>
    show t.children[i]?.bind (fun c => some (t.kind, c)) = t.children[i]?.map (fun c => (t.kind, c))
    rw [Option.map_eq_bind]
    rfl
  | cons j place ih =>
    rw [List.cons_append, entryAt?, at?, Option.bind_assoc]
    exact congrArg _ (funext fun c => ih)

theorem mem_placesFrom_iff :
    place ∈ placesFrom number trees ↔
      ∃ i t rest, place = (number + i) :: rest ∧ trees[i]? = some t ∧ rest ∈ t.places := by
  induction trees generalizing number with
  | nil => simp [placesFrom]
  | cons t trees ih =>
    rw [placesFrom, List.mem_append, ih, List.mem_map]
    constructor
    · rintro (⟨rest, hrest, rfl⟩ | ⟨i, t', rest, rfl, ht', hrest⟩)
      · exact ⟨0, t, rest, rfl, rfl, hrest⟩
      · exact ⟨i + 1, t', rest, by rw [Nat.add_assoc, Nat.add_comm 1], ht', hrest⟩
    · rintro ⟨i, t', rest, rfl, ht', hrest⟩
      cases i with
      | zero =>
        obtain rfl := Option.some.inj ht'
        exact .inl ⟨rest, hrest, rfl⟩
      | succ i => exact .inr ⟨i, t', rest, by rw [Nat.add_assoc, Nat.add_comm 1], ht', hrest⟩

/-- The places of a tree are those that have a node. -/
theorem mem_places_iff : place ∈ t.places ↔ (at? place t).isSome = true := by
  induction place generalizing t with
  | nil =>
    cases t with
    | node kind extent children => simp [places, at?]
  | cons i place ih =>
    cases t with
    | node kind extent children =>
      rw [places, List.mem_cons, mem_placesFrom_iff, at?, Tree.children, Option.isSome_bind]
      constructor
      · rintro (h | ⟨j, t, rest, h, ht, hrest⟩)
        · cases h
        · obtain ⟨rfl, rfl⟩ := List.cons.inj h
          rw [Nat.zero_add, ht]
          exact ih.1 hrest
      · intro h
        cases ht : children[i]? with
        | none =>
          rw [ht] at h
          cases h
        | some t =>
          rw [ht] at h
          exact .inr ⟨i, t, place, by rw [Nat.zero_add], ht, ih.2 h⟩

theorem pairwise_placesFrom (h : ∀ t ∈ trees, t.places.Pairwise (· < ·)) :
    (placesFrom number trees).Pairwise (· < ·) := by
  induction trees generalizing number with
  | nil => exact .nil
  | cons t trees ih =>
    obtain ⟨ht, htrees⟩ := List.forall_mem_cons.1 h
    rw [placesFrom]
    refine List.pairwise_append.2 ⟨?_, ih htrees, ?_⟩
    · exact List.pairwise_map.2 (ht.imp fun hlt => List.cons_lt_cons_iff.2 (.inr ⟨rfl, hlt⟩))
    · intro place hplace later hlater
      obtain ⟨rest, -, rfl⟩ := List.mem_map.1 hplace
      obtain ⟨i, -, rest', rfl, -⟩ := mem_placesFrom_iff.1 hlater
      exact List.cons_lt_cons_iff.2 (.inl (by omega))

/-- The places of a tree come up in order, and so each of them once. -/
theorem pairwise_places (t : Tree) : t.places.Pairwise (· < ·) := by
  induction t using childInduction with
  | node kind extent children ih =>
    rw [places]
    refine List.pairwise_cons.2 ⟨fun place hplace => ?_, pairwise_placesFrom ih⟩
    obtain ⟨i, -, rest, rfl, -⟩ := mem_placesFrom_iff.1 hplace
    exact List.nil_lt_cons _ _

theorem filterMap_placesFrom {β : Type} {find : List Nat → Option β} {findIn : Tree → List Nat → Option β}
    (h : ∀ i t place, trees[i]? = some t → find ((number + i) :: place) = findIn t place) :
    (placesFrom number trees).filterMap find = trees.flatMap (fun t => t.places.filterMap (findIn t)) := by
  induction trees generalizing number with
  | nil => rfl
  | cons t trees ih =>
    have hfirst (place : List Nat) : find (number :: place) = findIn t place := h 0 t place rfl
    have hrest (i : Nat) (t' : Tree) (place : List Nat) (ht' : trees[i]? = some t') :
        find ((number + 1 + i) :: place) = findIn t' place := by
      rw [Nat.add_assoc, Nat.add_comm 1]
      exact h (i + 1) t' place ht'
    rw [placesFrom, List.filterMap_append, List.filterMap_map, ih hrest, List.flatMap_cons]
    exact congrArg (· ++ _) (List.filterMap_congr fun place _ => hfirst place)

theorem filterMap_places {β : Type} {kind : NodeKind} {extent : Extent} {children : List Tree}
    (find : List Nat → Option β) (findIn : Tree → List Nat → Option β)
    (h : ∀ i c place, children[i]? = some c → find (i :: place) = findIn c place) :
    (node kind extent children).places.filterMap find =
      (find []).toList ++ children.flatMap (fun c => c.places.filterMap (findIn c)) := by
  have hfrom (i : Nat) (c : Tree) (place : List Nat) (hc : children[i]? = some c) :
      find ((0 + i) :: place) = findIn c place := by
    rw [Nat.zero_add]
    exact h i c place hc
  rw [places, List.filterMap_cons, filterMap_placesFrom hfrom]
  cases find [] <;> rfl

theorem entries_eq_filterMap (t : Tree) : ∀ parent, entries parent t = t.places.filterMap (entryAt? parent · t) := by
  induction t using childInduction with
  | node kind extent children ih =>
    intro parent
    have hchild (i : Nat) (c : Tree) (place : List Nat) (hc : children[i]? = some c) :
        entryAt? parent (i :: place) (node kind extent children) = entryAt? kind place c := by
      show children[i]?.bind (entryAt? kind place) = entryAt? kind place c
      rw [hc]
      rfl
    rw [entries, entriesAll_eq, List.flatMap_map, filterMap_places _ (fun c place => entryAt? kind place c) hchild]
    exact congrArg _ (List.flatMap_congr fun c hc => ih c hc kind)

theorem preorder_eq_filterMap (t : Tree) : t.preorder = t.places.filterMap (at? · t) := by
  rw [← map_snd_entries t .module, entries_eq_filterMap, List.map_filterMap]
  exact List.filterMap_congr fun place _ => map_snd_entryAt? .module

end Places

end Consolidation.Python.Tree
