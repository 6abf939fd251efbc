/-
# `Proofs.Python.Decisions` — the definitions of a tree, and how their complexities add up

Every definition of a tree is reported once, in the order of places (`definitions_reported`).  Its complexity is counted
from kinds, each with the kind above it, and comes out as a number that is told without them:

| part of the count | what it numbers |
| :-- | :-- |
| `isBranch` | the branching statements below the definition |
| `startsChain` | the chains of one boolean operator there (`Proofs.Python.Chains`) |

A visit that does not go into nested definitions (`shallow`) splits the count: the decisions that it passes are the
definition's own, and the others are what the outermost of the nested definitions count (`decisions_eq_shallow`).

## What is proved

For every tree and every source: the reported definitions are those that a visit with a stack comes to, in the order in
which it comes to them; and they are those at the places of the tree where there is a definition, each once, in the order
of places.  Each report is what is read of its definition, with a complexity that is one more than the branching
statements and the chains below it.  And complexities add up: a definition counts its own decisions and, for each of the
outermost definitions inside it, what that one counts beyond the one from which it starts (`Reported`).

Decisions are branching statements and heads of chains.  A node is not both, and a definition is neither
(`countP_decides`, `decisions_of_isDefinition`).

## How it goes

The stack of the visit is told by `Unstacked` (`Proofs.Python.Places`); that it comes to each node once, before those
below it, makes a search over the places of it.  The complexity is told by places as well: a place below a definition is
its own, or lies below one of the outermost definitions inside it (`complexity_eq_owned`).
-/
import Mathlib.Algebra.BigOperators.Group.List.Basic
import Mathlib.Algebra.GroupWithZero.Nat
import Consolidation.Python.Definition
import Consolidation.Proofs.Python.Chains

namespace Consolidation.Python

namespace NodeKind

def isBranch : NodeKind → Bool
  | ifStatement => true
  | elifClause => true
  | whileStatement => true
  | forStatement => true
  | _ => false

end NodeKind

namespace Tree

/-- Does a node under one of some kind add a decision? -/
def decides (entry : NodeKind × Tree) : Bool := NodeKind.isDecision entry.1 entry.2.kind

def branches (t : Tree) : Nat := t.preorder.countP (·.kind.isBranch)

def isDefinition (t : Tree) : Bool := t.kind == .functionDefinition && (t.child? .identifier).isSome

section Counts

variable {t : Tree}

/-! ## What the count numbers -/

theorem decisionsAll_eq (parent : NodeKind) (trees : List Tree) :
    decisionsAll parent trees = (trees.map (decisions parent)).sum := by
  induction trees with
  | nil => rfl
  | cons t trees ih => rw [decisionsAll, ih, List.map_cons, List.sum_cons]

theorem decisions_eq_countP (t : Tree) : ∀ parent, decisions parent t = (entries parent t).countP decides := by
  induction t using childInduction with
  | node kind extent children ih =>
    intro parent
    rw [decisions, decisionsAll_eq, entries, entriesAll_eq, List.flatMap_map, List.countP_cons, List.countP_flatMap,
      List.map_congr_left fun c hc => ih c hc kind, Nat.add_comm]
    rfl

theorem complexity_eq_countP (t : Tree) :
    t.complexity = 1 + (t.under.flatMap (fun entry => entries entry.1 entry.2)).countP decides := by
  rw [complexity, decisionsAll_eq, under, List.flatMap_map, List.countP_flatMap,
    List.map_congr_left fun c _ => decisions_eq_countP c t.kind]
  rfl

theorem decides_eq (entry : NodeKind × Tree) : decides entry = (entry.2.kind.isBranch || startsChain entry) := by
  obtain ⟨parent, kind, extent, children⟩ := entry
  cases kind <;> rfl

theorem not_isBranch_of_startsChain {entry : NodeKind × Tree} (h : startsChain entry = true) :
    entry.2.kind.isBranch = false := by
  obtain ⟨op, hop, -⟩ := (Option.any_eq_true _ _).1 h
  rw [NodeKind.operator?_eq_some_iff.1 hop]
  rfl

/-- A decision is a branching statement or the head of a chain, and not both. -/
theorem countP_decides (visited : List (NodeKind × Tree)) :
    visited.countP decides = visited.countP (·.2.kind.isBranch) + visited.countP startsChain := by
  induction visited with
  | nil => rfl
  | cons entry visited ih =>
    rw [List.countP_cons, List.countP_cons, List.countP_cons, ih, decides_eq]
    cases hstarts : startsChain entry with
    | false =>
      rw [Bool.or_false, if_neg Bool.false_ne_true]
      omega
    | true =>
      rw [Bool.or_true, if_pos rfl, not_isBranch_of_startsChain hstarts, if_neg Bool.false_ne_true]
      omega

theorem decisions_module (t : Tree) : decisions .module t = t.branches + (heads t).length := by
  rw [decisions_eq_countP, countP_decides, length_heads, branches, ← map_snd_entries t .module, List.countP_map]
  rfl

/-- `if a and b and c or d:` is three decisions: the statement and two chains. -/
example (e : Extent) :
    let first := node (.booleanOperator .and) e [node (.booleanOperator .and) e []]
    decisions .module (node .ifStatement e [node (.booleanOperator .or) e [first]]) = 3 := rfl

theorem kind_of_isDefinition (h : t.isDefinition = true) : t.kind = .functionDefinition :=
  eq_of_beq (Bool.and_eq_true_iff.1 h).1

theorem decisions_of_isDefinition (h : t.isDefinition = true) (parent : NodeKind) :
    decisions parent t = t.complexity - 1 := by
  cases t with
  | node kind extent children =>
    obtain rfl : kind = .functionDefinition := kind_of_isDefinition h
    rw [decisions, complexity, Nat.add_sub_cancel_left]
    exact Nat.zero_add _

theorem complexity_le (t : Tree) : t.complexity ≤ t.preorder.length := by
  have hcount := List.countP_le_length (p := decides) (l := t.under.flatMap (fun entry => entries entry.1 entry.2))
  rw [complexity_eq_countP, ← map_snd_entries t .module, List.length_map, entries_eq, List.length_cons]
  omega

end Counts

/-! ## Nested definitions -/

/-- A definition is above a place of a tree. -/
def Enclosed (t : Tree) (place : List Nat) : Prop :=
  ∃ above g, above <+: place ∧ above ≠ place ∧ at? above t = some g ∧ g.isDefinition = true

/-- A place below a definition is its own: no definition is above it in the child that it leads to.  Where a definition
is nested in it directly its place is its own, and those below are not. -/
def Own (f : Tree) (place : List Nat) : Prop :=
  ∃ i c rest, place = i :: rest ∧ f.children[i]? = some c ∧ ¬ Enclosed c rest

/-- The node at a place of a tree that no definition is above. -/
def shallow? (parent : NodeKind) : List Nat → Tree → Option (NodeKind × Tree)
  | [], t => some (parent, t)
  | i :: place, t => if t.isDefinition then none else t.children[i]?.bind (shallow? t.kind place)

/-- The nodes of a tree that no definition is above. -/
def shallow (parent : NodeKind) (t : Tree) : List (NodeKind × Tree) := t.places.filterMap (shallow? parent · t)

/-- The node at an own place of a definition. -/
def own? (f : Tree) : List Nat → Option (NodeKind × Tree)
  | [] => none
  | i :: place => f.children[i]?.bind (shallow? f.kind place)

/-- What definitions count beyond the one that each of them starts from. -/
def countedIn (source : List Char) (visited : List (NodeKind × Tree)) : Nat :=
  ((visited.filterMap (·.2.definition? source)).map (·.complexity - 1)).sum

section Nested

variable {source : List Char} {parent kind : NodeKind} {t f : Tree} {extent : Extent} {children : List Tree} {i : Nat}
  {place : List Nat} {entry : NodeKind × Tree}

theorem definition?_of_not_isDefinition (h : t.isDefinition = false) : t.definition? source = none := by
  rw [isDefinition] at h
  rw [definition?, bne]
  cases hkind : t.kind == .functionDefinition with
  | false => rfl
  | true =>
    rw [hkind, Bool.true_and] at h
    rw [Option.not_isSome_iff_eq_none.1 (ne_true_of_eq_false h)]
    rfl

theorem exists_definition? (source : List Char) (h : t.isDefinition = true) :
    ∃ d, t.definition? source = some d ∧ d.complexity = t.complexity := by
  obtain ⟨hkind, hname⟩ := Bool.and_eq_true_iff.1 h
  obtain ⟨name, hname⟩ := Option.isSome_iff_exists.1 hname
  rw [definition?, bne, hkind, hname]
  exact ⟨_, rfl, rfl⟩

theorem enclosed_cons_iff :
    Enclosed t (i :: place) ↔ t.isDefinition = true ∨ ∃ c, t.children[i]? = some c ∧ Enclosed c place := by
  constructor
  · rintro ⟨above, g, hprefix, hne, hg, hdefinition⟩
    rcases List.prefix_cons_iff.1 hprefix with rfl | ⟨rest, rfl, hrest⟩
    · obtain rfl := Option.some.inj hg
      exact .inl hdefinition
    · obtain ⟨c, hc, hg⟩ := Option.bind_eq_some_iff.1 hg
      exact .inr ⟨c, hc, rest, g, hrest, fun heq => hne (congrArg _ heq), hg, hdefinition⟩
  · rintro (hdefinition | ⟨c, hc, above, g, hprefix, hne, hg, hdefinition⟩)
    · exact ⟨[], t, List.nil_prefix, List.cons_ne_nil _ _ |>.symm, rfl, hdefinition⟩
    · have hat : at? (i :: above) t = some g := by
        rw [at?, hc]
        exact hg
      exact ⟨i :: above, g, List.cons_prefix_cons.2 ⟨rfl, hprefix⟩, fun heq => hne (List.cons.inj heq).2, hat, hdefinition⟩

theorem shallow?_eq_some_iff :
    shallow? parent place t = some entry ↔ entryAt? parent place t = some entry ∧ ¬ Enclosed t place := by
  induction place generalizing parent t with
  | nil =>
    refine (and_iff_left ?_).symm
    rintro ⟨above, g, hprefix, hne, -⟩
    exact hne (List.prefix_nil.1 hprefix)
  | cons i place ih =>
    rw [shallow?, entryAt?, enclosed_cons_iff]
    cases hdefinition : t.isDefinition with
    | true => simp
    | false =>
      cases hc : t.children[i]? with
      | none => simp
      | some c => simpa using ih

theorem own?_eq_some_iff : own? f place = some entry ↔ entryAt? .module place f = some entry ∧ Own f place := by
  cases place with
  | nil =>
    refine iff_of_false nofun fun h => ?_
    obtain ⟨i, c, rest, heq, -⟩ := h.2
    cases heq
  | cons i place =>
    rw [own?, entryAt?, Option.bind_eq_some_iff, Option.bind_eq_some_iff]
    constructor
    · rintro ⟨c, hc, hentry⟩
      obtain ⟨hentry, houter⟩ := shallow?_eq_some_iff.1 hentry
      exact ⟨⟨c, hc, hentry⟩, i, c, place, rfl, hc, houter⟩
    · rintro ⟨⟨c, hc, hentry⟩, j, c', rest, heq, hc', houter⟩
      obtain ⟨rfl, rfl⟩ := List.cons.inj heq
      obtain rfl := Option.some.inj (hc.symm.trans hc')
      exact ⟨c, hc, shallow?_eq_some_iff.2 ⟨hentry, houter⟩⟩

theorem shallow_node :
    shallow parent (node kind extent children) =
      (parent, node kind extent children) ::
        if (node kind extent children).isDefinition then [] else children.flatMap (shallow kind) := by
  cases hdefinition : (node kind extent children).isDefinition with
  | true =>
    have hnone (i : Nat) (c : Tree) (place : List Nat) (_ : children[i]? = some c) :
        shallow? parent (i :: place) (node kind extent children) = none := by
      rw [shallow?, hdefinition]
      rfl
    rw [shallow, filterMap_places _ (fun _ _ => none) hnone]
    simp [shallow?]
  | false =>
    have hbelow (i : Nat) (c : Tree) (place : List Nat) (hc : children[i]? = some c) :
        shallow? parent (i :: place) (node kind extent children) = shallow? kind place c := by
      rw [shallow?, hdefinition, Tree.children, hc]
      rfl
    rw [shallow, filterMap_places _ (fun c place => shallow? kind place c) hbelow]
    rfl

theorem countedIn_append (visited visited' : List (NodeKind × Tree)) :
    countedIn source (visited ++ visited') = countedIn source visited + countedIn source visited' := by
  rw [countedIn, List.filterMap_append, List.map_append, List.sum_append]
  rfl

theorem countedIn_cons_of_not_isDefinition {visited : List (NodeKind × Tree)} (h : entry.2.isDefinition = false) :
    countedIn source (entry :: visited) = countedIn source visited := by
  rw [countedIn, List.filterMap_cons, definition?_of_not_isDefinition h]
  rfl

theorem countedIn_singleton (h : entry.2.isDefinition = true) : countedIn source [entry] = entry.2.complexity - 1 := by
  obtain ⟨d, hd, hcomplexity⟩ := exists_definition? source h
  rw [countedIn, List.filterMap_cons, hd, ← hcomplexity]
  rfl

theorem decisionsAll_eq_shallow {trees : List Tree} (kind : NodeKind)
    (h : ∀ t ∈ trees, decisions kind t = (shallow kind t).countP decides + countedIn source (shallow kind t)) :
    decisionsAll kind trees =
      (trees.flatMap (shallow kind)).countP decides + countedIn source (trees.flatMap (shallow kind)) := by
  induction trees with
  | nil => rfl
  | cons t trees ih =>
    obtain ⟨ht, htrees⟩ := List.forall_mem_cons.1 h
    rw [decisionsAll, ht, ih htrees, List.flatMap_cons, List.countP_append, countedIn_append]
    omega

/-- What a tree adds to the count is what the nodes add that no definition is above, and what the definitions among
these count themselves. -/
theorem decisions_eq_shallow (source : List Char) (t : Tree) :
    ∀ parent, decisions parent t = (shallow parent t).countP decides + countedIn source (shallow parent t) := by
  induction t using childInduction with
  | node kind extent children ih =>
    intro parent
    rw [shallow_node]
    cases hdefinition : (node kind extent children).isDefinition with
    | true =>
      obtain rfl : kind = .functionDefinition := kind_of_isDefinition hdefinition
      rw [decisions_of_isDefinition hdefinition, if_pos rfl, countedIn_singleton hdefinition]
      exact (Nat.zero_add _).symm
    | false =>
      have hdecides : decides (parent, node kind extent children) = NodeKind.isDecision parent kind := rfl
      rw [if_neg Bool.false_ne_true, countedIn_cons_of_not_isDefinition hdefinition, List.countP_cons, hdecides, decisions,
        decisionsAll_eq_shallow kind fun c hc => ih c hc kind]
      omega

end Nested

/-! ## What is reported -/

/-- These are the places of which something holds, in order. -/
structure PlacesWhere (holds : List Nat → Prop) (found : List (List Nat)) : Prop where
  ordered : found.Pairwise (· < ·)
  mem_iff : ∀ place, place ∈ found ↔ holds place

def DefinitionAt (t : Tree) (place : List Nat) : Prop := ∃ f, at? place t = some f ∧ f.isDefinition = true

/-- There is a branching statement at a place, or a boolean operator with no other one of its chain right above it. -/
def DecisionAt (t : Tree) (place : List Nat) : Prop :=
  (∃ node, at? place t = some node ∧ node.kind.isBranch = true) ∨
    ((operatorAt? t place).isSome = true ∧ ∀ above, ¬ Linked t above place)

/-- What a report says of a definition, and how its complexity comes about. -/
structure Reported (source : List Char) (f : Tree) (d : Definition) : Prop where
  draft : f.definition? source = some d
  /-- The count that a visit with a stack comes to. -/
  counted : ∃ visited, Unstacked f.under visited ∧ d.complexity = 1 + visited.countP decides
  chains : ∃ found, OneOfEachChain f found
  complexity : ∀ found, OneOfEachChain f found → d.complexity = 1 + f.branches + found.length
  additive : ∃ own nested,
    PlacesWhere (fun place => Own f place ∧ DecisionAt f place) own ∧
      PlacesWhere (fun place => Own f place ∧ DefinitionAt f place) nested ∧
      d.complexity - 1 =
        own.length + (((nested.filterMap (at? · f)).filterMap (definition? source)).map (·.complexity - 1)).sum
  /-- It is a number of four bytes where a tree has no more nodes than these can number. -/
  bounded : d.complexity ≤ f.preorder.length

section Reports

variable {source : List Char} {t f : Tree} {place : List Nat} {entry : NodeKind × Tree} {d : Definition}

theorem mem_places_of_entryAt? {parent : NodeKind} (h : entryAt? parent place t = some entry) : place ∈ t.places := by
  rw [mem_places_iff, ← map_snd_entryAt? parent, h]
  rfl

theorem placesWhere_filter {holds : List Nat → Prop} {test : List Nat → Bool}
    (h : ∀ place, test place = true ↔ holds place) (hplaces : ∀ place, holds place → place ∈ t.places) :
    PlacesWhere holds (t.places.filter test) where
  ordered := (pairwise_places t).filter test
  mem_iff := by
    intro place
    rw [List.mem_filter, h]
    exact and_iff_right_of_imp (hplaces place)

theorem definitionAt_iff :
    DefinitionAt t place ↔ ∃ entry, entryAt? .module place t = some entry ∧ entry.2.isDefinition = true := by
  rw [DefinitionAt, ← map_snd_entryAt? .module]
  cases entryAt? .module place t with
  | none => simp
  | some entry => simp

theorem decisionAt_iff :
    DecisionAt t place ↔ ∃ entry, entryAt? .module place t = some entry ∧ decides entry = true := by
  have hheads : ((operatorAt? t place).isSome = true ∧ ∀ above, ¬ Linked t above place) ↔
      ((entryAt? .module place t).map startsChain).getD false = true := by
    rw [startsChain_entryAt?, Bool.and_eq_true, Bool.not_eq_true', ← Bool.not_eq_true, continuesChain_iff, not_exists]
  rw [DecisionAt, hheads, ← map_snd_entryAt? .module]
  cases entryAt? .module place t with
  | none => simp
  | some entry => simp [decides_eq]

/-! ### The own nodes of a definition -/

/-- The nodes at the own places of a definition. -/
def owned (f : Tree) : List (NodeKind × Tree) := f.places.filterMap (own? f)

/-- The own places of a definition that have a node of some sort. -/
def ownPlaces (test : NodeKind × Tree → Bool) (f : Tree) : List (List Nat) :=
  f.places.filter (fun place => (own? f place).any test)

theorem owned_eq (f : Tree) : f.owned = f.children.flatMap (shallow f.kind) := by
  cases f with
  | node kind extent children =>
    refine filterMap_places (own? (node kind extent children)) (fun c place => shallow? kind place c) ?_
    intro i c place hc
    rw [own?, Tree.children, hc]
    rfl

theorem placesWhere_ownPlaces {holds : List Nat → Prop} {test : NodeKind × Tree → Bool}
    (h : ∀ place, holds place ↔ ∃ entry, entryAt? .module place f = some entry ∧ test entry = true) :
    PlacesWhere (fun place => Own f place ∧ holds place) (ownPlaces test f) := by
  refine placesWhere_filter (fun place => ?_) fun place hplace => ?_
  · rw [Option.any_eq_true, h]
    constructor
    · rintro ⟨entry, hentry, htest⟩
      obtain ⟨hentry, hown⟩ := own?_eq_some_iff.1 hentry
      exact ⟨hown, entry, hentry, htest⟩
    · rintro ⟨hown, entry, hentry, htest⟩
      exact ⟨entry, own?_eq_some_iff.2 ⟨hentry, hown⟩, htest⟩
  · obtain ⟨entry, hentry, -⟩ := (h place).1 hplace.2
    exact mem_places_of_entryAt? hentry

theorem countP_owned (test : NodeKind × Tree → Bool) (f : Tree) : f.owned.countP test = (ownPlaces test f).length := by
  rw [owned, List.countP_filterMap, ownPlaces, ← List.countP_eq_length_filter]
  refine List.countP_congr fun place _ => ?_
  cases own? f place <;> rfl

theorem countedIn_owned (source : List Char) (f : Tree) :
    countedIn source f.owned =
      ((((ownPlaces (·.2.isDefinition) f).filterMap (at? · f)).filterMap (definition? source)).map
        (·.complexity - 1)).sum := by
  rw [countedIn, owned, ownPlaces, List.filterMap_filterMap, List.filterMap_filterMap, List.filterMap_filter]
  refine congrArg (fun found : List Definition => (found.map (·.complexity - 1)).sum)
    (List.filterMap_congr fun place _ => ?_)
  cases hown : own? f place with
  | none => rfl
  | some entry =>
    have hat : at? place f = some entry.2 := by
      rw [← map_snd_entryAt? .module, (own?_eq_some_iff.1 hown).1]
      rfl
    rw [Option.any_some, hat, Option.bind_some, Option.bind_some]
    cases hdefinition : entry.2.isDefinition with
    | true => rfl
    | false => exact definition?_of_not_isDefinition hdefinition

/-- The complexity is made of what a definition counts at its own nodes, and of what the definitions among these count. -/
theorem complexity_eq_owned (source : List Char) (f : Tree) :
    f.complexity - 1 = f.owned.countP decides + countedIn source f.owned := by
  rw [complexity, Nat.add_sub_cancel_left, owned_eq]
  exact decisionsAll_eq_shallow f.kind fun c _ => decisions_eq_shallow source c f.kind

/-! ### The definitions of a tree -/

theorem reported_of_isDefinition (h : f.isDefinition = true) (hd : f.definition? source = some d) : Reported source f d := by
  obtain ⟨d', hd', hcomplexity⟩ := exists_definition? source h
  obtain rfl := Option.some.inj (hd.symm.trans hd')
  refine ⟨hd, ⟨_, unstacked_iff.2 rfl, ?_⟩, ⟨_, heads_oneOfEach f⟩, fun found hfound => ?_,
    ⟨ownPlaces decides f, ownPlaces (·.2.isDefinition) f, ?_, ?_, ?_⟩, ?_⟩
  · rw [hcomplexity, complexity_eq_countP]
  · have hcount := decisions_of_isDefinition h .module
    rw [decisions_module, complexity, Nat.add_sub_cancel_left] at hcount
    rw [hcomplexity, complexity, hfound.length_eq, Nat.add_assoc, hcount]
  · exact placesWhere_ownPlaces fun _ => decisionAt_iff
  · exact placesWhere_ownPlaces fun _ => definitionAt_iff
  · rw [hcomplexity, complexity_eq_owned source, countedIn_owned, countP_owned]
  · rw [hcomplexity]
    exact complexity_le f

theorem forall₂_filterMap {α β : Type} (find : α → Option β) (l : List α) :
    List.Forall₂ (fun a b => find a = some b) (l.filter (fun a => (find a).isSome)) (l.filterMap find) := by
  induction l with
  | nil => exact .nil
  | cons a l ih =>
    cases ha : find a with
    | none =>
      rw [List.filterMap_cons_none ha, List.filter_cons_of_neg (by rw [ha]; exact Bool.false_ne_true)]
      exact ih
    | some b =>
      rw [List.filterMap_cons_some ha, List.filter_cons_of_pos (by rw [ha]; rfl)]
      exact .cons ha ih

theorem definitions_eq_filterMap (source : List Char) (t : Tree) :
    t.definitions source = t.places.filterMap (fun place => (at? place t).bind (definition? source)) := by
  rw [definitions, preorder_eq_filterMap, List.filterMap_filterMap]

theorem isSome_definition? (source : List Char) (t : Tree) : (t.definition? source).isSome = t.isDefinition := by
  cases hdefinition : t.isDefinition with
  | true =>
    obtain ⟨d, hd, -⟩ := exists_definition? source hdefinition
    rw [hd]
    rfl
  | false =>
    rw [definition?_of_not_isDefinition hdefinition]
    rfl

theorem isSome_bind_definition? :
    ((at? place t).bind (definition? source)).isSome = true ↔ DefinitionAt t place := by
  rw [Option.isSome_bind, Option.any_eq_true]
  simp only [isSome_definition?]
  rfl

/-- **What a visit reports of the definitions in a tree.**  There is one report for each place of a named definition, in the
order of places.  Its complexity is one more than the number of branching statements and of chains of one boolean operator
in the definition; beyond the one it is the number of the definition's own decisions and what the outermost of the
definitions nested in it have beyond theirs. -/
theorem definitions_reported (source : List Char) (t : Tree) :
    (∃ visited, Unstacked [(.module, t)] visited ∧
      t.definitions source = visited.filterMap (·.2.definition? source)) ∧
    ∃ found, PlacesWhere (DefinitionAt t) found ∧
      List.Forall₂ (fun place d => ∃ f, at? place t = some f ∧ Reported source f d) found (t.definitions source) := by
  refine ⟨⟨_, unstacked_iff.2 rfl, ?_⟩,
    t.places.filter (fun place => ((at? place t).bind (definition? source)).isSome), ?_, ?_⟩
  · rw [List.flatMap_singleton, definitions, ← map_snd_entries t .module, List.filterMap_map]
    rfl
  · refine placesWhere_filter (fun place => isSome_bind_definition?) fun place hplace => ?_
    obtain ⟨f, hf, -⟩ := hplace
    rw [mem_places_iff, hf]
    rfl
  · rw [definitions_eq_filterMap]
    refine (forall₂_filterMap _ t.places).imp fun place d hd => ?_
    obtain ⟨f, hf, hd⟩ := Option.bind_eq_some_iff.1 hd
    have hdefinition : f.isDefinition = true := by
      rw [← isSome_definition? source, hd]
      rfl
    exact ⟨f, hf, reported_of_isDefinition hdefinition hd⟩

end Reports

end Tree

end Consolidation.Python
