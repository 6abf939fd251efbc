/-
# `Proofs.Python.Chains` — chains of one boolean operator

`a and b and c` is an operator with the same one right below it.  Boolean operators that are linked in this way, however
many and on whichever side, are one chain (`Chained`).  A program that sees a node with the one right above it can count
chains by the operators that do not continue one: there is one of these in every chain (`heads_oneOfEach`), the one that
is reached from any other by going up (`summit`).  Any choice of one place in each chain has as many
(`OneOfEachChain.length_eq`).

The program that counts sees only the kinds of a node and of the one right above it.  The definition of a chain here looks
at the whole tree, and is an equivalence: two operators belong together if a path of links leads from one to the other, up
or down.  What ties the two together is that going up is determined: each operator has at most one above it, so that the
chain of an operator is told by its highest one (`chained_iff`), and the highest ones are those that continue nothing.
-/
import Mathlib.Data.List.Nodup
import Mathlib.Logic.Relation
import Consolidation.Proofs.Python.Places

namespace Consolidation.Python

namespace NodeKind

/-- The boolean operator that a node of a kind is. -/
def operator? : NodeKind → Option BooleanOperator
  | booleanOperator op => some op
  | _ => none

theorem operator?_eq_some_iff {kind : NodeKind} {op : BooleanOperator} :
    kind.operator? = some op ↔ kind = booleanOperator op := by
  constructor
  · intro h
    cases kind <;> cases h
    rfl
  · rintro rfl
    rfl

end NodeKind

namespace Tree

def operatorAt? (t : Tree) (place : List Nat) : Option BooleanOperator := (at? place t).bind (·.kind.operator?)

/-- There is one boolean operator at two places, one right above the other. -/
def Linked (t : Tree) (above below : List Nat) : Prop :=
  ∃ i op, below = above ++ [i] ∧ operatorAt? t above = some op ∧ operatorAt? t below = some op

/-- The boolean operators at two places belong to one chain. -/
def Chained (t : Tree) : List Nat → List Nat → Prop := Relation.EqvGen (Linked t)

/-- These are places of boolean operators, one from each chain of a tree. -/
structure OneOfEachChain (t : Tree) (found : List (List Nat)) : Prop where
  operator : ∀ place ∈ found, (operatorAt? t place).isSome = true
  apart : found.Pairwise (fun place other => ¬ Chained t place other)
  all : ∀ place, (operatorAt? t place).isSome = true → ∃ other ∈ found, Chained t other place

/-- Is the boolean operator at a place also right above it? -/
def continuesChain (t : Tree) (place : List Nat) : Bool :=
  !place.isEmpty && (operatorAt? t place).any (fun op => operatorAt? t place.dropLast == some op)

/-- The highest operator of the chain of the one at a place. -/
def summit (t : Tree) (place : List Nat) : List Nat :=
  if continuesChain t place = true then summit t place.dropLast else place
termination_by place.length
decreasing_by
  rename_i h
  cases place with
  | nil => cases h
  | cons i place =>
    rw [List.length_dropLast]
    exact Nat.lt_succ_self _

/-- The places of the boolean operators that do not continue a chain. -/
def heads (t : Tree) : List (List Nat) :=
  t.places.filter (fun place => (operatorAt? t place).isSome && !continuesChain t place)

section Chains

variable {t : Tree} {place other above below : List Nat}

theorem continuesChain_concat (i : Nat) :
    continuesChain t (place ++ [i]) = (operatorAt? t (place ++ [i])).any (fun op => operatorAt? t place == some op) := by
  rw [continuesChain, List.dropLast_concat]
  cases place <;> rfl

theorem Linked.continues (h : Linked t above below) : continuesChain t below = true ∧ below.dropLast = above := by
  obtain ⟨i, op, rfl, habove, hbelow⟩ := h
  rw [continuesChain_concat, hbelow, List.dropLast_concat, habove]
  exact ⟨BEq.rfl, rfl⟩

theorem linked_dropLast (h : continuesChain t place = true) : Linked t place.dropLast place := by
  rcases List.eq_nil_or_concat' place with rfl | ⟨above, i, rfl⟩
  · cases h
  · rw [continuesChain_concat] at h
    obtain ⟨op, hop, habove⟩ := (Option.any_eq_true _ _).1 h
    rw [List.dropLast_concat]
    exact ⟨i, op, rfl, eq_of_beq habove, hop⟩

theorem continuesChain_iff : continuesChain t place = true ↔ ∃ above, Linked t above place :=
  ⟨fun h => ⟨_, linked_dropLast h⟩, fun ⟨_, h⟩ => h.continues.1⟩

/-! ## The way up -/

theorem summit_of_linked (h : Linked t above below) : summit t below = summit t above := by
  obtain ⟨hcontinues, habove⟩ := h.continues
  rw [summit, if_pos hcontinues, habove]

theorem summit_of_chained (h : Chained t place other) : summit t place = summit t other := by
  induction h with
  | rel place other h => exact (summit_of_linked h).symm
  | refl place => rfl
  | symm place other _ ih => exact ih.symm
  | trans place between other _ _ ih ih' => exact ih.trans ih'

/-- Going up stays in the chain and ends where nothing is continued. -/
theorem summit_spec (t : Tree) (place : List Nat) :
    Chained t (summit t place) place ∧ operatorAt? t (summit t place) = operatorAt? t place ∧
      continuesChain t (summit t place) = false := by
  induction place using summit.induct t with
  | case1 place h ih =>
    obtain ⟨hchained, hoperator, hcontinues⟩ := ih
    have hlinked := linked_dropLast h
    rw [summit, if_pos h]
    refine ⟨hchained.trans _ _ _ (.rel _ _ hlinked), hoperator.trans ?_, hcontinues⟩
    obtain ⟨_, op, -, habove, hplace⟩ := hlinked
    rw [habove, hplace]
  | case2 place h =>
    rw [summit, if_neg h]
    exact ⟨.refl _, rfl, eq_false_of_ne_true h⟩

theorem summit_eq_self (h : continuesChain t place = false) : summit t place = place := by
  rw [summit, if_neg (ne_true_of_eq_false h)]

theorem chained_iff : Chained t place other ↔ summit t place = summit t other := by
  constructor
  · exact summit_of_chained
  · intro h
    have hplace := (summit_spec t place).1
    have hother := (summit_spec t other).1
    rw [← h] at hother
    exact (hplace.symm _ _).trans _ _ _ hother

/-! ## One place in each chain -/

theorem mem_heads_iff : place ∈ heads t ↔ (operatorAt? t place).isSome = true ∧ continuesChain t place = false := by
  have hplaces (h : (operatorAt? t place).isSome = true) : place ∈ t.places := by
    rw [mem_places_iff]
    cases hat : at? place t with
    | none =>
      rw [operatorAt?, hat] at h
      cases h
    | some node => rfl
  rw [heads, List.mem_filter, Bool.and_eq_true, Bool.not_eq_true']
  exact and_iff_right_of_imp fun h => hplaces h.1

theorem nodup_heads (t : Tree) : (heads t).Nodup := by
  refine ((pairwise_places t).imp fun {place other} h => ?_).filter _
  rintro rfl
  exact List.lt_irrefl place h

theorem heads_oneOfEach (t : Tree) : OneOfEachChain t (heads t) where
  operator := fun _ hplace => (mem_heads_iff.1 hplace).1
  apart := by
    refine (nodup_heads t).imp_of_mem fun {place other} hplace hother hne hchained => hne ?_
    rw [chained_iff, summit_eq_self (mem_heads_iff.1 hplace).2, summit_eq_self (mem_heads_iff.1 hother).2] at hchained
    exact hchained
  all := by
    intro place hplace
    obtain ⟨hchained, hoperator, hcontinues⟩ := summit_spec t place
    exact ⟨summit t place, mem_heads_iff.2 ⟨by rw [hoperator]; exact hplace, hcontinues⟩, hchained⟩

/-- The number of chains does not depend on the places that are chosen. -/
theorem OneOfEachChain.length_eq {found : List (List Nat)} (h : OneOfEachChain t found) :
    found.length = (heads t).length := by
  have hnodup : (found.map (summit t)).Nodup :=
    List.pairwise_map.2 (h.apart.imp fun happart heq => happart (chained_iff.2 heq))
  have hmem (place : List Nat) : place ∈ found.map (summit t) ↔ place ∈ heads t := by
    rw [List.mem_map, mem_heads_iff]
    constructor
    · rintro ⟨chosen, hchosen, rfl⟩
      obtain ⟨-, hoperator, hcontinues⟩ := summit_spec t chosen
      exact ⟨by rw [hoperator]; exact h.operator chosen hchosen, hcontinues⟩
    · rintro ⟨hoperator, hcontinues⟩
      obtain ⟨chosen, hchosen, hchained⟩ := h.all place hoperator
      exact ⟨chosen, hchosen, (chained_iff.1 hchained).trans (summit_eq_self hcontinues)⟩
  rw [← ((List.perm_ext_iff_of_nodup hnodup (nodup_heads t)).2 hmem).length_eq, List.length_map]

/-! ## Counting with the kind above -/

/-- Is a node under one of some kind a boolean operator that is not also right above it? -/
def startsChain (entry : NodeKind × Tree) : Bool :=
  entry.2.kind.operator?.any (fun op => entry.1 != .booleanOperator op)

theorem at?_concat (i : Nat) : at? (place ++ [i]) t = (at? place t).bind (·.children[i]?) := by
  rw [← map_snd_entryAt? .module, entryAt?_concat, Option.map_bind]
  refine congrArg _ (funext fun above => ?_)
  show (above.children[i]?.map _).map _ = _
  rw [Option.map_map]
  exact Option.map_id'

theorem startsChain_entryAt? :
    ((entryAt? .module place t).map startsChain).getD false =
      ((operatorAt? t place).isSome && !continuesChain t place) := by
  rcases List.eq_nil_or_concat' place with rfl | ⟨above, i, rfl⟩
  · show startsChain (.module, t) = (t.kind.operator?.isSome && true)
    rw [startsChain]
    cases t.kind.operator? <;> rfl
  · rw [continuesChain_concat, operatorAt?, operatorAt?, entryAt?_concat, at?_concat]
    cases at? above t with
    | none => rfl
    | some node =>
      cases hchild : node.children[i]? with
      | none => simp [hchild]
      | some child =>
        simp only [Option.bind_some, hchild, Option.map_some, Option.getD_some, startsChain]
        cases hop : child.kind.operator? with
        | none => rfl
        | some op =>
          show (node.kind != .booleanOperator op) = !(node.kind.operator? == some op)
          rw [bne, Bool.eq_iff_iff]
          simp [NodeKind.operator?_eq_some_iff]

theorem length_heads (t : Tree) : (heads t).length = (entries .module t).countP startsChain := by
  rw [entries_eq_filterMap, List.countP_filterMap, heads, ← List.countP_eq_length_filter]
  exact List.countP_congr fun place _ => by rw [startsChain_entryAt?]

end Chains

end Tree

end Consolidation.Python
