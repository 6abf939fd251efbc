/-
# `Proofs.Cluster.Calls` — clusterings after any sequence of calls

A clustering is made by calls that assign, insert and remove functions, in any order and whatever a similarity index
answers.  After any such sequence it is what its two maps say (`Represented`), spelled out:

| | |
| :-- | :-- |
| keys | a function has a key exactly when the cluster under the key has one member of its identifier and no other cluster has any |
| clusters | none is empty, and each carries the key under which it is kept |
| members | strictly in the order of files, lines and identifiers |
| canonical member | a member that is preferred to every other one |

So where each identifier always comes with the same function, the keys that a sequence of calls ends with say everything:
another sequence that ends with the same keys ends with the same clusters.

## What is proved

For every sequence of calls: the clustering that they make is `Represented`; and for every other sequence, if all
functions in both are the records of their identifiers and both end with the same keys, the two clusterings are equal.

Answers of the index are part of a call, and may be anything, failures included.  Without the condition on identifiers
keys do not say everything, since two functions of one identifier can be told apart in a cluster.
-/
import Consolidation.Proofs.Cluster.Coherence

namespace Consolidation.Clustering

inductive Call where
  /-- Assigns a function with a strategy; a similarity index gives the answers or fails. -/
  | assign (strategy : Strategy) (query : NeighbourQuery) (f : FunctionRecord)
  | assignStructural (f : FunctionRecord)
  | insert (key : String) (f : FunctionRecord)
  | remove (id : String)

namespace Call

/-- The clustering after a call; an assignment that fails leaves it as it is. -/
def apply (c : Clustering) : Call → Clustering
  | assign strategy query f =>
    match c.assign strategy query f with
    | .ok (_, c') => c'
    | .error _ => c
  | assignStructural f => c.assignStructural f
  | insert key f => c.insert key f
  | remove id => c.remove id

def function? : Call → Option FunctionRecord
  | assign _ _ f => some f
  | assignStructural f => some f
  | insert _ f => some f
  | remove _ => none

end Call

def afterCalls (calls : List Call) : Clustering := calls.foldl Call.apply empty

/-! ## What a call does -/

variable {c : Clustering}

/-- An assignment gives the function a key if it has none, and changes nothing else. -/
theorem assign_eq_ok {strategy : Strategy} {query : NeighbourQuery} {f : FunctionRecord}
    {key : String} {c' : Clustering} (h : c.assign strategy query f = .ok (key, c')) :
    (c' = c ∧ c.memberships.find? f.id = some key) ∨
      (c' = c.insert key f ∧ c.memberships.find? f.id = none ∧
        c.keyFor strategy query f = .ok key) := by
  unfold assign at h
  split at h
  · next key' hkey =>
    cases h
    exact .inl ⟨rfl, hkey⟩
  · next hnone =>
    split at h
    · cases h
    · next key' hkey =>
      cases h
      exact .inr ⟨rfl, hnone, hkey⟩

theorem Coherent.apply (h : c.Coherent) (call : Call) : (call.apply c).Coherent := by
  cases call with
  | assign strategy query f =>
    simp only [Call.apply]
    split
    · next heq =>
      rcases assign_eq_ok heq with ⟨rfl, -⟩ | ⟨rfl, -, -⟩
      · exact h
      · exact h.insert _ f
    · exact h
  | assignStructural f => exact h.insert _ f
  | insert key f => exact h.insert key f
  | remove id => exact h.remove id

theorem MembersAre.apply {P : FunctionRecord → Prop} (hc : c.Coherent) (h : c.MembersAre P)
    {call : Call} (hf : ∀ f, call.function? = some f → P f) : (call.apply c).MembersAre P := by
  cases call with
  | assign strategy query f =>
    simp only [Call.apply]
    split
    · next heq =>
      rcases assign_eq_ok heq with ⟨rfl, -⟩ | ⟨rfl, -, -⟩
      · exact h
      · exact h.insert hc _ (hf f rfl)
    · exact h
  | assignStructural f => exact h.insert hc _ (hf f rfl)
  | insert key f => exact h.insert hc key (hf f rfl)
  | remove id => exact h.remove hc id

/-! ## Sequences of calls -/

theorem coherent_foldl (calls : List Call) (h : c.Coherent) :
    (calls.foldl Call.apply c).Coherent := by
  induction calls generalizing c with
  | nil => exact h
  | cons call rest ih => exact ih (h.apply call)

theorem membersAre_foldl {P : FunctionRecord → Prop} (calls : List Call) (hc : c.Coherent)
    (h : c.MembersAre P) (hf : ∀ call ∈ calls, ∀ f, call.function? = some f → P f) :
    (calls.foldl Call.apply c).MembersAre P := by
  induction calls generalizing c with
  | nil => exact h
  | cons call rest ih =>
    refine ih (hc.apply call) (h.apply hc (hf call List.mem_cons_self)) fun call' hcall' => ?_
    exact hf call' (List.mem_cons_of_mem _ hcall')

/-- What the maps of a clustering are to each other, spelled out. -/
structure Represented (c : Clustering) : Prop where
  membership : ∀ id key, c.memberships.find? id = some key ↔
    (∃ k, c.clusters.find? key = some k ∧ k.members.countP (·.id == id) = 1) ∧
      ∀ key' k', c.clusters.find? key' = some k' → key' ≠ key → ∀ m ∈ k'.members, m.id ≠ id
  nonempty : ∀ key k, c.clusters.find? key = some k → k.members ≠ []
  key_eq : ∀ key k, c.clusters.find? key = some k → k.key = key
  byPlace : ∀ key k, c.clusters.find? key = some k →
    k.members.Pairwise (fun a b => a.locationCompare b = .lt)
  canonical_mem : ∀ key k, c.clusters.find? key = some k → k.canonical ∈ k.members
  canonical_lt : ∀ key k, c.clusters.find? key = some k → ∀ m ∈ k.members, m ≠ k.canonical →
    k.canonical.canonicalCompare m = .lt

theorem Coherent.represented (h : c.Coherent) : c.Represented where
  membership := by
    intro id key
    constructor
    · intro hm
      obtain ⟨k, hk, hid⟩ := (h.membership id key).1 hm
      refine ⟨⟨k, hk, (h.ordered key k hk).countP_eq_one_iff.2 hid⟩, ?_⟩
      rintro key' k' hk' hne m hmem rfl
      have hm' := (h.mem_ids_iff hk').1 (List.mem_map_of_mem hmem)
      exact hne (Option.some.inj (hm'.symm.trans hm))
    · rintro ⟨⟨k, hk, hcount⟩, -⟩
      exact (h.mem_ids_iff hk).1 ((h.ordered key k hk).countP_eq_one_iff.1 hcount)
  nonempty := fun key k hk => List.ne_nil_of_mem (h.ordered key k hk).canonical_mem
  key_eq := h.key_eq
  byPlace := fun key k hk => (h.ordered key k hk).byPlace
  canonical_mem := fun key k hk => (h.ordered key k hk).canonical_mem
  canonical_lt := fun key k hk => (h.ordered key k hk).canonical_lt

/-- After any calls a clustering is what its maps say, and where identifiers stand for functions, the
keys at the end say everything. -/
theorem afterCalls_represented (calls : List Call) :
    (afterCalls calls).Represented ∧
      ∀ (calls' : List Call) (record : String → FunctionRecord),
        (∀ call ∈ calls ++ calls', ∀ f, call.function? = some f → f = record f.id) →
        (afterCalls calls).memberships = (afterCalls calls').memberships →
        afterCalls calls = afterCalls calls' := by
  have hcoherent : ∀ calls, (afterCalls calls).Coherent := fun calls =>
    coherent_foldl calls coherent_empty
  refine ⟨(hcoherent calls).represented, fun calls' record hrec hm => ?_⟩
  have hmembers : (afterCalls calls).MembersAre (fun m => m = record m.id) :=
    membersAre_foldl calls coherent_empty membersAre_empty fun call hcall =>
      hrec call (List.mem_append_left _ hcall)
  have hmembers' : (afterCalls calls').MembersAre (fun m => m = record m.id) :=
    membersAre_foldl calls' coherent_empty membersAre_empty fun call hcall =>
      hrec call (List.mem_append_right _ hcall)
  exact (hcoherent calls).ext (hcoherent calls') hmembers hmembers' hm

namespace Sample

/-- A function of no arguments on the first line of a file, by the name of the file. -/
def atTop (file keywords : String) : FunctionRecord where
  id := file ++ "::load"
  name := "load"
  filePath := file
  args := []
  lineNumber := 1
  endLine := 2
  docstring := none
  complexity := 1
  contentHash := ""
  contextKeywords := keywords
  semanticHash := none
  extraction := .formal

end Sample

/-- Two functions meet under one key by a move and a failed look-up, or directly beside a third one
that goes again; the clusters are the same. -/
theorem afterCalls_of_move_eq :
    (afterCalls [.insert "p" (Sample.atTop "b" ""), .insert "q" (Sample.atTop "a" ""),
        .assign (.semantic .one 1) (fun _ _ _ => .error .content) (Sample.atTop "c" "parse"),
        .insert "q" (Sample.atTop "b" "")]).Represented ∧
      afterCalls [.insert "p" (Sample.atTop "b" ""), .insert "q" (Sample.atTop "a" ""),
        .assign (.semantic .one 1) (fun _ _ _ => .error .content) (Sample.atTop "c" "parse"),
        .insert "q" (Sample.atTop "b" "")] =
      afterCalls [.insert "q" (Sample.atTop "b" ""), .insert "q" (Sample.atTop "c" "parse"),
        .insert "q" (Sample.atTop "a" ""), .remove "c::load"] := by
  refine ⟨(afterCalls_represented _).1, (afterCalls_represented _).2 _
    (fun id => if id = "a::load" then Sample.atTop "a" ""
      else if id = "b::load" then Sample.atTop "b" "" else Sample.atTop "c" "parse") ?_ (by decide)⟩
  simp [Call.function?, Sample.atTop]

end Consolidation.Clustering
