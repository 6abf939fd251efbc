/-
# `Proofs.Cluster.Members` — what holds of a cluster while it grows and shrinks

`Cluster.Ordered` says that the members stand strictly in the order of places, no two of them with one identifier, and
that the canonical member is preferred to every other one.  A new member keeps this (`Ordered.add`), and so does the loss
of one (`Ordered.remove`).

A new member's place is found by halving, which relies on the order of the others: every member before the place that
halving ends at stands before the new one, and every member from there on behind it (`slot_spec`).

| step | what is kept |
| :-- | :-- |
| halving | the place is behind a member before the new one and before a member behind it (`narrow_spec`) |
| insertion | the members, with the new one among them, in the order of places |
| choosing the canonical member anew | it is preferred to every other one (`Cluster.best`) |

Two ordered clusters with the same members and one key are equal (`Ordered.ext`).
-/
import Mathlib.Data.List.Nodup
import Consolidation.Proofs.Cluster.Order

namespace Consolidation

open Std FunctionRecord

namespace Cluster

/-- Functions strictly in the order of places. -/
def ByPlace (members : List FunctionRecord) : Prop :=
  members.Pairwise (fun a b => a.locationCompare b = .lt)

/-- What holds of a cluster at all times. -/
structure Ordered (c : Cluster) : Prop where
  byPlace : ByPlace c.members
  ids : (c.members.map (·.id)).Nodup
  canonical_mem : c.canonical ∈ c.members
  canonical_lt : ∀ m ∈ c.members, m ≠ c.canonical → c.canonical.canonicalCompare m = .lt

/-! ## Halving -/

section Halving

variable {members : List FunctionRecord} {f : FunctionRecord}

theorem compareAt_eq {place : Nat} (h : place < members.length) :
    compareAt members f place = members[place].locationCompare f := by
  simp [compareAt, List.getElem?_eq_getElem h]

theorem compareAt_ne_eq (hf : f.id ∉ members.map (·.id)) (place : Nat) :
    compareAt members f place ≠ .eq := by
  unfold compareAt
  split
  · next m hm =>
    intro h
    exact hf (List.mem_map.2 ⟨m, List.mem_of_getElem? hm, locationCompare_eq h⟩)
  · decide

theorem compareAt_lt_of_le (hs : ByPlace members) {i j : Nat} (hij : i ≤ j)
    (hj : compareAt members f j = .lt) : compareAt members f i = .lt := by
  have hlen : j < members.length := by
    by_contra h
    simp [compareAt, List.getElem?_eq_none (Nat.le_of_not_lt h)] at hj
  rcases Nat.eq_or_lt_of_le hij with rfl | hlt
  · exact hj
  · have hi : i < members.length := Nat.lt_trans hlt hlen
    rw [compareAt_eq hlen] at hj
    rw [compareAt_eq hi]
    exact TransCmp.lt_trans (List.pairwise_iff_getElem.1 hs i j hi hlen hlt) hj

theorem compareAt_gt_of_le (hs : ByPlace members) (hf : f.id ∉ members.map (·.id)) {i j : Nat}
    (hij : i ≤ j) (hi : compareAt members f i = .gt) : compareAt members f j = .gt := by
  cases hj : compareAt members f j with
  | gt => rfl
  | eq => exact absurd hj (compareAt_ne_eq hf j)
  | lt =>
    rw [compareAt_lt_of_le hs hij hj] at hi
    exact absurd hi (by decide)

theorem narrow_one (base : Nat) : narrow members f base 1 = base := by
  rw [narrow, if_pos (Nat.le_refl 1)]

theorem narrow_of_gt {base size : Nat} (hsize : 1 < size)
    (h : compareAt members f (base + size / 2) = .gt) :
    narrow members f base size = narrow members f base (size - size / 2) := by
  rw [narrow, if_neg (Nat.not_le.2 hsize)]
  simp [h]

theorem narrow_of_lt {base size : Nat} (hsize : 1 < size)
    (h : compareAt members f (base + size / 2) = .lt) :
    narrow members f base size = narrow members f (base + size / 2) (size - size / 2) := by
  rw [narrow, if_neg (Nat.not_le.2 hsize)]
  simp [h]

/-- The place at which halving ends stands before `f`, if it is not the first of all, and
the one after it behind. -/
theorem narrow_spec (hs : ByPlace members) (hf : f.id ∉ members.map (·.id)) (base size : Nat)
    (hsize : 0 < size) (hbase : base = 0 ∨ compareAt members f base = .lt)
    (hend : compareAt members f (base + size) = .gt) :
    (narrow members f base size = 0 ∨ compareAt members f (narrow members f base size) = .lt) ∧
      compareAt members f (narrow members f base size + 1) = .gt := by
  induction size using Nat.strongRecOn generalizing base with
  | ind size ih =>
    rcases Nat.eq_or_lt_of_le hsize with rfl | hlt
    · rw [narrow_one]
      exact ⟨hbase, hend⟩
    · cases hmid : compareAt members f (base + size / 2) with
      | gt =>
        -- what is left ends at the middle or one place behind it
        rw [narrow_of_gt hlt hmid]
        exact ih (size - size / 2) (by omega) base (by omega) hbase
          (compareAt_gt_of_le hs hf (by omega) hmid)
      | lt =>
        rw [narrow_of_lt hlt hmid]
        refine ih (size - size / 2) (by omega) (base + size / 2) (by omega) (.inr hmid) ?_
        rw [show base + size / 2 + (size - size / 2) = base + size by omega]
        exact hend
      | eq => exact absurd hmid (compareAt_ne_eq hf _)

/-- The members before the slot of `f` stand before it, the others behind it. -/
theorem slot_spec (hs : ByPlace members) (hf : f.id ∉ members.map (·.id)) (place : Nat) :
    compareAt members f place = if place < slot members f then .lt else .gt := by
  have hout : compareAt members f members.length = .gt := by simp [compareAt]
  by_cases hnil : members.length = 0
  · -- there is nothing to stand before `f`
    obtain rfl := List.length_eq_zero_iff.1 hnil
    simp [slot, narrow, compareAt]
  · obtain ⟨hlow, hhigh⟩ := narrow_spec hs hf 0 members.length (by omega) (.inl rfl)
      (by simpa using hout)
    cases hlast : compareAt members f (narrow members f 0 members.length) with
    | lt =>
      have hslot : slot members f = narrow members f 0 members.length + 1 := by simp [slot, hlast]
      rw [hslot]
      split
      · next hlt => exact compareAt_lt_of_le hs (Nat.le_of_lt_succ hlt) hlast
      · next hge => exact compareAt_gt_of_le hs hf (Nat.le_of_not_lt hge) hhigh
    | gt =>
      have hzero : narrow members f 0 members.length = 0 := by
        rcases hlow with h | h
        · exact h
        · rw [h] at hlast
          exact absurd hlast (by decide)
      have hslot : slot members f = 0 := by simp [slot, hzero ▸ hlast, hzero]
      rw [hslot, if_neg (Nat.not_lt_zero _)]
      exact compareAt_gt_of_le hs hf (Nat.zero_le place) (hzero ▸ hlast)
    | eq => exact absurd hlast (compareAt_ne_eq hf _)

end Halving

/-! ## Members come and go -/

section Change

variable {members : List FunctionRecord} {f : FunctionRecord}

theorem insertMember_perm : (insertMember f members).Perm (f :: members) := by
  unfold insertMember
  refine List.perm_middle.trans ?_
  rw [List.take_append_drop]

theorem mem_insertMember {g : FunctionRecord} : g ∈ insertMember f members ↔ g = f ∨ g ∈ members := by
  rw [insertMember_perm.mem_iff, List.mem_cons]

theorem ByPlace.insertMember (hs : ByPlace members) (hf : f.id ∉ members.map (·.id)) :
    ByPlace (insertMember f members) := by
  have hbefore : ∀ g ∈ members.take (slot members f), g.locationCompare f = .lt := by
    intro g hg
    obtain ⟨i, hi, rfl⟩ := List.mem_iff_getElem.1 hg
    rw [List.length_take] at hi
    rw [List.getElem_take, ← compareAt_eq, slot_spec hs hf, if_pos (by omega)]
  have hbehind : ∀ g ∈ members.drop (slot members f), f.locationCompare g = .lt := by
    intro g hg
    obtain ⟨i, hi, rfl⟩ := List.mem_iff_getElem.1 hg
    rw [List.length_drop] at hi
    rw [List.getElem_drop]
    refine OrientedCmp.lt_of_gt ?_
    rw [← compareAt_eq, slot_spec hs hf, if_neg (by omega)]
  refine List.pairwise_append.2 ⟨hs.take, List.pairwise_cons.2 ⟨hbehind, hs.drop⟩, ?_⟩
  intro a ha b hb
  rcases List.mem_cons.1 hb with rfl | hb
  · exact hbefore a ha
  · exact TransCmp.lt_trans (hbefore a ha) (hbehind b hb)

end Change

/-! ## Clusters grow and shrink -/

theorem Ordered.single (key : String) (f : FunctionRecord) : (single key f).Ordered where
  byPlace := List.pairwise_singleton _ _
  ids := List.nodup_singleton _
  canonical_mem := List.mem_singleton_self _
  canonical_lt := by
    intro m hm hne
    exact absurd (List.mem_singleton.1 hm) hne

variable {c : Cluster} {f : FunctionRecord}

theorem Ordered.add (h : c.Ordered) (hf : f.id ∉ c.members.map (·.id)) : (c.add f).Ordered where
  byPlace := h.byPlace.insertMember hf
  ids := by
    rw [Cluster.add, (insertMember_perm.map _).nodup_iff]
    exact List.nodup_cons.2 ⟨hf, h.ids⟩
  canonical_mem := by
    simp only [Cluster.add, mem_insertMember]
    split
    · exact .inl rfl
    · exact .inr h.canonical_mem
  canonical_lt := by
    have hid : ∀ m ∈ c.members, m.id ≠ f.id := fun m hm e => hf (e ▸ List.mem_map_of_mem hm)
    intro m hm hne
    simp only [Cluster.add, mem_insertMember] at hm hne ⊢
    cases hcmp : f.canonicalCompare c.canonical == .lt with
    | true =>
      simp only [hcmp, if_true] at hne ⊢
      have hfc : f.canonicalCompare c.canonical = .lt := by simpa using hcmp
      have hm := hm.resolve_left hne
      by_cases hmc : m = c.canonical
      · exact hmc ▸ hfc
      · exact TransCmp.lt_trans hfc (h.canonical_lt m hm hmc)
    | false =>
      simp only [hcmp, Bool.false_eq_true, if_false] at hne ⊢
      rcases hm with rfl | hm
      · exact canonicalCompare_lt_of_not_lt (hid _ h.canonical_mem) (by simpa using hcmp)
      · exact h.canonical_lt m hm hne

theorem remove_eq_none_iff {id : String} : c.remove id = none ↔ ∀ m ∈ c.members, m.id = id := by
  unfold Cluster.remove
  split
  · next h => simpa [List.filter_eq_nil_iff] using h
  · next m rest h =>
    simp only [reduceCtorEq, false_iff]
    intro hall
    have hm : m ∈ c.members.filter (·.id != id) := h ▸ List.mem_cons_self
    simp only [List.mem_filter, bne_iff_ne] at hm
    exact hm.2 (hall m hm.1)

theorem members_of_remove {id : String} {c' : Cluster} (h : c.remove id = some c') :
    c'.key = c.key ∧ c'.members = c.members.filter (·.id != id) := by
  unfold Cluster.remove at h
  split at h
  · cases h
  · next heq =>
    cases h
    exact ⟨rfl, heq.symm⟩

theorem Ordered.remove (h : c.Ordered) {id : String} {c' : Cluster} (hc' : c.remove id = some c') :
    c'.Ordered := by
  have hsub : (c.members.filter (·.id != id)).Sublist c.members := List.filter_sublist
  have hkept : ∀ m, m ∈ c.members.filter (·.id != id) ↔ m ∈ c.members ∧ m.id ≠ id := by
    simp [List.mem_filter]
  unfold Cluster.remove at hc'
  split at hc'
  · cases hc'
  · next m rest heq =>
    cases hc'
    rw [heq] at hsub hkept
    have hids : ((m :: rest).map (·.id)).Nodup := (hsub.map _).nodup h.ids
    refine ⟨h.byPlace.sublist hsub, hids, ?_, ?_⟩
    · dsimp only
      split
      · exact best_mem m rest
      · next hne => exact (hkept _).2 ⟨h.canonical_mem, by simpa using hne⟩
    · intro g hg hgne
      dsimp only at hg hgne ⊢
      by_cases hgone : c.canonical.id = id
      · -- the canonical member went: the best of the rest takes its place
        simp only [hgone, beq_self_eq_true, if_true] at hgne ⊢
        refine canonicalCompare_lt_of_not_lt ?_ (OrientedCmp.not_lt_of_isLE (best_le m rest g hg))
        exact fun e => hgne (List.inj_on_of_nodup_map hids hg (best_mem m rest) e.symm)
      · simp only [beq_eq_false_iff_ne.2 hgone, Bool.false_eq_true, if_false] at hgne ⊢
        exact h.canonical_lt g ((hkept g).1 hg).1 hgne

/-- The key and the set of members make a cluster. -/
theorem Ordered.ext {c' : Cluster} (h : c.Ordered) (h' : c'.Ordered) (hkey : c.key = c'.key)
    (hmem : ∀ m, m ∈ c.members ↔ m ∈ c'.members) : c = c' := by
  have hperm : c.members.Perm c'.members :=
    (List.perm_ext_iff_of_nodup (List.Nodup.of_map _ h.ids) (List.Nodup.of_map _ h'.ids)).2 hmem
  have hmembers : c.members = c'.members := by
    refine hperm.eq_of_pairwise ?_ h.byPlace h'.byPlace
    intro a b _ _ hab hba
    exact absurd hba (OrientedCmp.not_lt_of_lt hab)
  have hcanonical : c.canonical = c'.canonical := by
    by_contra hne
    -- each of the two would be preferred to the other
    have h1 := h.canonical_lt c'.canonical ((hmem _).2 h'.canonical_mem) (Ne.symm hne)
    have h2 := h'.canonical_lt c.canonical ((hmem _).1 h.canonical_mem) hne
    exact OrientedCmp.not_lt_of_lt h1 h2
  cases c
  cases c'
  simp_all

end Cluster

end Consolidation
