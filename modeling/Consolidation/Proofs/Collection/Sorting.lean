/-
# `Proofs.Collection.Sorting` — lists in the order of a key

What is sorted by a key stands in the order of the keys, and what has one key stands as it stood before.  That says it
all: lists in the order of a key are equal if for each key they have the same entries in the same order
(`eq_of_filter_key_eq`).

Sorting by a key is stable: entries of one key keep their order (`filter_mergeSort_key`).  A list in the order of the keys
is then told by what it holds for each key, and no comparison of whole entries is needed.
-/
import Mathlib.Data.List.Basic

namespace Consolidation

section Sorting

variable {α β : Type} [LE β] [DecidableLE β] [Std.IsLinearPreorder β] (key : α → β)

theorem keyBefore_trans (a b c : α) (hab : decide (key a ≤ key b) = true) (hbc : decide (key b ≤ key c) = true) :
    decide (key a ≤ key c) = true :=
  decide_eq_true (Std.le_trans (of_decide_eq_true hab) (of_decide_eq_true hbc))

theorem keyBefore_total (a b : α) : (decide (key a ≤ key b) || decide (key b ≤ key a)) = true := by
  rw [Bool.or_eq_true, decide_eq_true_iff, decide_eq_true_iff]
  exact Std.le_total

theorem pairwise_mergeSort_key (l : List α) :
    (l.mergeSort fun a b => key a ≤ key b).Pairwise fun a b => key a ≤ key b :=
  (List.pairwise_mergeSort (keyBefore_trans key) (keyBefore_total key) l).imp of_decide_eq_true

theorem filter_mergeSort_key [DecidableEq β] (l : List α) (k : β) :
    (l.mergeSort fun a b => key a ≤ key b).filter (key · == k) = l.filter (key · == k) := by
  have hequal : (l.filter (key · == k)).Pairwise fun a b => decide (key a ≤ key b) = true := by
    refine List.pairwise_of_forall_mem_list fun a ha b hb => decide_eq_true ?_
    rw [eq_of_beq (List.mem_filter.1 ha).2, eq_of_beq (List.mem_filter.1 hb).2]
    exact Std.le_refl k
  have hsub := (List.sublist_mergeSort (keyBefore_trans key) (keyBefore_total key) hequal List.filter_sublist).filter
    (key · == k)
  rw [List.filter_filter] at hsub
  simp only [Bool.and_self] at hsub
  exact (hsub.eq_of_length ((List.mergeSort_perm l _).filter _).length_eq.symm).symm

end Sorting

section Unique

variable {α β : Type} [DecidableEq β] {key : α → β} {a b : List α}

theorem mem_iff_of_filter_key_eq (h : ∀ k, a.filter (key · == k) = b.filter (key · == k)) (x : α) : x ∈ a ↔ x ∈ b := by
  have hfilter : x ∈ a.filter (key · == key x) ↔ x ∈ b.filter (key · == key x) := by rw [h]
  simpa using hfilter

/-- Lists in the order of a key are told by what they hold of each key. -/
theorem eq_of_filter_key_eq [LE β] [Std.IsPartialOrder β] (ha : a.Pairwise fun x y => key x ≤ key y)
    (hb : b.Pairwise fun x y => key x ≤ key y) (h : ∀ k, a.filter (key · == k) = b.filter (key · == k)) : a = b := by
  induction a generalizing b with
  | nil => exact (List.eq_nil_iff_forall_not_mem.2 fun x hx => List.not_mem_nil ((mem_iff_of_filter_key_eq h x).2 hx)).symm
  | cons x a ih =>
    cases b with
    | nil => exact absurd ((mem_iff_of_filter_key_eq h x).1 List.mem_cons_self) List.not_mem_nil
    | cons y b =>
      obtain ⟨hx, ha'⟩ := List.pairwise_cons.1 ha
      obtain ⟨hy, hb'⟩ := List.pairwise_cons.1 hb
      -- both keys in front are the smallest of the same keys, and of that key both entries are the first
      have hxy : key x ≤ key y := by
        rcases List.mem_cons.1 ((mem_iff_of_filter_key_eq h y).2 List.mem_cons_self) with rfl | hin
        · exact Std.le_refl _
        · exact hx y hin
      have hyx : key y ≤ key x := by
        rcases List.mem_cons.1 ((mem_iff_of_filter_key_eq h x).1 List.mem_cons_self) with rfl | hin
        · exact Std.le_refl _
        · exact hy x hin
      have hkey : key y = key x := Std.le_antisymm hyx hxy
      have hfront := h (key x)
      simp only [List.filter_cons, hkey, beq_self_eq_true, if_true] at hfront
      obtain rfl : x = y := (List.cons.inj hfront).1
      have hrest : ∀ k, a.filter (key · == k) = b.filter (key · == k) := by
        intro k
        have hk := h k
        rw [List.filter_cons, List.filter_cons] at hk
        split at hk
        · exact (List.cons.inj hk).2
        · exact hk
      rw [ih ha' hb' hrest]

end Unique

end Consolidation
