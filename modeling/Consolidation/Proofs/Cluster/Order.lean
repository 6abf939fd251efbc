/-
# `Proofs.Cluster.Order` — the two orders of functions

Functions are compared in two ways: by their place, which is the order of the members of a cluster, and as canonical
candidates.  Both comparisons end with the identifier, so both are total, and only functions of one identifier compare as
equal (`locationCompare_eq`, `canonicalCompare_eq`).

The last section is on `Cluster.best`: it gives a member that no other member is preferred to (`best_mem`, `best_le`),
which is all that is needed of it.

The class `TransCmp` gives what is needed of a comparison that is put together by `then`: the parts are compared as
numbers and texts, and each part of which an instance is known brings its own.  `locationCompare_def` and
`canonicalCompare_def` say the same part by part, for proofs that go down to them.
-/
import Mathlib.Data.List.Basic
import Consolidation.Cluster.Basic

namespace Consolidation

open Std

namespace FunctionRecord

theorem locationCompare_def :
    locationCompare = compareLex (compareOn filePath)
      (compareLex (compareOn lineNumber) (compareOn id)) := rfl

theorem canonicalCompare_def :
    canonicalCompare = compareLex (fun a b => compareOn qualityScore b a)
      (compareLex (compareOn lineNumber) (compareLex (compareOn filePath) (compareOn id))) := rfl

instance : TransCmp locationCompare := by
  rw [locationCompare_def]
  infer_instance

instance : TransCmp canonicalCompare := by
  rw [canonicalCompare_def]
  infer_instance

theorem locationCompare_eq {a b : FunctionRecord} (h : a.locationCompare b = .eq) : a.id = b.id := by
  simp only [locationCompare, Ordering.then_eq_eq] at h
  exact LawfulEqCmp.eq_of_compare h.2.2

theorem canonicalCompare_eq {a b : FunctionRecord} (h : a.canonicalCompare b = .eq) :
    a.id = b.id := by
  simp only [canonicalCompare, Ordering.then_eq_eq] at h
  exact LawfulEqCmp.eq_of_compare h.2.2.2

/-- A function that is not preferred to another one comes after it or has its identifier. -/
theorem canonicalCompare_lt_of_not_lt {a b : FunctionRecord} (hid : a.id ≠ b.id)
    (h : b.canonicalCompare a ≠ .lt) : a.canonicalCompare b = .lt := by
  cases hab : a.canonicalCompare b with
  | lt => rfl
  | eq => exact absurd (canonicalCompare_eq hab) hid
  | gt => exact absurd (OrientedCmp.lt_of_gt hab) h

end FunctionRecord

/-! ## The best of some functions -/

namespace Cluster

open FunctionRecord

theorem best_mem (f : FunctionRecord) (fs : List FunctionRecord) : best f fs ∈ f :: fs := by
  induction fs generalizing f with
  | nil => exact List.mem_cons_self
  | cons g rest ih =>
    simp only [best]
    split
    · exact List.mem_cons_of_mem _ (ih g)
    · rcases List.mem_cons.1 (ih f) with h | h
      · rw [h]
        exact List.mem_cons_self
      · exact List.mem_cons_of_mem _ (List.mem_cons_of_mem _ h)

/-- No function is preferred to the best one. -/
theorem best_le (f : FunctionRecord) (fs : List FunctionRecord) :
    ∀ g ∈ f :: fs, ((best f fs).canonicalCompare g).isLE := by
  induction fs generalizing f with
  | nil =>
    intro g hg
    obtain rfl := List.mem_singleton.1 hg
    exact ReflCmp.isLE_rfl
  | cons h rest ih =>
    intro g hg
    simp only [best]
    split
    · next hlt =>
      -- `h` takes the place of `f`, and is preferred to it
      have hhf : (h.canonicalCompare f).isLE := Ordering.isLE_of_eq_lt (by simpa using hlt)
      rcases List.mem_cons.1 hg with rfl | hg
      · exact TransCmp.isLE_trans (ih h h List.mem_cons_self) hhf
      · exact ih h g hg
    · next hnlt =>
      have hfh : (f.canonicalCompare h).isLE := by
        rw [← OrientedCmp.isGE_iff_isLE, Ordering.isGE_iff_ne_lt]
        simpa using hnlt
      rcases List.mem_cons.1 hg with rfl | hg
      · exact ih g g List.mem_cons_self
      · rcases List.mem_cons.1 hg with rfl | hg
        · exact TransCmp.isLE_trans (ih f f List.mem_cons_self) hfh
        · exact ih f g (List.mem_cons_of_mem _ hg)

end Cluster

end Consolidation
