/-
# `Proofs.Report.Errors` — parse errors in a report

A report lists parse errors by file, line and message, which tells all errors apart.  So the order in which a checkpoint
holds them does not show (`mergeSort_eq_of_perm`).

An error without a line comes before those with one, and messages are compared last.  The comparison is one of `Ordering`s
put together by `then`, so that it is transitive and total by instances, and an order since equal parts make equal errors.
-/
import Mathlib.Data.List.Basic
import Consolidation.Run.Basic

namespace Consolidation.Report

open Std

/-- The place of a line among the lines, none standing before all of them. -/
def lineRank : Option Nat → Nat
  | none => 0
  | some n => n + 1

theorem lineRank_inj {a b : Option Nat} (h : lineRank a = lineRank b) : a = b := by
  cases a <;> cases b <;> simp_all [lineRank]

/-- The order of parse errors, part by part. -/
def compareErrors : ParseError → ParseError → Ordering :=
  compareLex (compareOn ParseError.filePath)
    (compareLex (compareOn (fun e => lineRank e.lineNumber)) (compareOn ParseError.message))

instance : TransCmp compareErrors := by
  unfold compareErrors
  infer_instance

theorem errorBefore_eq (a b : ParseError) : errorBefore a b = (compareErrors a b).isLE := by
  have hle : ∀ o : Ordering, (o != .gt) = o.isLE := by
    intro o
    cases o <;> rfl
  obtain ⟨path, message, line⟩ := a
  obtain ⟨path', message', line'⟩ := b
  rw [← hle]
  cases line <;> cases line' <;> rfl

theorem compareErrors_eq {a b : ParseError} (h : compareErrors a b = .eq) : a = b := by
  simp only [compareErrors, compareLex, Ordering.then_eq_eq, compareOn] at h
  obtain ⟨hpath, hline, hmessage⟩ := h
  cases a
  cases b
  simp only [ParseError.mk.injEq]
  exact ⟨LawfulEqCmp.eq_of_compare hpath, LawfulEqCmp.eq_of_compare hmessage,
    lineRank_inj (LawfulEqCmp.eq_of_compare hline)⟩

theorem errorBefore_trans (a b c : ParseError) (hab : errorBefore a b = true)
    (hbc : errorBefore b c = true) : errorBefore a c = true := by
  rw [errorBefore_eq] at *
  exact TransCmp.isLE_trans hab hbc

theorem errorBefore_total (a b : ParseError) : (errorBefore a b || errorBefore b a) = true := by
  rw [errorBefore_eq, errorBefore_eq, Bool.or_eq_true]
  cases h : compareErrors a b with
  | lt => exact .inl rfl
  | eq => exact .inl rfl
  | gt => exact .inr (Ordering.isLE_of_eq_lt (OrientedCmp.lt_of_gt h))

theorem errorBefore_antisymm {a b : ParseError} (hab : errorBefore a b = true)
    (hba : errorBefore b a = true) : a = b := by
  rw [errorBefore_eq] at *
  exact compareErrors_eq (OrientedCmp.isLE_antisymm hab hba)

/-- Errors are listed in one way, whatever their order was. -/
theorem mergeSort_eq_of_perm {errors errors' : List ParseError} (h : errors.Perm errors') :
    errors.mergeSort errorBefore = errors'.mergeSort errorBefore := by
  have hsorted : ∀ l : List ParseError,
      (l.mergeSort errorBefore).Pairwise (fun a b => errorBefore a b = true) :=
    List.pairwise_mergeSort errorBefore_trans errorBefore_total
  have hperm : (errors.mergeSort errorBefore).Perm (errors'.mergeSort errorBefore) :=
    (List.mergeSort_perm errors _).trans (h.trans (List.mergeSort_perm errors' _).symm)
  exact hperm.eq_of_pairwise (fun _ _ _ _ => errorBefore_antisymm) (hsorted _) (hsorted _)

end Consolidation.Report
