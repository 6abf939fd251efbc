/-
# `Proofs.Python.Flattening` — what is left of a text when its groups of brackets are dropped

The line scanner drops the innermost groups of brackets until there are none left.  `Grouped` says what that comes to for
a text in which every bracket has its match: each group goes, whatever it holds.  One round drops a group if it is an
innermost one and keeps the other brackets (`Grouped.dropGroups_append`), and it changes something as long as there is a
group (`Grouped.eq_of_dropGroups`).

A bracket that closes nothing stays where it is, so what stands before it is flattened on its own
(`exists_flattenGroups_append`).

| text | what a round makes of it |
| :-- | :-- |
| a group without brackets in it | nothing (`dropGroup?_group`) |
| a group with brackets in it | its brackets, around what the round makes of the text between them |
| anything else | itself |

So a round is told by the way in which brackets match, and not by the place at which the scanner stands.
-/
import Consolidation.Proofs.Python.Respacing

namespace Consolidation.Python.Line

open Text

/-- A text in which brackets match, and what is left of it without its groups of brackets. -/
inductive Grouped : List Char → List Char → Prop
  | nil : Grouped [] []
  | plain {c : Char} {s t : List Char} (hc : isBracket c = false) (h : Grouped s t) : Grouped (c :: s) (c :: t)
  | group {opener close : Char} {inner left s t : List Char} (hclose : closer? opener = some close)
      (hinner : Grouped inner left) (h : Grouped s t) : Grouped (opener :: (inner ++ close :: s)) t

section Grouped

variable {s t inner left : List Char} {opener close : Char}

theorem Grouped.append {s' t' : List Char} (h : Grouped s t) (h' : Grouped s' t') : Grouped (s ++ s') (t ++ t') := by
  induction h with
  | nil => exact h'
  | plain hc _ ih => exact .plain hc ih
  | group hclose hinner _ _ ih =>
    rw [List.cons_append, List.append_assoc, List.cons_append]
    exact .group hclose hinner ih

theorem grouped_of_plain (h : ∀ c ∈ s, isBracket c = false) : Grouped s s := by
  induction s with
  | nil => exact .nil
  | cons c s ih =>
    obtain ⟨hc, hs⟩ := List.forall_mem_cons.1 h
    exact .plain hc (ih hs)

theorem Grouped.not_bracket (h : Grouped s t) : ∀ c ∈ t, isBracket c = false := by
  induction h with
  | nil => exact List.forall_mem_nil _
  | plain hc _ ih => exact List.forall_mem_cons.2 ⟨hc, ih⟩
  | group _ _ _ _ ih => exact ih

theorem closer?_of_closer? (h : closer? opener = some close) : closer? close = none := by
  unfold closer? at h
  split at h
  · cases h
    rfl
  · split at h
    · cases h
      rfl
    · split at h
      · cases h
        rfl
      · cases h

/-- The first bracket in a text with groups opens one. -/
theorem Grouped.eq_or_exists_opener (h : Grouped s t) :
    s = t ∨ ∃ front opener behind, s = front ++ opener :: behind ∧ (∀ c ∈ front, isBracket c = false) ∧
      (closer? opener).isSome = true := by
  induction h with
  | nil => exact .inl rfl
  | @plain c s t hc _ ih =>
    rcases ih with rfl | ⟨front, opener, behind, rfl, hfront, hopener⟩
    · exact .inl rfl
    · exact .inr ⟨c :: front, opener, behind, rfl, List.forall_mem_cons.2 ⟨hc, hfront⟩, hopener⟩
  | group hclose _ _ _ _ => exact .inr ⟨[], _, _, rfl, List.forall_mem_nil _, by rw [hclose]; rfl⟩

theorem afterGroup?_of_plain (h : ∀ c ∈ inner, isBracket c = false) (hclose : isBracket close = true)
    (s : List Char) : afterGroup? close (inner ++ close :: s) = some s := by
  induction inner with
  | nil => rw [List.nil_append, afterGroup?, if_pos (beq_self_eq_true _)]
  | cons c inner ih =>
    obtain ⟨hc, hinner⟩ := List.forall_mem_cons.1 h
    have hne : c ≠ close := by
      rintro rfl
      rw [hc] at hclose
      cases hclose
    rw [List.cons_append, afterGroup?, if_neg (by simpa using hne), hc, if_neg Bool.false_ne_true, ih hinner]

theorem afterGroup?_of_opener {front behind : List Char} (hfront : ∀ c ∈ front, isBracket c = false)
    (hclose : isBracket close = true) (hopener : isBracket opener = true) (hne : opener ≠ close) :
    afterGroup? close (front ++ opener :: behind) = none := by
  induction front with
  | nil => rw [List.nil_append, afterGroup?, if_neg (by simpa using hne), if_pos hopener]
  | cons c front ih =>
    obtain ⟨hc, hfront⟩ := List.forall_mem_cons.1 hfront
    have hne' : c ≠ close := by
      rintro rfl
      rw [hc] at hclose
      cases hclose
    rw [List.cons_append, afterGroup?, if_neg (by simpa using hne'), hc, if_neg Bool.false_ne_true, ih hfront]

theorem dropGroup?_group (hclose : closer? opener = some close) (hinner : Grouped inner left) (s : List Char) :
    inner = left ∧ dropGroup? (opener :: (inner ++ close :: s)) = some s ∨
      inner ≠ left ∧ dropGroup? (opener :: (inner ++ close :: s)) = none := by
  obtain ⟨-, hbracket⟩ := isBracket_of_closer? hclose
  have hdrop : dropGroup? (opener :: (inner ++ close :: s)) = afterGroup? close (inner ++ close :: s) := by
    rw [dropGroup?, hclose]
    rfl
  rw [hdrop]
  rcases hinner.eq_or_exists_opener with rfl | ⟨front, opener', behind, rfl, hfront, hopener⟩
  · exact .inl ⟨rfl, afterGroup?_of_plain hinner.not_bracket hbracket s⟩
  · obtain ⟨close', hclose'⟩ := Option.isSome_iff_exists.1 hopener
    obtain ⟨hbracket', -⟩ := isBracket_of_closer? hclose'
    right
    constructor
    · rintro rfl
      have hnot := hinner.not_bracket opener' (List.mem_append_right _ List.mem_cons_self)
      rw [hbracket'] at hnot
      cases hnot
    · rw [List.append_assoc]
      refine afterGroup?_of_opener hfront hbracket hbracket' ?_
      rintro rfl
      rw [closer?_of_closer? hclose] at hclose'
      cases hclose'

theorem dropGroups_plain {c : Char} (hc : closer? c = none) (s : List Char) : dropGroups (c :: s) = c :: dropGroups s :=
  dropGroups_cons_of_none (dropGroup?_of_closer?_none hc s)

theorem closer?_of_not_bracket {c : Char} (hc : isBracket c = false) : closer? c = none := by
  cases hclose : closer? c with
  | none => rfl
  | some close =>
    rw [(isBracket_of_closer? hclose).1] at hc
    cases hc

/-- One round goes over a text with groups and what follows it on their own, and leaves the same groups or fewer. -/
theorem Grouped.dropGroups_append (h : Grouped s t) :
    (∀ tail, Line.dropGroups (s ++ tail) = Line.dropGroups s ++ Line.dropGroups tail) ∧
      Grouped (Line.dropGroups s) t := by
  have hnil : Line.dropGroups [] = [] := by rw [Line.dropGroups]
  induction h with
  | nil =>
    rw [hnil]
    exact ⟨fun tail => rfl, .nil⟩
  | plain hc _ ih =>
    have hclose := closer?_of_not_bracket hc
    rw [dropGroups_plain hclose]
    refine ⟨fun tail => ?_, .plain hc ih.2⟩
    rw [List.cons_append, dropGroups_plain hclose, ih.1, List.cons_append]
  | @group opener close inner left s t hclose hinner _ ihinner ih =>
    have hassoc (tail : List Char) : opener :: (inner ++ close :: s) ++ tail = opener :: (inner ++ close :: (s ++ tail)) := by
      rw [List.cons_append, List.append_assoc, List.cons_append]
    have hclose' := closer?_of_closer? hclose
    rcases dropGroup?_group hclose hinner s with ⟨hplain, hdrop⟩ | ⟨hgroups, hdrop⟩
    · rw [dropGroups_cons_of_some hdrop]
      refine ⟨fun tail => ?_, ih.2⟩
      obtain ⟨-, hdrop'⟩ := (dropGroup?_group hclose hinner (s ++ tail)).resolve_right fun h => h.1 hplain
      rw [hassoc, dropGroups_cons_of_some hdrop', ih.1]
    · rw [dropGroups_cons_of_none hdrop, ihinner.1, dropGroups_plain hclose']
      refine ⟨fun tail => ?_, .group hclose ihinner.2 ih.2⟩
      obtain ⟨-, hdrop'⟩ := (dropGroup?_group hclose hinner (s ++ tail)).resolve_left fun h => hgroups h.1
      rw [hassoc, dropGroups_cons_of_none hdrop', ihinner.1, dropGroups_plain hclose', ih.1, List.cons_append,
        List.append_assoc, List.cons_append]

theorem length_dropGroups_le (s : List Char) : (Line.dropGroups s).length ≤ s.length := by
  rcases dropGroups_eq_or_length_lt s with h | h
  · rw [h]
  · exact Nat.le_of_lt h

theorem dropGroups_eq_of_length (h : s.length ≤ (Line.dropGroups s).length) : Line.dropGroups s = s :=
  (dropGroups_eq_or_length_lt s).resolve_right (Nat.not_lt.2 h)

/-- Where a round changes nothing there are no groups. -/
theorem Grouped.eq_of_dropGroups (h : Grouped s t) (hfix : Line.dropGroups s = s) : s = t := by
  induction h with
  | nil => rfl
  | plain hc _ ih =>
    rw [dropGroups_plain (closer?_of_not_bracket hc)] at hfix
    rw [ih (List.cons.inj hfix).2]
  | @group opener close inner left s t hclose hinner _ ihinner ih =>
    exfalso
    have hlength := congrArg List.length hfix
    have hs := length_dropGroups_le s
    rcases dropGroup?_group hclose hinner s with ⟨-, hdrop⟩ | ⟨hgroups, hdrop⟩
    · rw [dropGroups_cons_of_some hdrop] at hlength
      simp only [List.length_cons, List.length_append] at hlength
      omega
    · rw [dropGroups_cons_of_none hdrop, hinner.dropGroups_append.1, dropGroups_plain (closer?_of_closer? hclose)] at hlength
      simp only [List.length_cons, List.length_append] at hlength
      exact hgroups (ihinner (dropGroups_eq_of_length (by omega)))

/-- What stands before a bracket that closes nothing loses its groups and nothing else. -/
theorem exists_flattenGroups_append (h : Grouped s t) (rest : List Char) :
    ∃ rest', flattenGroups (s ++ ')' :: rest) = t ++ ')' :: rest' := by
  generalize htext : s ++ ')' :: rest = text
  induction text using flattenGroups.induct generalizing s rest with
  | case1 text hfix =>
    subst htext
    rw [flattenGroups, dif_pos hfix]
    rw [h.dropGroups_append.1, dropGroups_plain rfl] at hfix
    have hlength := congrArg List.length hfix
    have hrest := length_dropGroups_le rest
    simp only [List.length_cons, List.length_append] at hlength
    rw [h.eq_of_dropGroups (dropGroups_eq_of_length (by omega))]
    exact ⟨rest, rfl⟩
  | case2 text hchange hlt ih =>
    subst htext
    have hround : Line.dropGroups (s ++ ')' :: rest) = Line.dropGroups s ++ ')' :: Line.dropGroups rest := by
      rw [h.dropGroups_append.1, dropGroups_plain rfl]
    obtain ⟨rest', hrest⟩ := ih h.dropGroups_append.2 _ hround.symm
    exact ⟨rest', by rw [flattenGroups, dif_neg hchange, hrest]⟩

theorem takeWhile_flattenGroups (h : Grouped s t) (rest : List Char) :
    (flattenGroups (s ++ ')' :: rest)).takeWhile (· != ')') = t := by
  obtain ⟨rest', hrest⟩ := exists_flattenGroups_append h rest
  have hclose : isBracket ')' = true := rfl
  have hne : ∀ c ∈ t, (c != ')') = true := by
    intro c hc
    rw [bne_iff_ne]
    rintro rfl
    rw [h.not_bracket _ hc] at hclose
    cases hclose
  rw [hrest, List.takeWhile_append_of_pos hne, List.takeWhile_cons_of_neg (by decide), List.append_nil]

end Grouped

end Consolidation.Python.Line
