/-
# `Proofs.Python.ParameterList` — the parameters that are left when the groups of brackets are gone

Dropping the innermost groups of brackets round by round comes to an end, and then there are none left (`exists_rounds`,
`not_holdsGroup_flattenGroups`): a round that finds a group makes the text shorter, and one that changes nothing has found
none.

For a list of parameters that is closed by a bracket the rounds come to the same as keeping what stands outside of all
brackets (`outside`), whatever brackets follow.  So commas in groups separate nothing, and the list splits at its own
commas (`parameterText_pieces`).  Whether the brackets of a text match can be decided with a stack (`isGrouped_iff`).

## What is proved

For every text: the rounds come to an end after no more of them than it has characters, what they leave holds no group and
is changed by no further round, and each round before changed something.

For all pieces in which brackets match and commas stand in brackets, and any text without quotes behind the bracket that
closes the list: what the scanner takes for the parameters is what stands outside of all brackets, it is split at the
commas between the pieces and at no other ones, and each piece that names a parameter gives its name.

## How it goes

The scanner does not stop at the bracket that closes the list; it flattens all that follows the opening one and then looks
for the first closing bracket that is left.  Within the list each group goes, so that the first one left is that of the
list, whatever stands behind it (`exists_flattenGroups_append`).
-/
import Mathlib.Logic.Function.Iterate
import Consolidation.Proofs.Python.HeaderText

namespace Consolidation.Python.Line

open Text

/-! ## The end of the rounds -/

section Rounds

variable {s : List Char}

/-- A group of brackets without brackets in it. -/
def HoldsGroup (s : List Char) : Prop :=
  ∃ before opener inner close behind, s = before ++ opener :: (inner ++ close :: behind) ∧ closer? opener = some close ∧
    ∀ c ∈ inner, isBracket c = false

theorem not_holdsGroup_of_dropGroups (h : dropGroups s = s) : ¬HoldsGroup s := by
  rintro ⟨before, opener, inner, close, behind, rfl, hclose, hinner⟩
  induction before with
  | nil =>
    have hplain := grouped_of_plain hinner
    obtain ⟨-, hdrop⟩ := (dropGroup?_group hclose hplain behind).resolve_right fun hgroups => hgroups.1 rfl
    rw [List.nil_append, dropGroups_cons_of_some hdrop] at h
    have hlength := length_dropGroups_le behind
    rw [h] at hlength
    simp only [List.length_cons, List.length_append] at hlength
    omega
  | cons c before ih =>
    rw [List.cons_append] at h
    cases hdrop : dropGroup? (c :: (before ++ opener :: (inner ++ close :: behind))) with
    | some rest =>
      have hrest := length_dropGroup? hdrop
      have hlength := length_dropGroups_le rest
      rw [← dropGroups_cons_of_some hdrop, h, List.length_cons] at hlength
      omega
    | none =>
      rw [dropGroups_cons_of_none hdrop] at h
      exact ih (List.cons.inj h).2

/-- After some rounds, no more than there are characters, a round changes nothing for the first time. -/
theorem exists_rounds (s : List Char) :
    ∃ n ≤ s.length, flattenGroups s = dropGroups^[n] s ∧ dropGroups (flattenGroups s) = flattenGroups s ∧
      ∀ m < n, dropGroups (dropGroups^[m] s) ≠ dropGroups^[m] s := by
  induction s using flattenGroups.induct with
  | case1 s hfix =>
    have hflat : flattenGroups s = s := by rw [flattenGroups, dif_pos hfix]
    exact ⟨0, Nat.zero_le _, hflat, hflat.symm ▸ hfix, fun m hm => absurd hm (Nat.not_lt_zero m)⟩
  | case2 s hchange hlt ih =>
    obtain ⟨n, hn, hrounds, hfix, hbefore⟩ := ih
    have hflat : flattenGroups s = flattenGroups (dropGroups s) := by rw [flattenGroups, dif_neg hchange]
    refine ⟨n + 1, Nat.lt_of_le_of_lt hn hlt, hflat.trans hrounds, by rw [hflat, hfix], fun m hm => ?_⟩
    cases m with
    | zero => exact hchange
    | succ m => exact hbefore m (Nat.lt_of_succ_lt_succ hm)

theorem not_holdsGroup_flattenGroups (s : List Char) : ¬HoldsGroup (flattenGroups s) := by
  obtain ⟨n, -, -, hfix, -⟩ := exists_rounds s
  exact not_holdsGroup_of_dropGroups hfix

end Rounds

/-! ## What stands outside of all brackets -/

/-- The characters outside of all brackets in a text before which so many brackets are open. -/
def outsideFrom : Nat → List Char → List Char
  | _, [] => []
  | depth, c :: s =>
    if (closer? c).isSome then outsideFrom (depth + 1) s
    else if isBracket c then outsideFrom (depth - 1) s
    else if depth = 0 then c :: outsideFrom depth s
    else outsideFrom depth s

/-- The characters of a text outside of all brackets. -/
def outside (s : List Char) : List Char := outsideFrom 0 s

section Outside

variable {s t : List Char}

theorem Grouped.outsideFrom_append (h : Grouped s t) (depth : Nat) (tail : List Char) :
    outsideFrom depth (s ++ tail) = (if depth = 0 then t else []) ++ outsideFrom depth tail := by
  induction h generalizing depth tail with
  | nil => simp
  | @plain c s t hc _ ih =>
    rw [List.cons_append, outsideFrom, closer?_of_not_bracket hc, if_neg (by decide), hc, if_neg Bool.false_ne_true, ih]
    split <;> rfl
  | @group opener close inner left s t hclose _ _ ihinner ih =>
    have hbracket := (isBracket_of_closer? hclose).2
    rw [List.cons_append, List.append_assoc, outsideFrom, hclose, Option.isSome_some, if_pos rfl, ihinner,
      if_neg (Nat.succ_ne_zero depth),
      List.nil_append, List.cons_append, outsideFrom, closer?_of_closer? hclose, if_neg (by decide), if_pos hbracket,
      Nat.add_sub_cancel, ih]

/-- What is left of a text without its groups is what stands outside of them. -/
theorem Grouped.outside_eq (h : Grouped s t) : outside s = t := by
  have hall := h.outsideFrom_append 0 []
  rwa [List.append_nil, if_pos rfl, outsideFrom, List.append_nil] at hall

/-! ## Do the brackets of a text match? -/

/-- Do the brackets of a text match, behind others that wait for the brackets on a stack? -/
def closesAll : List Char → List Char → Bool
  | stack, [] => stack.isEmpty
  | stack, c :: s =>
    match closer? c with
    | some close => closesAll (close :: stack) s
    | none =>
      if isBracket c then stack.head? == some c && closesAll stack.tail s else closesAll stack s

/-- The groups of a text that are open wait for the brackets on a stack. -/
def ClosedBy : List Char → List Char → Prop
  | [], s => ∃ t, Grouped s t
  | close :: stack, s => ∃ inner left behind, s = inner ++ close :: behind ∧ Grouped inner left ∧ ClosedBy stack behind

theorem ClosedBy.append {stack : List Char} (h : Grouped s t) {rest : List Char} (hrest : ClosedBy stack rest) :
    ClosedBy stack (s ++ rest) := by
  cases stack with
  | nil =>
    obtain ⟨left, hleft⟩ := hrest
    exact ⟨t ++ left, h.append hleft⟩
  | cons close stack =>
    obtain ⟨inner, left, behind, rfl, hinner, hbehind⟩ := hrest
    exact ⟨s ++ inner, t ++ left, behind, (List.append_assoc ..).symm, h.append hinner, hbehind⟩

theorem closedBy_of_closesAll {stack : List Char} (h : closesAll stack s = true) : ClosedBy stack s := by
  induction s generalizing stack with
  | nil =>
    cases stack with
    | nil => exact ⟨[], .nil⟩
    | cons close stack => cases h
  | cons c s ih =>
    rw [closesAll] at h
    split at h
    · next close hclose =>
      obtain ⟨inner, left, behind, rfl, hinner, hbehind⟩ := ih h
      have hgroup := ClosedBy.append (.group hclose hinner .nil) hbehind
      rwa [List.cons_append, List.append_assoc] at hgroup
    · split at h
      · cases stack with
        | nil => cases h
        | cons close stack =>
          obtain ⟨hc, hs⟩ := Bool.and_eq_true_iff.1 h
          obtain rfl := Option.some.inj (beq_iff_eq.1 hc)
          exact ⟨[], [], s, rfl, .nil, ih hs⟩
      · next hplain => exact ClosedBy.append (.plain (Bool.not_eq_true _ ▸ hplain) .nil) (ih h)

theorem Grouped.closesAll_append (h : Grouped s t) (stack tail : List Char) :
    closesAll stack (s ++ tail) = closesAll stack tail := by
  induction h generalizing stack tail with
  | nil => rfl
  | @plain c s t hc _ ih =>
    rw [List.cons_append, closesAll, closer?_of_not_bracket hc]
    show (if isBracket c then _ else closesAll stack (s ++ tail)) = _
    rw [hc, if_neg Bool.false_ne_true, ih]
  | @group opener close inner left s t hclose _ _ ihinner ih =>
    have hbracket := (isBracket_of_closer? hclose).2
    rw [List.cons_append, List.append_assoc, closesAll, hclose]
    show closesAll (close :: stack) (inner ++ (close :: s ++ tail)) = _
    rw [ihinner, List.cons_append, closesAll, closer?_of_closer? hclose]
    show (if isBracket close then some close == some close && closesAll stack (s ++ tail) else _) = _
    rw [if_pos hbracket, beq_self_eq_true, Bool.true_and, ih]

/-- The stack decides whether the brackets match. -/
theorem isGrouped_iff : closesAll [] s = true ↔ ∃ t, Grouped s t := by
  refine ⟨closedBy_of_closesAll, fun ⟨t, h⟩ => ?_⟩
  have hall := h.closesAll_append [] []
  rwa [List.append_nil] at hall

end Outside

/-! ## Lists of parameters -/

/-- What the line scanner splits into parameters, of the text behind the opening bracket. -/
def parameterText (text : List Char) : List Char :=
  (flattenGroups (emptyStrings text.length text)).takeWhile (· != ')')

/-- A piece of a list of parameters: its brackets match, its commas stand in brackets, and there is no quote in it. -/
structure IsParameterPiece (piece : List Char) : Prop where
  grouped : ∃ left, Grouped piece left
  comma_not_mem : ',' ∉ outside piece
  not_quote : ∀ c ∈ piece, isQuote c = false

section Lists

variable {pieces : List (List Char)}

theorem joinWith_cons_of_ne_nil (sep piece : List Char) (h : pieces ≠ []) :
    joinWith sep (piece :: pieces) = piece ++ (sep ++ joinWith sep pieces) := by
  cases pieces with
  | nil => exact absurd rfl h
  | cons next pieces =>
    rw [joinWith, List.append_assoc]
    exact List.cons_ne_nil _ _

theorem splitOn_joinWith {sep : Char} (hne : pieces ≠ []) (h : ∀ piece ∈ pieces, sep ∉ piece) :
    splitOn sep (joinWith [sep] pieces) = pieces := by
  induction pieces with
  | nil => exact absurd rfl hne
  | cons piece pieces ih =>
    obtain ⟨hpiece, hpieces⟩ := List.forall_mem_cons.1 h
    by_cases hnil : pieces = []
    · subst hnil
      exact splitOn_of_not_mem hpiece
    · rw [joinWith_cons_of_ne_nil _ _ hnil, List.singleton_append, splitOn_append_cons hpiece, ih hnil hpieces]

theorem grouped_joinWith (h : ∀ piece ∈ pieces, ∃ left, Grouped piece left) :
    Grouped (joinWith [','] pieces) (joinWith [','] (pieces.map outside)) := by
  induction pieces with
  | nil => exact .nil
  | cons piece pieces ih =>
    obtain ⟨⟨left, hleft⟩, hpieces⟩ := List.forall_mem_cons.1 h
    obtain rfl := hleft.outside_eq
    by_cases hnil : pieces = []
    · subst hnil
      exact hleft
    · have hnil' : pieces.map outside ≠ [] := fun hmap => hnil (List.map_eq_nil_iff.1 hmap)
      rw [List.map_cons, joinWith_cons_of_ne_nil _ _ hnil, joinWith_cons_of_ne_nil _ _ hnil']
      exact hleft.append (.plain rfl (ih hpieces))

/-- The rounds come to an end for every text, and then there is no group of brackets without brackets in it.  A list of
parameters that is closed by a bracket loses its groups and nothing else, and splits at the commas outside of them. -/
theorem parameterText_pieces :
    (∀ s, ¬HoldsGroup (flattenGroups s) ∧
      ∃ n ≤ s.length, flattenGroups s = dropGroups^[n] s ∧ dropGroups (flattenGroups s) = flattenGroups s ∧
        ∀ m < n, dropGroups (dropGroups^[m] s) ≠ dropGroups^[m] s) ∧
      ∀ (pieces : List (List Char)) (rest : List Char), pieces ≠ [] → (∀ piece ∈ pieces, IsParameterPiece piece) →
        (∀ c ∈ rest, isQuote c = false) →
        parameterText (joinWith [','] pieces ++ ')' :: rest) = outside (joinWith [','] pieces) ∧
          splitOn ',' (parameterText (joinWith [','] pieces ++ ')' :: rest)) = pieces.map outside ∧
          ∀ header start, headerStart? header = some start → start.rest = joinWith [','] pieces ++ ')' :: rest →
            parameterNames header = (pieces.map outside).filterMap parameterName? := by
  refine ⟨fun s => ⟨not_holdsGroup_flattenGroups s, exists_rounds s⟩, fun pieces rest hne hpieces hrest => ?_⟩
  have hgrouped := grouped_joinWith fun piece hpiece => (hpieces piece hpiece).grouped
  have hquotes : ∀ c ∈ joinWith [','] pieces ++ ')' :: rest, isQuote c = false := by
    refine List.forall_mem_append.2 ⟨fun c hc => ?_, List.forall_mem_cons.2 ⟨rfl, hrest⟩⟩
    rcases mem_of_mem_joinWith hc with hc | ⟨piece, hpiece, hc⟩
    · rw [List.mem_singleton.1 hc]
      rfl
    · exact (hpieces piece hpiece).not_quote c hc
  have htext : parameterText (joinWith [','] pieces ++ ')' :: rest) = joinWith [','] (pieces.map outside) := by
    have hempty : emptyStrings _ (joinWith [','] pieces ++ ')' :: rest) = _ := emptied_of_not_quote hquotes
    rw [parameterText, hempty, takeWhile_flattenGroups hgrouped]
  have hsplit : splitOn ',' (joinWith [','] (pieces.map outside)) = pieces.map outside := by
    refine splitOn_joinWith (fun hmap => hne (List.map_eq_nil_iff.1 hmap)) fun piece hpiece => ?_
    obtain ⟨whole, hwhole, rfl⟩ := List.mem_map.1 hpiece
    exact (hpieces whole hwhole).comma_not_mem
  refine ⟨htext.trans hgrouped.outside_eq.symm, by rw [htext, hsplit], fun header start hstart hbehind => ?_⟩
  have hnames : parameterNames header = (splitOn ',' (parameterText start.rest)).filterMap parameterName? :=
    parameterNames_of_start hstart
  rw [hnames, hbehind, htext, hsplit]

end Lists

namespace Sample

/-- Parameters with brackets of all kinds in one another. -/
def crowded : List (List Char) :=
  ["a: t[(int, [x])]".toList, " b=g(\x7b1: (2, 3)\x7d)".toList, " *c".toList]

theorem isParameterPiece_crowded : ∀ piece ∈ crowded, IsParameterPiece piece := by
  have hall : ∀ piece ∈ crowded, closesAll [] piece = true ∧ ',' ∉ outside piece ∧ ∀ c ∈ piece, isQuote c = false := by
    decide
  intro piece hpiece
  obtain ⟨hgrouped, hcomma, hquote⟩ := hall piece hpiece
  exact ⟨isGrouped_iff.1 hgrouped, hcomma, hquote⟩

end Sample

/-- Brackets without a match behind the list do not matter. -/
theorem parameterText_pieces_crowded :
    Sample.crowded ≠ [] ∧ (∀ piece ∈ Sample.crowded, IsParameterPiece piece) ∧ (∀ c ∈ " -> [(]:".toList, isQuote c = false) ∧
      parameterText (joinWith [','] Sample.crowded ++ ')' :: " -> [(]:".toList) = "a: t, b=g, *c".toList ∧
      parameterNames ("def f(".toList ++ (joinWith [','] Sample.crowded ++ ')' :: " -> [(]:".toList)) =
        ["a".toList, "b".toList, "c".toList] := by
  have hne : Sample.crowded ≠ [] := by decide
  have hrest : ∀ c ∈ " -> [(]:".toList, isQuote c = false := by decide
  obtain ⟨htext, -, hnames⟩ := parameterText_pieces.2 Sample.crowded _ hne Sample.isParameterPiece_crowded hrest
  have hstart : headerStart? ("def f(".toList ++ (joinWith [','] Sample.crowded ++ ')' :: " -> [(]:".toList)) =
      some ⟨0, "f".toList, joinWith [','] Sample.crowded ++ ')' :: " -> [(]:".toList⟩ := by
    decide +kernel
  refine ⟨hne, Sample.isParameterPiece_crowded, hrest, htext.trans (by decide), ?_⟩
  exact (hnames _ _ hstart rfl).trans (by decide +kernel)

end Consolidation.Python.Line
