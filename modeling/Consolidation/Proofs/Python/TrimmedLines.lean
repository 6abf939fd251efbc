/-
# `Proofs.Python.TrimmedLines` — a text with its lines trimmed

The line scanner puts a literal over several lines together again from lines that it has trimmed, with four spaces for a
tab.  `trimmedLines` does this to a text.

A text is what trimming leaves of it, between blanks (`exists_trim`).  Blanks at either end of a text leave only blanks at
that end when its lines are trimmed (`exists_trimmedLines_append_left`, `exists_trimmedLines_append_right`), and what
needs no trimming needs none afterwards (`Trimmed.trimmedLines`).  So it does not matter whether a text is trimmed before
or after its lines (`trim_trimmedLines`).

A line feed is a blank too, so blanks at an end of a text may be whole lines; trimming the lines makes them empty, and
trimming the text then takes them away.  Within the first and the last line it is the other way round: what trimming the
text takes away, trimming the lines would have taken.  The induction is on the lines of a text (`byLines`).
-/
import Consolidation.Proofs.Python.HeaderText
import Consolidation.Proofs.Text.Lines

namespace Consolidation.Python.Line

open Text

/-! ## Trimming -/

/-- Does a text neither start nor end with a blank? -/
structure Trimmed (s : List Char) : Prop where
  head : ∀ c ∈ s.head?, isBlank c = false
  last : ∀ c ∈ s.getLast?, isBlank c = false

theorem AllBlank.append {v w : List Char} (hv : AllBlank v) (hw : AllBlank w) : AllBlank (v ++ w) :=
  fun c hc => (List.mem_append.1 hc).elim (hv c) (hw c)

section Trim

variable {s t v w : List Char}

theorem trimEnd_append_blanks (hw : AllBlank w) (s : List Char) : trimEnd (s ++ w) = trimEnd s := by
  have hall : ∀ c ∈ w.reverse, isBlank c = true := fun c hc => hw c (List.mem_reverse.1 hc)
  rw [trimEnd, trimEnd, dropEndWhile, dropEndWhile, List.reverse_append, List.dropWhile_append_of_pos hall]

theorem Trimmed.trimEnd_eq (h : Trimmed s) : trimEnd s = s := by
  rcases List.eq_nil_or_concat s with rfl | ⟨init, c, rfl⟩
  · rfl
  · rw [List.concat_eq_append] at h ⊢
    exact trimEnd_append_cons (h.last c List.getLast?_concat) init []

theorem Trimmed.trim_eq (h : Trimmed t) (hv : AllBlank v) (hw : AllBlank w) : trim (v ++ (t ++ w)) = t := by
  rw [trim_append_blanks hv, trim]
  cases t with
  | nil =>
    rw [List.nil_append, trimStart_of_allBlank hw]
    rfl
  | cons c t =>
    have hstart : trimStart (c :: t ++ w) = c :: t ++ w := trimStart_cons_of_ink (h.head c rfl) (t ++ w)
    rw [hstart, trimEnd_append_blanks hw, h.trimEnd_eq]

theorem Trimmed.trim_eq_self (h : Trimmed t) : trim t = t := by
  have htrim := h.trim_eq (List.forall_mem_nil _) (List.forall_mem_nil _)
  rwa [List.append_nil, List.nil_append] at htrim

theorem trimEnd_isPrefix (s : List Char) : trimEnd s <+: s := by
  have hsuffix := List.dropWhile_suffix isBlank (l := s.reverse)
  rw [trimEnd, dropEndWhile, ← List.reverse_reverse s, List.reverse_prefix, List.reverse_reverse]
  exact hsuffix

theorem exists_trimStart_eq (s : List Char) : ∃ w, AllBlank w ∧ trimStart s = trim s ++ w := by
  refine ⟨((trimStart s).reverse.takeWhile isBlank).reverse,
    fun c hc => takeWhile_allBlank _ c (List.mem_reverse.1 hc), ?_⟩
  have htrim : trim s = ((trimStart s).reverse.dropWhile isBlank).reverse := rfl
  rw [htrim, ← List.reverse_append, List.takeWhile_append_dropWhile, List.reverse_reverse]

theorem trimmed_trim (s : List Char) : Trimmed (trim s) where
  head := by
    obtain ⟨w, -, hstart⟩ := exists_trimStart_eq s
    intro c hc
    refine not_blank_of_trimStart (s := s) ?_
    rw [hstart, List.head?_append, Option.mem_def.1 hc, Option.some_or]
  last := by
    have htrim : trim s = ((trimStart s).reverse.dropWhile isBlank).reverse := rfl
    have hlast := List.head?_dropWhile_not isBlank (trimStart s).reverse
    intro c hc
    rw [htrim, List.getLast?_reverse] at hc
    rw [Option.mem_def.1 hc] at hlast
    exact hlast

/-- A text is what trimming leaves of it, between blanks. -/
theorem exists_trim (s : List Char) : ∃ v w, AllBlank v ∧ AllBlank w ∧ s = v ++ (trim s ++ w) := by
  obtain ⟨w, hw, hstart⟩ := exists_trimStart_eq s
  exact ⟨s.takeWhile isBlank, w, takeWhile_allBlank s, hw, by rw [← hstart, blanks_append_trimStart]⟩

theorem trim_append_blanks_right (hw : AllBlank w) (s : List Char) : trim (s ++ w) = trim s := by
  obtain ⟨v, w', hv, hw', hs⟩ := exists_trim s
  have happend : s ++ w = v ++ (trim s ++ (w' ++ w)) := by
    rw [← List.append_assoc (trim s), ← List.append_assoc v, ← hs]
  rw [happend, (trimmed_trim s).trim_eq hv (hw'.append hw)]

theorem trim_of_allBlank (hv : AllBlank v) : trim v = [] := by
  rw [trim, trimStart_of_allBlank hv]
  rfl

end Trim

/-! ## Line by line -/

/-- A text is a line, or a line and a text behind it. -/
theorem byLines {P : List Char → Prop} (line : ∀ p, '\n' ∉ p → P p)
    (append : ∀ p s, '\n' ∉ p → P s → P (p ++ '\n' :: s)) (s : List Char) : P s := by
  induction hlength : s.length using Nat.strong_induction_on generalizing s with
  | _ n ih =>
    by_cases hnewline : '\n' ∈ s
    · obtain ⟨p, rest, rfl, hp⟩ := List.eq_append_cons_of_mem hnewline
      refine append p rest hp (ih rest.length ?_ rest rfl)
      rw [← hlength, List.length_append, List.length_cons]
      omega
    · exact line s hnewline

/-- The lines of a text, trimmed, with four spaces for a tab. -/
def trimmedLines (s : List Char) : List Char := joinWith ['\n'] ((splitOn '\n' s).map fun p => trim (expandTabs p))

section Lines

variable {p s v w : List Char}

theorem trimmedLines_line (h : '\n' ∉ p) : trimmedLines p = trim (expandTabs p) := by
  rw [trimmedLines, splitOn_of_not_mem h]
  rfl

theorem trimmedLines_append (h : '\n' ∉ p) (s : List Char) :
    trimmedLines (p ++ '\n' :: s) = trim (expandTabs p) ++ '\n' :: trimmedLines s := by
  obtain ⟨piece, later, hsplit, -⟩ := splitOn_cons '\n' '\n' s
  rw [trimmedLines, trimmedLines, splitOn_append_cons h, hsplit, List.map_cons, List.map_cons, joinWith]
  · rw [List.append_assoc]
    rfl
  · exact List.cons_ne_nil _ _

theorem trimmedLines_newline (s : List Char) : trimmedLines ('\n' :: s) = '\n' :: trimmedLines s :=
  trimmedLines_append List.not_mem_nil s

theorem trimmedLines_cons_of_blank {c : Char} (hc : isBlank c = true) (hne : c ≠ '\n') (s : List Char) :
    trimmedLines (c :: s) = trimmedLines s := by
  have htrim (p : List Char) : trim (expandTabs (c :: p)) = trim (expandTabs p) := by
    have hblank : AllBlank (expandTabs [c]) := allBlank_expandTabs (List.forall_mem_singleton.2 hc)
    rw [← List.singleton_append, expandTabs_append, trim_append_blanks hblank]
  have hline {p : List Char} (hp : '\n' ∉ p) : '\n' ∉ c :: p :=
    List.not_mem_cons_of_ne_of_not_mem (Ne.symm hne) hp
  induction s using byLines with
  | line p hp => rw [trimmedLines_line (hline hp), trimmedLines_line hp, htrim]
  | append p s hp _ => rw [← List.cons_append, trimmedLines_append (hline hp), trimmedLines_append hp, htrim]

/-- Of blanks before a text there are line ends left. -/
theorem exists_trimmedLines_append_left (hv : AllBlank v) (s : List Char) :
    ∃ v', AllBlank v' ∧ trimmedLines (v ++ s) = v' ++ trimmedLines s := by
  induction v with
  | nil => exact ⟨[], List.forall_mem_nil _, rfl⟩
  | cons c v ih =>
    obtain ⟨hc, hv⟩ := List.forall_mem_cons.1 hv
    obtain ⟨v', hv', heq⟩ := ih hv
    by_cases hnewline : c = '\n'
    · subst hnewline
      refine ⟨'\n' :: v', List.forall_mem_cons.2 ⟨rfl, hv'⟩, ?_⟩
      rw [List.cons_append, trimmedLines_newline, heq, List.cons_append]
    · refine ⟨v', hv', ?_⟩
      rw [List.cons_append, trimmedLines_cons_of_blank hc hnewline, heq]

theorem exists_trimmedLines_concat {c : Char} (hc : isBlank c = true) (s : List Char) :
    ∃ w, AllBlank w ∧ trimmedLines (s ++ [c]) = trimmedLines s ++ w := by
  induction s using byLines with
  | line p hp =>
    by_cases hnewline : c = '\n'
    · subst hnewline
      exact ⟨['\n'], List.forall_mem_singleton.2 rfl, by rw [trimmedLines_append hp, trimmedLines_line hp]; rfl⟩
    · have hline : '\n' ∉ p ++ [c] := by
        rw [List.mem_append, List.mem_singleton]
        exact fun h => h.elim hp (Ne.symm hnewline)
      have hblank : AllBlank (expandTabs [c]) := allBlank_expandTabs (List.forall_mem_singleton.2 hc)
      refine ⟨[], List.forall_mem_nil _, ?_⟩
      rw [trimmedLines_line hline, trimmedLines_line hp, expandTabs_append, trim_append_blanks_right hblank,
        List.append_nil]
  | append p s hp ih =>
    obtain ⟨w, hw, heq⟩ := ih
    refine ⟨w, hw, ?_⟩
    rw [List.append_assoc, List.cons_append, trimmedLines_append hp, heq, trimmedLines_append hp, List.append_assoc]
    rfl

/-- Of blanks behind a text there are line ends left. -/
theorem exists_trimmedLines_append_right (hw : AllBlank w) (s : List Char) :
    ∃ w', AllBlank w' ∧ trimmedLines (s ++ w) = trimmedLines s ++ w' := by
  induction w generalizing s with
  | nil => exact ⟨[], List.forall_mem_nil _, by rw [List.append_nil, List.append_nil]⟩
  | cons c w ih =>
    obtain ⟨hc, hw⟩ := List.forall_mem_cons.1 hw
    obtain ⟨w₁, hw₁, hfirst⟩ := exists_trimmedLines_concat hc s
    obtain ⟨w₂, hw₂, hrest⟩ := ih hw (s ++ [c])
    refine ⟨w₁ ++ w₂, hw₁.append hw₂, ?_⟩
    rw [List.append_cons, hrest, hfirst, List.append_assoc]

/-! ## Nothing to trim -/

theorem expandTabs_singleton {c : Char} (hc : isBlank c = false) : expandTabs [c] = [c] := by
  refine expandTabs_cons_of_ne ?_ []
  rintro rfl
  cases hc

theorem head?_trimmedLines {c : Char} (hc : isBlank c = false) (s : List Char) :
    (trimmedLines (c :: s)).head? = some c := by
  have htrim (p : List Char) : ∃ q, trim (expandTabs (c :: p)) = c :: q := by
    refine ⟨trimEnd (expandTabs p), ?_⟩
    rw [← List.singleton_append, expandTabs_append, expandTabs_singleton hc, List.singleton_append, trim,
      trimStart_cons_of_ink hc]
    exact trimEnd_append_cons hc [] (expandTabs p)
  have hline {p : List Char} (hp : '\n' ∉ p) : '\n' ∉ c :: p := by
    refine List.not_mem_cons_of_ne_of_not_mem ?_ hp
    rintro rfl
    cases hc
  induction s using byLines with
  | line p hp =>
    obtain ⟨q, hq⟩ := htrim p
    rw [trimmedLines_line (hline hp), hq, List.head?_cons]
  | append p s hp _ =>
    obtain ⟨q, hq⟩ := htrim p
    rw [← List.cons_append, trimmedLines_append (hline hp), hq, List.cons_append, List.head?_cons]

theorem getLast?_trimmedLines {c : Char} (hc : isBlank c = false) (s : List Char) :
    (trimmedLines (s ++ [c])).getLast? = some c := by
  induction s using byLines with
  | line p hp =>
    have hline : '\n' ∉ p ++ [c] := by
      rw [List.mem_append, List.mem_singleton]
      rintro (h | rfl)
      · exact hp h
      · cases hc
    rw [trimmedLines_line hline, expandTabs_append, expandTabs_singleton hc, trim, trimStart_append_cons hc,
      trimEnd_append_cons hc]
    exact List.getLast?_concat
  | append p s hp ih =>
    have hne : trimmedLines (s ++ [c]) ≠ [] := by
      intro hnil
      rw [hnil] at ih
      cases ih
    rw [List.append_assoc, List.cons_append, trimmedLines_append hp, List.append_cons,
      List.getLast?_append_of_ne_nil _ hne, ih]

theorem Trimmed.trimmedLines (h : Trimmed s) : Trimmed (trimmedLines s) where
  head := by
    cases s with
    | nil => exact fun c hc => by cases hc
    | cons c s =>
      have hc := h.head c rfl
      rw [head?_trimmedLines hc]
      rintro _ ⟨⟩
      exact hc
  last := by
    rcases List.eq_nil_or_concat s with rfl | ⟨init, c, rfl⟩
    · exact fun c hc => by cases hc
    · rw [List.concat_eq_append] at h ⊢
      have hc := h.last c List.getLast?_concat
      rw [getLast?_trimmedLines hc]
      rintro _ ⟨⟩
      exact hc

/-- It does not matter whether a text is trimmed before or after its lines. -/
theorem trim_trimmedLines (s : List Char) : trim (trimmedLines s) = trimmedLines (trim s) := by
  obtain ⟨v, w, hv, hw, hs⟩ := exists_trim s
  obtain ⟨v', hv', hleft⟩ := exists_trimmedLines_append_left hv (trim s ++ w)
  obtain ⟨w', hw', hright⟩ := exists_trimmedLines_append_right hw (trim s)
  conv_lhs => rw [hs, hleft, hright]
  exact (trimmed_trim s).trimmedLines.trim_eq hv' hw'

theorem Trimmed.trimmedLines_eq_nil_iff (h : Trimmed s) : Line.trimmedLines s = [] ↔ s = [] := by
  cases s with
  | nil => exact iff_of_true rfl rfl
  | cons c s =>
    refine iff_of_false (fun hnil => ?_) (List.cons_ne_nil c s)
    have hhead := head?_trimmedLines (h.head c rfl) s
    rw [hnil] at hhead
    cases hhead

end Lines

end Consolidation.Python.Line
