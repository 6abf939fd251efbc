/-
# `Proofs.Python.TabStops` — accepted indentation does not depend on the tab size

The check measures each indentation twice, with tab stops eight columns apart and with one column for a tab.  An editor
shows it with one width.  So the question is what the check would do with the width at some tab stops in place of both
measures (`Indent.single`), and what it does is a push or some pops for each line (`Levels.moves`).

Two facts answer it.  What the check accepts depends only on which indentations are deeper than others by both measures: a
map that keeps `Indent.Deeper` takes each move to the same move (`Levels.enter_map`), and so an accepted text to an
accepted one (`Levels.moves_map`, `checkLines_map`).  And where a line starts with tabs and then spaces, its width at tab
stops between one and eight is a mean of the two measures with fixed weights (`single_width`); such a mean keeps
`Indent.Deeper` (`mean_deeper`).

## What is proved

For every source that the check accepts, whose indentations are made of tabs and then spaces, and every number of columns
from one to eight: with tab stops so many columns apart as the only measure the check accepts it as well, and makes the
same pushes and pops, line by line.

With more than eight columns the width lies outside of the two measures and is no mean of them.  And where a tab stands
behind spaces it is as wide as what is left up to the next stop, which depends on the spaces.
-/
import Mathlib.Tactic.Ring
import Consolidation.Proofs.Python.LogicalLines

namespace Consolidation.Python

open Text

/-! ## Widths -/

/-- Measures on from a width, with tab stops so many columns apart; a form feed starts anew. -/
def widthFrom (stop width : Nat) : List Char → Nat
  | [] => width
  | c :: rest =>
    if c == ' ' then widthFrom stop (width + 1) rest
    else if c == '\t' then widthFrom stop ((width / stop + 1) * stop) rest
    else if c == '\x0c' then widthFrom stop 0 rest
    else width

def width (stop : Nat) (line : List Char) : Nat := widthFrom stop 0 line

theorem measureFrom_eq (i : Indent) (line : List Char) :
    i.measureFrom line = ⟨widthFrom 8 i.columns line, widthFrom 1 i.characters line⟩ := by
  induction line generalizing i with
  | nil => rfl
  | cons c line ih =>
    simp only [Indent.measureFrom, widthFrom]
    by_cases hspace : (c == ' ') = true
    · simp only [if_pos hspace]
      exact ih _
    by_cases htab : (c == '\t') = true
    · simp only [if_neg hspace, if_pos htab, Nat.div_one, Nat.mul_one]
      exact ih _
    by_cases hfeed : (c == '\x0c') = true
    · simp only [if_neg hspace, if_neg htab, if_pos hfeed]
      exact ih _
    · simp only [if_neg hspace, if_neg htab, if_neg hfeed]

/-- The two measures are the widths at tab stops of eight columns and of one. -/
theorem measure_eq (line : List Char) : Indent.measure line = ⟨width 8 line, width 1 line⟩ :=
  measureFrom_eq .zero line

/-- Do tabs and then spaces make up the indentation of a line? -/
def tabsThenSpaces (line : List Char) : Bool :=
  ((line.takeWhile LogicalLine.isIndentation).dropWhile (· == '\t')).all (· == ' ')

theorem exists_of_tabsThenSpaces {line : List Char} (h : tabsThenSpaces line = true) :
    ∃ tabs spaces rest, line = List.replicate tabs '\t' ++ (List.replicate spaces ' ' ++ rest) ∧
      ∀ c ∈ rest.head?, LogicalLine.isIndentation c = false := by
  have htab : ∀ c ∈ (line.takeWhile LogicalLine.isIndentation).takeWhile (· == '\t'), c = '\t' := by
    intro c hc
    have htab := List.mem_takeWhile_imp (p := (· == '\t')) hc
    exact beq_iff_eq.1 htab
  have hspace : ∀ c ∈ (line.takeWhile LogicalLine.isIndentation).dropWhile (· == '\t'), c = ' ' :=
    fun c hc => beq_iff_eq.1 (List.all_eq_true.1 h c hc)
  have hline : line = (line.takeWhile LogicalLine.isIndentation).takeWhile (· == '\t') ++
      ((line.takeWhile LogicalLine.isIndentation).dropWhile (· == '\t') ++ line.dropWhile LogicalLine.isIndentation) := by
    rw [← List.append_assoc, List.takeWhile_append_dropWhile, List.takeWhile_append_dropWhile]
  rw [List.eq_replicate_of_mem htab, List.eq_replicate_of_mem hspace] at hline
  refine ⟨_, _, _, hline, fun c hc => ?_⟩
  have hfirst := List.head?_dropWhile_not LogicalLine.isIndentation line
  rw [Option.mem_def.1 hc] at hfirst
  exact hfirst

theorem widthFrom_spaces (stop width spaces : Nat) (rest : List Char) :
    widthFrom stop width (List.replicate spaces ' ' ++ rest) = widthFrom stop (width + spaces) rest := by
  induction spaces generalizing width with
  | zero => rfl
  | succ spaces ih =>
    rw [List.replicate_succ, List.cons_append, widthFrom, if_pos (beq_self_eq_true ' '), ih]
    congr 1
    omega

theorem widthFrom_tabs {stop : Nat} (hstop : 0 < stop) (before tabs : Nat) (rest : List Char) :
    widthFrom stop (before * stop) (List.replicate tabs '\t' ++ rest) = widthFrom stop ((before + tabs) * stop) rest := by
  induction tabs generalizing before with
  | zero => rfl
  | succ tabs ih =>
    rw [List.replicate_succ, List.cons_append, widthFrom, if_neg (by decide), if_pos (beq_self_eq_true '\t'),
      Nat.mul_div_cancel before hstop, ih]
    congr 2
    omega

theorem widthFrom_of_head? {rest : List Char} (h : ∀ c ∈ rest.head?, LogicalLine.isIndentation c = false)
    (stop width : Nat) : widthFrom stop width rest = width := by
  cases rest with
  | nil => rfl
  | cons c rest =>
    have hc := h c rfl
    simp only [LogicalLine.isIndentation, Bool.or_eq_false_iff] at hc
    obtain ⟨⟨hspace, htab⟩, hfeed⟩ := hc
    simp only [widthFrom, hspace, htab, hfeed, Bool.false_eq_true, if_false]

theorem exists_width {line : List Char} (h : tabsThenSpaces line = true) :
    ∃ tabs spaces, ∀ stop, 0 < stop → width stop line = tabs * stop + spaces := by
  obtain ⟨tabs, spaces, rest, rfl, hrest⟩ := exists_of_tabsThenSpaces h
  refine ⟨tabs, spaces, fun stop hstop => ?_⟩
  have htabs := widthFrom_tabs hstop 0 tabs (List.replicate spaces ' ' ++ rest)
  rw [Nat.zero_mul, Nat.zero_add] at htabs
  rw [width, htabs, widthFrom_spaces, widthFrom_of_head? hrest]

/-! ## Means of the two measures -/

namespace Indent

/-- One width in place of both measures. -/
def single (width : Nat) : Indent := ⟨width, width⟩

/-- The mean of the two measures with the weights that belong to some tab stops. -/
def mean (stop : Nat) (i : Indent) : Indent := single (((stop - 1) * i.columns + (8 - stop) * i.characters) / 7)

theorem mean_zero (stop : Nat) : mean stop zero = zero := by
  simp [mean, single, zero]

end Indent

section Mean

variable {stop : Nat}

/-- Of tabs and then spaces, the width at tab stops between one and eight is a mean of the two measures. -/
theorem single_width (hlow : 1 ≤ stop) (hhigh : stop ≤ 8) {line : List Char} (h : tabsThenSpaces line = true) :
    Indent.single (width stop line) = (Indent.measure line).mean stop := by
  obtain ⟨tabs, spaces, hwidth⟩ := exists_width h
  obtain ⟨more, rfl⟩ := Nat.exists_eq_add_of_le hlow
  obtain ⟨less, hless⟩ := Nat.exists_eq_add_of_le hhigh
  have hmore : 1 + more - 1 = more := by omega
  have hless' : 8 - (1 + more) = less := by omega
  have hseven : more + less = 7 := by omega
  have hmean : more * (tabs * 8 + spaces) + less * (tabs * 1 + spaces) = 7 * (tabs * (1 + more) + spaces) := by
    calc more * (tabs * 8 + spaces) + less * (tabs * 1 + spaces)
        = 7 * (more * tabs) + (more + less) * (tabs + spaces) := by ring
      _ = 7 * (tabs * (1 + more) + spaces) := by rw [hseven]; ring
  rw [measure_eq, Indent.mean, hwidth 8 (by decide), hwidth 1 (by decide), hwidth (1 + more) (by omega), hmore,
    hless', hmean, Nat.mul_div_cancel_left _ (by decide)]

/-- What is deeper by both measures is deeper by a mean of them. -/
theorem mean_deeper (hlow : 1 ≤ stop) (hhigh : stop ≤ 8) {inner outer : Indent} (h : inner.Deeper outer) :
    (inner.mean stop).Deeper (outer.mean stop) := by
  obtain ⟨hcolumns, hcharacters⟩ := h
  have hcolumns' := Nat.mul_le_mul_left (stop - 1) (Nat.succ_le_of_lt hcolumns)
  have hcharacters' := Nat.mul_le_mul_left (8 - stop) (Nat.succ_le_of_lt hcharacters)
  rw [Nat.mul_succ] at hcolumns' hcharacters'
  have hlt : ((stop - 1) * outer.columns + (8 - stop) * outer.characters) / 7 <
      ((stop - 1) * inner.columns + (8 - stop) * inner.characters) / 7 := by omega
  exact ⟨hlt, hlt⟩

end Mean

/-! ## The same moves -/

/-- What a line does to the stack of levels.  It pops no level if it goes on in the block of the line before. -/
inductive Move where
  | push
  | pop (count : Nat)
deriving DecidableEq, Repr

namespace Levels

def move (levels levels' : Levels) : Move :=
  if levels.length < levels'.length then .push else .pop (levels.length - levels'.length)

/-- The moves that the check makes, one for each line. -/
def moves : Levels → Bool → List LogicalLine → Except IndentationCause (List Move)
  | _, _, [] => .ok []
  | levels, expected, line :: rest => do
    let levels' ← levels.enter expected line.indent
    let behind ← moves levels' line.opens rest
    return levels.move levels' :: behind

variable {f : Indent → Indent}

theorem move_map (f : Indent → Indent) (levels levels' : Levels) :
    move (levels.map f) (levels'.map f) = move levels levels' := by
  simp only [move, List.length_map]

theorem innermost_map (hzero : f .zero = .zero) (levels : Levels) :
    innermost (levels.map f) = f levels.innermost := by
  cases levels with
  | nil => exact hzero.symm
  | cons i outer => rfl

theorem Nested.map (hzero : f .zero = .zero) (hf : ∀ i j : Indent, i.Deeper j → (f i).Deeper (f j)) {levels : Levels}
    (h : Nested levels) : Nested (levels.map f) := by
  have hstack : stack (levels.map f) = levels.stack.map f := by
    rw [stack, stack, List.map_append, List.map_singleton, hzero]
  rw [Nested, hstack]
  exact List.Pairwise.map f (fun i j => hf i j) h

/-- A map that keeps what is deeper takes the levels at a line to the levels at the mapped line. -/
theorem enter_map (hzero : f .zero = .zero) (hf : ∀ i j : Indent, i.Deeper j → (f i).Deeper (f j))
    {levels levels' : Levels} {expected : Bool} {indent : Indent} (h : Nested levels)
    (henter : levels.enter expected indent = .ok levels') :
    Levels.enter (levels.map f) expected (f indent) = .ok (levels'.map f) := by
  cases expected with
  | true =>
    obtain ⟨hdeeper, rfl⟩ := enter_true_eq_ok_iff.1 henter
    refine enter_true_eq_ok_iff.2 ⟨?_, rfl⟩
    rw [innermost_map hzero]
    exact hf _ _ hdeeper
  | false =>
    obtain ⟨hsuffix, rfl⟩ := (enter_false_eq_ok_iff h).1 henter
    exact (enter_false_eq_ok_iff (h.map hzero hf)).2 ⟨hsuffix.map f, innermost_map hzero levels'⟩

end Levels

/-- A logical line with its indentation measured in another way. -/
def LogicalLine.remeasure (f : Indent → Indent) (l : LogicalLine) : LogicalLine := { l with indent := f l.indent }

open Levels

section Map

variable {f : Indent → Indent} {finish : Nat} {levels : Levels} {expected : Bool} {ls : List LogicalLine}

/-- Mapped lines are accepted if the lines are. -/
theorem checkLines_map (hzero : f .zero = .zero) (hf : ∀ i j : Indent, i.Deeper j → (f i).Deeper (f j))
    (h : Nested levels) (haccepted : checkLines finish levels expected ls = .ok ()) :
    checkLines finish (levels.map f) expected (ls.map (·.remeasure f)) = .ok () := by
  induction ls generalizing levels expected with
  | nil => exact haccepted
  | cons line rest ih =>
    rw [checkLines_cons] at haccepted
    rw [List.map_cons, checkLines_cons]
    cases henter : levels.enter expected line.indent with
    | error cause =>
      rw [henter] at haccepted
      cases haccepted
    | ok levels' =>
      rw [henter] at haccepted
      have hmapped := enter_map hzero hf h henter
      rw [LogicalLine.remeasure, hmapped]
      exact ih (h.enter henter) haccepted

/-- Mapped lines make the moves that the lines make. -/
theorem moves_map (hzero : f .zero = .zero) (hf : ∀ i j : Indent, i.Deeper j → (f i).Deeper (f j)) (h : Nested levels)
    (haccepted : checkLines finish levels expected ls = .ok ()) :
    ∃ ms, levels.moves expected ls = .ok ms ∧ Levels.moves (levels.map f) expected (ls.map (·.remeasure f)) = .ok ms := by
  induction ls generalizing levels expected with
  | nil => exact ⟨[], rfl, rfl⟩
  | cons line rest ih =>
    rw [checkLines_cons] at haccepted
    cases henter : levels.enter expected line.indent with
    | error cause =>
      rw [henter] at haccepted
      cases haccepted
    | ok levels' =>
      rw [henter] at haccepted
      have hmapped := enter_map hzero hf h henter
      obtain ⟨ms, hms, hms'⟩ := ih (h.enter henter) haccepted
      refine ⟨levels.move levels' :: ms, ?_, ?_⟩
      · rw [moves, henter]
        exact congrArg (Except.map (levels.move levels' :: ·)) hms
      · rw [List.map_cons, moves, LogicalLine.remeasure, hmapped, ← move_map f levels levels']
        exact congrArg (Except.map (Levels.move (levels.map f) (levels'.map f) :: ·)) hms'

end Map

/-! ## Sources -/

namespace LogicalLine

/-- The physical line that a logical line of a source starts with. -/
def firstLine (source : List Char) (l : LogicalLine) : List Char := (lines source).getD (l.number - 1) []

/-- The logical lines of a source, with one width at some tab stops in place of both measures. -/
def atTabStops (stop : Nat) (source : List Char) : List LogicalLine :=
  (ofSource source).map fun l => { l with indent := .single (width stop (l.firstLine source)) }

/-- Is the indentation of a logical line that of one of the lines from some number on? -/
def StartsIn (number : Nat) (ls : List (List Char)) (l : LogicalLine) : Prop :=
  ∃ index line, ls[index]? = some line ∧ l.number = number + index ∧ l.indent = .measure line

theorem StartsIn.of_tail {number : Nat} {line : List Char} {ls : List (List Char)} {l : LogicalLine}
    (h : StartsIn (number + 1) ls l) : StartsIn number (line :: ls) l := by
  obtain ⟨index, first, hfirst, hnumber, hindent⟩ := h
  exact ⟨index + 1, first, hfirst, by omega, hindent⟩

theorem startsIn_of_mem_ofLines {s : LineState} {current : Option LogicalLine} {number : Nat} {ls : List (List Char)}
    {l : LogicalLine} (h : l ∈ ofLines s current number ls) :
    (∃ l', current = some l' ∧ l.number = l'.number ∧ l.indent = l'.indent) ∨ StartsIn number ls l := by
  have hcurrent {current : Option LogicalLine} (hl : l ∈ current.toList) :
      ∃ l', current = some l' ∧ l.number = l'.number ∧ l.indent = l'.indent :=
    ⟨l, Option.mem_toList.1 hl, rfl, rfl⟩
  induction ls generalizing s current number with
  | nil => exact .inl (hcurrent h)
  | cons line rest ih =>
    by_cases hends : Ends s current
    · cases hvoid : isVoid line with
      | true =>
        rw [ofLines_of_void hends hvoid, List.mem_append] at h
        rcases h with h | h
        · exact .inl (hcurrent h)
        · rcases ih h with ⟨l', hnone, -⟩ | hstarts
          · cases hnone
          · exact .inr hstarts.of_tail
      | false =>
        rw [ofLines_of_start hends hvoid, List.mem_append] at h
        rcases h with h | h
        · exact .inl (hcurrent h)
        · rcases ih h with ⟨l', hstart, hnumber, hindent⟩ | hstarts
          · cases hstart
            exact .inr ⟨0, line, rfl, hnumber, hindent⟩
          · exact .inr hstarts.of_tail
    · obtain ⟨hcontinues, hne⟩ := Classical.not_imp.1 hends
      obtain ⟨going, rfl⟩ := Option.ne_none_iff_exists'.1 hne
      rw [ofLines_of_continues hcontinues] at h
      rcases ih h with ⟨l', hgoing, hnumber, hindent⟩ | hstarts
      · cases hgoing
        exact .inl ⟨going, rfl, hnumber, hindent⟩
      · exact .inr hstarts.of_tail

theorem indent_of_mem_ofSource {source : List Char} {l : LogicalLine} (h : l ∈ ofSource source) :
    l.indent = .measure (l.firstLine source) := by
  rcases startsIn_of_mem_ofLines h with ⟨l', hnone, -⟩ | ⟨index, line, hline, hnumber, hindent⟩
  · cases hnone
  · have hindex : l.number - 1 = index := by omega
    rw [hindent, firstLine, hindex, List.getD_eq_getElem?_getD, hline, Option.getD_some]

end LogicalLine

open LogicalLine

/-- In an accepted source whose lines are indented by tabs and then spaces, the tabs may be of any size up to eight: with
the width at such tab stops in place of the two measures, the source is accepted too, and every line makes the same push or
pops the same number of levels. -/
theorem checkIndentation_tabStops (source : List Char) (haccepted : checkIndentation source = .ok ())
    (htabs : ∀ l ∈ ofSource source, tabsThenSpaces (l.firstLine source) = true) (stop : Nat) (hlow : 1 ≤ stop)
    (hhigh : stop ≤ 8) :
    checkLines ((lines source).length + 1) [] false (atTabStops stop source) = .ok () ∧
      ∃ ms, Levels.moves [] false (ofSource source) = .ok ms ∧
        Levels.moves [] false (atTabStops stop source) = .ok ms := by
  have hlines : atTabStops stop source = (ofSource source).map (·.remeasure (Indent.mean stop)) := by
    refine List.map_congr_left fun l hl => ?_
    rw [remeasure, indent_of_mem_ofSource hl, single_width hlow hhigh (htabs l hl)]
  have hzero : Indent.mean stop .zero = .zero := Indent.mean_zero stop
  have hdeeper (i j : Indent) (h : i.Deeper j) : (i.mean stop).Deeper (j.mean stop) := mean_deeper hlow hhigh h
  rw [hlines]
  exact ⟨checkLines_map hzero hdeeper nested_nil haccepted, moves_map hzero hdeeper nested_nil haccepted⟩

/-- With tab stops of four columns, the block inside the inner condition is eight columns deep and not twelve; the line
behind it pops both levels. -/
theorem checkIndentation_tabStops_four :
    checkIndentation "if a:\n\tif b:\n\t    c\nd\n".toList = .ok () ∧
      (atTabStops 4 "if a:\n\tif b:\n\t    c\nd\n".toList).map (·.indent.columns) = [0, 4, 8, 0] ∧
      Levels.moves [] false (atTabStops 4 "if a:\n\tif b:\n\t    c\nd\n".toList) =
        .ok [.pop 0, .push, .push, .pop 2] := by
  have haccepted : checkIndentation "if a:\n\tif b:\n\t    c\nd\n".toList = .ok () := by decide
  have hmoves : Levels.moves [] false (ofSource "if a:\n\tif b:\n\t    c\nd\n".toList) =
      .ok [.pop 0, .push, .push, .pop 2] := by decide
  obtain ⟨-, ms, hms, hms'⟩ :=
    checkIndentation_tabStops _ haccepted (by decide) 4 (by decide) (by decide)
  rw [hms] at hmoves
  cases hmoves
  exact ⟨haccepted, by decide, hms'⟩

end Consolidation.Python
