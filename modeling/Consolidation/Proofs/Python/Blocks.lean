/-
# `Proofs.Python.Blocks` — the indentation check accepts well-nested blocks and nothing else

The check walks over the logical lines with a stack of levels.  What it accepts is said here without a stack: a `Block` of
some indentation consists of lines that all have that very indentation, and behind a line that opens a block stands one
that is deeper by both measures.

The two meet in `Follows`: what may still come when some levels are open.  Each level takes a block of its own and leaves
the rest to the levels outside it.  `Levels.enter` finds the level of a line because the levels are nested
(`Levels.enter_false_eq_ok_iff`), and so the check is decided by what may follow (`checkLines_eq_ok_iff`).  The line that
is reported is the first one that cannot be gone on from, because from any state that is reached some end can be
(`exists_follows`).

## What is proved

For every source: the check accepts it if and only if its logical lines make up a block of no indentation; if it does not,
the line that it reports points at the place where the lines stop making sense (`PointsAtMisfit`); and behind any lines
that it gets through, the levels end with that of the whole source, and each is deeper than those around it.

## How it goes

* `Nested` is the invariant of the stack, kept by every line (`Nested.through`).  It makes the closing of levels a matter
  of one comparison: the levels that a line closes are those deeper than it, and they are on top
  (`dropWhile_eq_of_suffix`).
* A line fits if it has the indentation of a level that is open (`fits_cons_iff`), or if it is deeper and a block is
  expected (`follows_true_cons_iff`).  So what may follow is told line by line, as the check goes, and by induction on the
  lines the two agree.
* A fault is at a line that fits none of the levels, or behind the last line where that opens a block
  (`checkLines_eq_error`).  What the check gets through can be gone on from (`extendable_of_through`); what it does not
  get through cannot (`not_extendable_of_misfit`).
-/
import Mathlib.Data.List.Basic
import Consolidation.Python.Indentation

namespace Consolidation.Python

open Text

/-! ## Blocks -/

/-- Is an indentation deeper than another one by both measures? -/
def Indent.Deeper (inner outer : Indent) : Prop :=
  outer.columns < inner.columns ∧ outer.characters < inner.characters

theorem Indent.Deeper.trans {a b c : Indent} (hab : a.Deeper b) (hbc : b.Deeper c) : a.Deeper c :=
  ⟨Nat.lt_trans hbc.1 hab.1, Nat.lt_trans hbc.2 hab.2⟩

theorem Indent.ext_of_measures {a b : Indent} (hcolumns : a.columns = b.columns)
    (hcharacters : a.characters = b.characters) : a = b := by
  cases a
  cases b
  simp_all only

/-- Lines that make up a block of an indentation. -/
inductive Block : Indent → List LogicalLine → Prop
  | nil {i : Indent} : Block i []
  | plain {i : Indent} {line : LogicalLine} {behind : List LogicalLine} (hindent : line.indent = i)
      (hopens : line.opens = false) (hbehind : Block i behind) : Block i (line :: behind)
  | opener {i j : Indent} {line : LogicalLine} {inner behind : List LogicalLine} (hindent : line.indent = i)
      (hopens : line.opens = true) (hdeeper : j.Deeper i) (hne : inner ≠ []) (hinner : Block j inner)
      (hbehind : Block i behind) : Block i (line :: (inner ++ behind))

theorem block_cons_iff {i : Indent} {line : LogicalLine} {rest : List LogicalLine} :
    Block i (line :: rest) ↔ line.indent = i ∧ (line.opens = false ∧ Block i rest ∨ line.opens = true ∧
      ∃ j inner behind, rest = inner ++ behind ∧ j.Deeper i ∧ inner ≠ [] ∧ Block j inner ∧ Block i behind) := by
  constructor
  · intro h
    cases h with
    | plain hindent hopens hbehind => exact ⟨hindent, .inl ⟨hopens, hbehind⟩⟩
    | opener hindent hopens hdeeper hne hinner hbehind =>
      exact ⟨hindent, .inr ⟨hopens, _, _, _, rfl, hdeeper, hne, hinner, hbehind⟩⟩
  · rintro ⟨hindent, ⟨hopens, hbehind⟩ | ⟨hopens, j, inner, behind, rfl, hdeeper, hne, hinner, hbehind⟩⟩
    · exact .plain hindent hopens hbehind
    · exact .opener hindent hopens hdeeper hne hinner hbehind

namespace Levels

/-! ## The stack -/

def stack (levels : Levels) : List Indent := levels ++ [Indent.zero]

/-- Is each block deeper than those around it? -/
def Nested (levels : Levels) : Prop := levels.stack.Pairwise Indent.Deeper

theorem nested_nil : Nested [] := List.pairwise_singleton ..

theorem head_stack (levels : Levels) : levels.stack.head? = some levels.innermost := by
  cases levels <;> rfl

theorem Nested.tail {i : Indent} {outer : Levels} (h : Nested (i :: outer)) : Nested outer :=
  List.Pairwise.of_cons h

theorem Nested.deeper {i : Indent} {outer : Levels} (h : Nested (i :: outer)) : i.Deeper outer.innermost :=
  List.rel_of_pairwise_cons h (List.mem_of_head? (head_stack outer))

theorem Nested.cons {i : Indent} {outer : Levels} (h : Nested outer) (hi : i.Deeper outer.innermost) :
    Nested (i :: outer) := by
  refine List.pairwise_cons.2 ⟨fun j hj => ?_, h⟩
  cases outer with
  | nil =>
    obtain rfl := List.mem_singleton.1 hj
    exact hi
  | cons o outer =>
    rcases List.mem_cons.1 hj with rfl | hj
    · exact hi
    · exact hi.trans (List.rel_of_pairwise_cons h hj)

theorem Nested.of_suffix {levels levels' : Levels} (h : Nested levels) (hsuffix : levels' <:+ levels) :
    Nested levels' := by
  obtain ⟨popped, rfl⟩ := hsuffix
  rw [Nested, stack, List.append_assoc] at h
  exact (List.pairwise_append.1 h).2.1

/-- Levels that go on around a line are at most as deep as the innermost one. -/
theorem columns_le_of_suffix {levels levels' : Levels} (h : Nested levels) (hsuffix : levels' <:+ levels) :
    levels'.innermost.columns ≤ levels.innermost.columns := by
  induction levels with
  | nil =>
    obtain rfl := List.suffix_nil.1 hsuffix
    exact Nat.le_refl _
  | cons i outer ih =>
    rcases List.suffix_cons_iff.1 hsuffix with rfl | hsuffix
    · exact Nat.le_refl _
    · exact Nat.le_trans (ih h.tail hsuffix) (Nat.le_of_lt h.deeper.1)

/-- A line that is indented less closes the levels down to one that is not deeper. -/
theorem dropWhile_eq_of_suffix {levels levels' : Levels} (h : Nested levels) (hsuffix : levels' <:+ levels) :
    levels.dropWhile (fun level => levels'.innermost.columns < level.columns) = levels' := by
  induction levels with
  | nil =>
    obtain rfl := List.suffix_nil.1 hsuffix
    rfl
  | cons i outer ih =>
    rcases List.suffix_cons_iff.1 hsuffix with rfl | hsuffix
    · have hle : ¬i.columns < i.columns := Nat.lt_irrefl _
      simp only [innermost, List.headD_cons, List.dropWhile_cons, hle, decide_false, Bool.false_eq_true,
        if_false]
    · have hlt : levels'.innermost.columns < i.columns :=
        Nat.lt_of_le_of_lt (columns_le_of_suffix h.tail hsuffix) h.deeper.1
      rw [List.dropWhile_cons, if_pos (decide_eq_true hlt)]
      exact ih h.tail hsuffix

/-! ## One line -/

section Enter

variable {levels levels' : Levels} {indent : Indent}

theorem enter_true_eq_ok_iff :
    levels.enter true indent = .ok levels' ↔ indent.Deeper levels.innermost ∧ levels' = indent :: levels := by
  simp only [enter, Indent.Deeper, if_true]
  constructor
  · intro h
    split at h
    · cases h
    · split at h
      · cases h
      · next hcolumns hcharacters =>
        cases h
        exact ⟨⟨Nat.lt_of_not_le hcolumns, Nat.lt_of_not_le hcharacters⟩, rfl⟩
  · rintro ⟨⟨hcolumns, hcharacters⟩, rfl⟩
    rw [if_neg (Nat.not_le.2 hcolumns), if_neg (Nat.not_le.2 hcharacters)]

theorem enter_false_eq_ok_iff (h : Nested levels) :
    levels.enter false indent = .ok levels' ↔ levels' <:+ levels ∧ levels'.innermost = indent := by
  simp only [enter, Bool.false_eq_true, if_false]
  constructor
  · intro henter
    split at henter
    · cases henter
    · split at henter
      · cases henter
      · next hcolumns =>
        split at henter
        · cases henter
        · next hcharacters =>
          cases henter
          rw [Bool.not_eq_true, bne_eq_false_iff_eq] at hcolumns hcharacters
          exact ⟨List.dropWhile_suffix _, Indent.ext_of_measures hcolumns hcharacters⟩
  · rintro ⟨hsuffix, rfl⟩
    rw [if_neg (Nat.not_lt.2 (columns_le_of_suffix h hsuffix)), dropWhile_eq_of_suffix h hsuffix, bne_self_eq_false,
      if_neg Bool.false_ne_true, bne_self_eq_false, if_neg Bool.false_ne_true]

/-- A line keeps the levels nested. -/
theorem Nested.enter {expected : Bool} (h : Nested levels) (henter : levels.enter expected indent = .ok levels') :
    Nested levels' := by
  cases expected with
  | true =>
    obtain ⟨hdeeper, rfl⟩ := enter_true_eq_ok_iff.1 henter
    exact h.cons hdeeper
  | false => exact h.of_suffix ((enter_false_eq_ok_iff h).1 henter).1

end Enter

/-! ## What may follow -/

/-- Lines that finish the blocks that are open: first the innermost one goes on, then those around it. -/
def Fits : Levels → List LogicalLine → Prop
  | [], ls => Block .zero ls
  | i :: outer, ls => ∃ own behind, ls = own ++ behind ∧ Block i own ∧ Fits outer behind

/-- Lines that may follow where some blocks are open, and one more has to start if `expected` is set. -/
def Follows (levels : Levels) : Bool → List LogicalLine → Prop
  | false, ls => levels.Fits ls
  | true, ls => ∃ i own behind, ls = own ++ behind ∧ i.Deeper levels.innermost ∧ own ≠ [] ∧ Block i own ∧
      levels.Fits behind

theorem follows_false {levels : Levels} {ls : List LogicalLine} : levels.Follows false ls ↔ levels.Fits ls :=
  Iff.rfl

theorem fits_nil (levels : Levels) : levels.Fits [] := by
  induction levels with
  | nil => exact .nil
  | cons i outer ih => exact ⟨[], [], rfl, .nil, ih⟩

theorem exists_own_iff {i : Indent} {outer : Levels} {line : LogicalLine} {rest : List LogicalLine} :
    (∃ own behind, rest = own ++ behind ∧ Block i (line :: own) ∧ outer.Fits behind) ↔
      line.indent = i ∧ Follows (i :: outer) line.opens rest := by
  constructor
  · rintro ⟨own, behind, rfl, hblock, hfits⟩
    obtain ⟨hindent, ⟨hopens, hown⟩ | ⟨hopens, j, inner, after, rfl, hdeeper, hne, hinner, hafter⟩⟩ :=
      block_cons_iff.1 hblock
    · rw [hopens]
      exact ⟨hindent, own, behind, rfl, hown, hfits⟩
    · rw [hopens]
      exact ⟨hindent, j, inner, after ++ behind, List.append_assoc .., hdeeper, hne, hinner, after, behind, rfl,
        hafter, hfits⟩
  · rintro ⟨hindent, hfollows⟩
    cases hopens : line.opens with
    | false =>
      rw [hopens] at hfollows
      obtain ⟨own, behind, rfl, hown, hfits⟩ := hfollows
      exact ⟨own, behind, rfl, .plain hindent hopens hown, hfits⟩
    | true =>
      rw [hopens] at hfollows
      obtain ⟨j, inner, _, rfl, hdeeper, hne, hinner, after, behind, rfl, hafter, hfits⟩ := hfollows
      exact ⟨inner ++ after, behind, (List.append_assoc ..).symm,
        .opener hindent hopens hdeeper hne hinner hafter, hfits⟩

/-- A line may come next if it has the indentation of a block that is open, and closes those inside that one. -/
theorem fits_cons_iff {levels : Levels} {line : LogicalLine} {rest : List LogicalLine} :
    levels.Fits (line :: rest) ↔
      ∃ levels' : Levels, levels' <:+ levels ∧ levels'.innermost = line.indent ∧
        levels'.Follows line.opens rest := by
  induction levels with
  | nil =>
    simp only [List.suffix_nil, exists_eq_left]
    rw [Fits, block_cons_iff, eq_comm]
    refine and_congr_right fun _ => ?_
    cases hopens : line.opens with
    | false => simp [Follows, Fits]
    | true => simp [Follows, Fits, innermost]
  | cons i outer ih =>
    simp only [List.suffix_cons_iff, or_and_right, exists_or, exists_eq_left, ← ih]
    constructor
    · rintro ⟨own, behind, hsplit, hblock, hfits⟩
      cases own with
      | nil =>
        rw [List.nil_append] at hsplit
        exact .inr (hsplit ▸ hfits)
      | cons first own =>
        obtain ⟨rfl, rfl⟩ := List.cons.inj hsplit
        obtain ⟨hindent, hfollows⟩ := exists_own_iff.1 ⟨own, behind, rfl, hblock, hfits⟩
        exact .inl ⟨hindent.symm, hfollows⟩
    · rintro (⟨hindent, hfollows⟩ | hfits)
      · obtain ⟨own, behind, rfl, hblock, hfits⟩ := exists_own_iff.2 ⟨hindent.symm, hfollows⟩
        exact ⟨line :: own, behind, rfl, hblock, hfits⟩
      · exact ⟨[], line :: rest, rfl, .nil, hfits⟩

theorem follows_true_cons_iff {levels : Levels} {line : LogicalLine} {rest : List LogicalLine} :
    Follows levels true (line :: rest) ↔
      line.indent.Deeper levels.innermost ∧ Follows (line.indent :: levels) line.opens rest := by
  constructor
  · rintro ⟨i, own, behind, hsplit, hdeeper, hne, hblock, hfits⟩
    cases own with
    | nil => exact absurd rfl hne
    | cons first own =>
      obtain ⟨rfl, rfl⟩ := List.cons.inj hsplit
      obtain ⟨rfl, hfollows⟩ := exists_own_iff.1 ⟨own, behind, rfl, hblock, hfits⟩
      exact ⟨hdeeper, hfollows⟩
  · rintro ⟨hdeeper, hfollows⟩
    obtain ⟨own, behind, rfl, hblock, hfits⟩ := exists_own_iff.2 ⟨rfl, hfollows⟩
    exact ⟨line.indent, line :: own, behind, rfl, hdeeper, List.cons_ne_nil _ _, hblock, hfits⟩

/-- From every state there is an end. -/
theorem exists_follows (levels : Levels) (expected : Bool) : ∃ ls, levels.Follows expected ls := by
  cases expected with
  | false => exact ⟨[], levels.fits_nil⟩
  | true =>
    have hdeeper : (Indent.mk (levels.innermost.columns + 1) (levels.innermost.characters + 1)).Deeper
        levels.innermost := ⟨Nat.lt_succ_self _, Nat.lt_succ_self _⟩
    exact ⟨[⟨0, _, false⟩], _, [_], [], rfl, hdeeper, List.cons_ne_nil _ _, .plain rfl rfl .nil, levels.fits_nil⟩

/-! ## Line after line -/

/-- The blocks that are open behind some lines, and whether the last line opens one more. -/
def through : Levels → Bool → List LogicalLine → Except IndentationCause (Levels × Bool)
  | levels, expected, [] => .ok (levels, expected)
  | levels, expected, line :: rest => do
    let levels' ← levels.enter expected line.indent
    levels'.through line.opens rest

theorem through_cons {levels : Levels} {expected : Bool} {line : LogicalLine} {rest : List LogicalLine} :
    levels.through expected (line :: rest) =
      (levels.enter expected line.indent >>= fun levels' => levels'.through line.opens rest) :=
  rfl

theorem Nested.through {levels levels' : Levels} {expected expected' : Bool} {ls : List LogicalLine}
    (h : Nested levels) (hthrough : levels.through expected ls = .ok (levels', expected')) : Nested levels' := by
  induction ls generalizing levels expected with
  | nil =>
    cases hthrough
    exact h
  | cons line rest ih =>
    rw [through_cons] at hthrough
    cases henter : levels.enter expected line.indent with
    | error cause =>
      rw [henter] at hthrough
      cases hthrough
    | ok entered =>
      rw [henter] at hthrough
      exact ih (h.enter henter) hthrough

end Levels

open Levels

section Check

variable {finish : Nat} {levels levels' : Levels} {expected expected' : Bool}

theorem checkLines_cons (line : LogicalLine) (rest : List LogicalLine) :
    checkLines finish levels expected (line :: rest) =
      match levels.enter expected line.indent with
      | .error cause => .error ⟨cause, line.number, line.indent.columns + 1⟩
      | .ok levels' => checkLines finish levels' line.opens rest :=
  rfl

/-- Lines are accepted exactly if they may follow. -/
theorem checkLines_eq_ok_iff {ls : List LogicalLine} (h : Nested levels) :
    checkLines finish levels expected ls = .ok () ↔ levels.Follows expected ls := by
  induction ls generalizing levels expected with
  | nil =>
    cases expected with
    | false => exact iff_of_true rfl levels.fits_nil
    | true =>
      refine iff_of_false (fun hcheck => by cases hcheck) ?_
      rintro ⟨i, own, behind, hsplit, -, hne, -⟩
      exact hne (List.append_eq_nil_iff.1 hsplit.symm).1
  | cons line rest ih =>
    have hstep : checkLines finish levels expected (line :: rest) = .ok () ↔
        ∃ levels', levels.enter expected line.indent = .ok levels' ∧ levels'.Follows line.opens rest := by
      rw [checkLines_cons]
      cases henter : levels.enter expected line.indent with
      | error cause => simp
      | ok levels' => simp [ih (h.enter henter)]
    rw [hstep]
    cases expected with
    | false => simp only [enter_false_eq_ok_iff h, follows_false, fits_cons_iff, and_assoc]
    | true => simp only [enter_true_eq_ok_iff, follows_true_cons_iff, and_assoc, exists_and_left, exists_eq_left]

theorem checkLines_append {ls : List LogicalLine}
    (hthrough : levels.through expected ls = .ok (levels', expected')) (more : List LogicalLine) :
    checkLines finish levels expected (ls ++ more) = checkLines finish levels' expected' more := by
  induction ls generalizing levels expected with
  | nil =>
    cases hthrough
    rfl
  | cons line rest ih =>
    rw [through_cons] at hthrough
    rw [List.cons_append, checkLines_cons]
    cases henter : levels.enter expected line.indent with
    | error cause =>
      rw [henter] at hthrough
      cases hthrough
    | ok entered =>
      rw [henter] at hthrough
      exact ih hthrough

/-- A fault is at a line that fits none of the blocks that are open, or behind the last line where that one opens a block. -/
theorem checkLines_eq_error {ls : List LogicalLine} {fault : IndentationFault}
    (h : checkLines finish levels expected ls = .error fault) :
    (∃ before line after levels' expected' cause, ls = before ++ line :: after ∧ fault.line = line.number ∧
        levels.through expected before = .ok (levels', expected') ∧
        levels'.enter expected' line.indent = .error cause) ∨
      fault.line = finish ∧ ∃ levels', levels.through expected ls = .ok (levels', true) := by
  induction ls generalizing levels expected with
  | nil =>
    cases expected with
    | false => cases h
    | true =>
      cases h
      exact .inr ⟨rfl, levels, rfl⟩
  | cons line rest ih =>
    rw [checkLines_cons] at h
    cases henter : levels.enter expected line.indent with
    | error cause =>
      rw [henter] at h
      cases h
      exact .inl ⟨[], line, rest, levels, expected, cause, rfl, rfl, rfl, henter⟩
    | ok entered =>
      rw [henter] at h
      have hthrough (ls : List LogicalLine) :
          levels.through expected (line :: ls) = entered.through line.opens ls := by
        rw [through_cons, henter]
        rfl
      rcases ih h with ⟨before, misfit, after, levels', expected', cause, rfl, hline, hbefore, hmisfit⟩ |
        ⟨hline, levels', hrest⟩
      · exact .inl ⟨line :: before, misfit, after, levels', expected', cause, rfl, hline,
          (hthrough before).trans hbefore, hmisfit⟩
      · exact .inr ⟨hline, levels', (hthrough rest).trans hrest⟩

end Check

/-! ## Sources -/

/-- Can lines be gone on from, so that they make up a block of the whole source? -/
def Extendable (ls : List LogicalLine) : Prop := ∃ more, Block .zero (ls ++ more)

theorem extendable_of_through {ls : List LogicalLine} {levels : Levels} {expected : Bool}
    (h : Levels.through [] false ls = .ok (levels, expected)) : Extendable ls := by
  obtain ⟨more, hmore⟩ := levels.exists_follows expected
  have hcheck : checkLines 0 levels expected more = .ok () :=
    (checkLines_eq_ok_iff (nested_nil.through h)).2 hmore
  rw [← checkLines_append h, checkLines_eq_ok_iff nested_nil] at hcheck
  exact ⟨more, hcheck⟩

theorem not_extendable_of_misfit {before : List LogicalLine} {line : LogicalLine} {levels : Levels} {expected : Bool}
    {cause : IndentationCause} (h : Levels.through [] false before = .ok (levels, expected))
    (hmisfit : levels.enter expected line.indent = .error cause) : ¬Extendable (before ++ [line]) := by
  rintro ⟨more, hblock⟩
  have hcheck : checkLines 0 [] false (before ++ [line] ++ more) = .ok () :=
    (checkLines_eq_ok_iff nested_nil).2 hblock
  rw [List.append_assoc, checkLines_append h, List.singleton_append, checkLines_cons, hmisfit] at hcheck
  cases hcheck

/-- Does a line number point at the place where some lines stop making sense?  It is that of the first line that cannot be
gone on from, or `finish` where the last line opens a block that does not come. -/
def PointsAtMisfit (ls : List LogicalLine) (finish number : Nat) : Prop :=
  (∃ before line after, ls = before ++ line :: after ∧ number = line.number ∧ Extendable before ∧
      ¬Extendable (before ++ [line])) ∨
    number = finish ∧ Extendable ls ∧ ∃ last, ls.getLast? = some last ∧ last.opens = true

theorem opens_of_through {levels levels' : Levels} {expected expected' : Bool} {ls : List LogicalLine}
    (h : levels.through expected ls = .ok (levels', expected')) :
    expected' = ((ls.getLast?.map LogicalLine.opens).getD expected) := by
  induction ls generalizing levels expected with
  | nil =>
    cases h
    rfl
  | cons line rest ih =>
    rw [through_cons] at h
    cases henter : levels.enter expected line.indent with
    | error cause =>
      rw [henter] at h
      cases h
    | ok entered =>
      rw [henter] at h
      rw [ih h]
      cases rest with
      | nil => rfl
      | cons second rest => rw [List.getLast?_cons_cons, List.getLast?_cons, Option.map_some, Option.getD_some,
          Option.getD_some]

/-- The check accepts a source exactly if its logical lines are well-nested blocks.  A fault that it finds is at the first
line that does not fit.  On the way the stack of levels starts with the block of the whole source, and each level on
it is deeper than the ones below. -/
theorem checkIndentation_wellNested (source : List Char) :
    (checkIndentation source = .ok () ↔ Block .zero (LogicalLine.ofSource source)) ∧
      (∀ fault, checkIndentation source = .error fault →
        PointsAtMisfit (LogicalLine.ofSource source) ((lines source).length + 1) fault.line) ∧
      ∀ before after levels expected, LogicalLine.ofSource source = before ++ after →
        Levels.through [] false before = .ok (levels, expected) →
        levels.stack.getLast? = some .zero ∧ levels.stack.Pairwise Indent.Deeper := by
  refine ⟨checkLines_eq_ok_iff nested_nil, fun fault hfault => ?_, ?_⟩
  · rcases checkLines_eq_error hfault with
      ⟨before, line, after, levels, expected, cause, hsplit, hline, hbefore, hmisfit⟩ | ⟨hline, levels, hthrough⟩
    · exact .inl ⟨before, line, after, hsplit, hline, extendable_of_through hbefore,
        not_extendable_of_misfit hbefore hmisfit⟩
    · refine .inr ⟨hline, extendable_of_through hthrough, ?_⟩
      have hopens := opens_of_through hthrough
      cases hlast : (LogicalLine.ofSource source).getLast? with
      | none =>
        rw [hlast] at hopens
        cases hopens
      | some last =>
        rw [hlast] at hopens
        exact ⟨last, rfl, hopens.symm⟩
  · intro before after levels expected _ hthrough
    exact ⟨List.getLast?_concat, nested_nil.through hthrough⟩

/-- The third line is indented like none of the blocks around it, so that is where the source stops making sense. -/
theorem checkIndentation_wellNested_dedent :
    checkIndentation "if a:\n    b\n  c\n".toList = .error ⟨.unknownLevel, 3, 3⟩ ∧
      PointsAtMisfit (LogicalLine.ofSource "if a:\n    b\n  c\n".toList) 4 3 := by
  have hfault : checkIndentation "if a:\n    b\n  c\n".toList = .error ⟨.unknownLevel, 3, 3⟩ := by
    decide
  exact ⟨hfault, (checkIndentation_wellNested _).2.1 _ hfault⟩

end Consolidation.Python
