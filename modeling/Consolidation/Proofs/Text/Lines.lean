/-
# `Proofs.Text.Lines` — where a text is split

A text is split at the first place of a separator, or at the last one.  Both are told here from what stands before the
separator and behind it: none starts before the first place (`splitOnce?_eq_some_iff`), the piece behind the last place
has none in it.

A text may also be cut into lines.  Where a line ends, the lines before and behind are those of the two texts
(`lines_append`); the first line of a text is what stands before the first line feed (`lines_of_line`).  The pieces
between blanks, or between other characters, have none of these in them (`mem_of_mem_splitWhere`).

What a text starts with, ends with or holds anywhere is told by cutting it there (`stripStart?_eq_some_iff`,
`stripEnd?_append`, `occursIn_iff_isInfix`).

| splitting | what determines it |
| :-- | :-- |
| at the first place | no place starts before it (`splitOnce?_eq_some_iff`) |
| at the last place of one character | the piece behind it has none (`splitLast?_append`) |
| into lines | a line feed, with a carriage return before it or not, ends one |

A separator of two characters may overlap with itself or not, so that a place may start before the end of an earlier one;
`prefix_overlap_iff` says when.
-/
import Mathlib.Data.List.Infix
import Mathlib.Data.List.TakeDrop
import Mathlib.Data.List.TakeWhile
import Consolidation.Text.Lines

namespace Consolidation.Text

/-! ## What a text starts with -/

theorem stripStart?_eq_some_iff {p s rest : List Char} : stripStart? p s = some rest ↔ s = p ++ rest := by
  induction p generalizing s with
  | nil => rw [stripStart?, Option.some.injEq, List.nil_append]
  | cons c p ih =>
    cases s with
    | nil => simp only [stripStart?, List.cons_append, reduceCtorEq]
    | cons d s =>
      rw [stripStart?, List.cons_append, List.cons.injEq]
      by_cases hcd : c = d
      · rw [if_pos hcd, ih, and_iff_right hcd.symm]
      · rw [if_neg hcd]
        exact iff_of_false (by simp) fun h => hcd h.1.symm

theorem stripStart?_eq_none_iff {p s : List Char} : stripStart? p s = none ↔ ¬p <+: s := by
  rw [Option.eq_none_iff_forall_ne_some]
  simp only [ne_eq, stripStart?_eq_some_iff]
  exact ⟨fun h ⟨rest, hrest⟩ => h rest hrest.symm, fun h rest hrest => h ⟨rest, hrest.symm⟩⟩

theorem stripStart?_append_self (p s : List Char) : stripStart? p (p ++ s) = some s := stripStart?_eq_some_iff.2 rfl

/-! ## At the first place -/

section FirstPlace

variable {sep s before after : List Char}

/-- A separator that starts before another one ends before its last character. -/
theorem prefix_overlap_iff (hne : sep ≠ []) (c : Char) :
    sep <+: c :: (before ++ (sep ++ after)) ↔ sep <+: c :: (before ++ sep.dropLast) := by
  have hpart : c :: (before ++ sep.dropLast) <+: c :: (before ++ (sep ++ after)) :=
    List.cons_prefix_cons.2 ⟨rfl, (List.prefix_append_right_inj before).2
      ((List.dropLast_prefix sep).trans (List.prefix_append sep after))⟩
  refine ⟨fun h => List.prefix_of_prefix_length_le h hpart ?_, fun h => h.trans hpart⟩
  have hpos := List.length_pos_iff.2 hne
  rw [List.length_cons, List.length_append, List.length_dropLast]
  omega

/-- A text is split at the first place of a separator: before it none starts, not even one that would run into it. -/
theorem splitOnce?_eq_some_iff (hne : sep ≠ []) :
    splitOnce? sep s = some (before, after) ↔ s = before ++ (sep ++ after) ∧ ¬sep <:+: before ++ sep.dropLast := by
  induction s generalizing before with
  | nil =>
    rw [splitOnce?, if_neg hne]
    exact iff_of_false (by simp) fun h => hne (List.append_eq_nil_iff.1 (List.append_eq_nil_iff.1 h.1.symm).2).1
  | cons c s ih =>
    rw [splitOnce?]
    cases hstrip : stripStart? sep (c :: s) with
    | some rest =>
      have hfront := stripStart?_eq_some_iff.1 hstrip
      have hshort : ¬sep <:+: [] ++ sep.dropLast := fun hin => by
        have hle := hin.length_le
        have hpos := List.length_pos_iff.2 hne
        rw [List.nil_append, List.length_dropLast] at hle
        omega
      cases before with
      | nil =>
        rw [Option.some.injEq, Prod.mk.injEq, and_iff_left hshort, hfront, List.nil_append, List.append_cancel_left_eq,
          and_iff_right rfl]
      | cons d before =>
        refine iff_of_false (by simp) ?_
        -- the separator at the front is one that starts before
        rintro ⟨heq, hnot⟩
        have hpre : sep <+: d :: (before ++ (sep ++ after)) := ⟨rest, hfront.symm.trans heq⟩
        exact hnot ((prefix_overlap_iff hne d).1 hpre).isInfix
    | none =>
      have hfront := stripStart?_eq_none_iff.1 hstrip
      simp only [Option.map_eq_some_iff, Prod.mk.injEq, Prod.exists]
      cases before with
      | nil =>
        refine ⟨fun ⟨_, _, _, h, _⟩ => absurd h (List.cons_ne_nil _ _), fun ⟨heq, _⟩ => absurd ⟨after, heq.symm⟩ hfront⟩
      | cons d before =>
        constructor
        · rintro ⟨b, a, hsplit, hb, rfl⟩
          obtain ⟨rfl, rfl⟩ := List.cons.inj hb
          obtain ⟨rfl, hnot⟩ := ih.1 hsplit
          refine ⟨rfl, fun hin => ?_⟩
          rcases List.infix_cons_iff.1 hin with hpre | hin
          · exact hfront ((prefix_overlap_iff hne c).2 hpre)
          · exact hnot hin
        · rintro ⟨heq, hnot⟩
          obtain ⟨rfl, rfl⟩ := List.cons.inj heq
          exact ⟨before, after, ih.2 ⟨rfl, fun hin => hnot (List.infix_cons hin)⟩, rfl, rfl⟩

theorem splitOnce?_eq_none_iff (hne : sep ≠ []) : splitOnce? sep s = none ↔ ¬sep <:+: s := by
  induction s with
  | nil =>
    rw [splitOnce?, if_neg hne, List.infix_nil]
    exact iff_of_true rfl hne
  | cons c s ih =>
    rw [splitOnce?, List.infix_cons_iff, not_or]
    cases hstrip : stripStart? sep (c :: s) with
    | some rest =>
      exact iff_of_false (by simp) fun h => h.1 ⟨rest, (stripStart?_eq_some_iff.1 hstrip).symm⟩
    | none => rw [Option.map_eq_none_iff, ih, and_iff_right (stripStart?_eq_none_iff.1 hstrip)]

theorem not_infix_of_splitOnce? (hne : sep ≠ []) (h : splitOnce? sep s = some (before, after)) : ¬sep <:+: before :=
  fun hin => ((splitOnce?_eq_some_iff hne).1 h).2 (hin.trans (List.prefix_append before _).isInfix)

end FirstPlace

theorem splitOnce?_colon {before : List Char} (h : ¬[':', ' '] <:+: before) (after : List Char) :
    splitOnce? [':', ' '] (before ++ ':' :: ' ' :: after) = some (before, after) := by
  refine (splitOnce?_eq_some_iff (List.cons_ne_nil _ _)).2 ⟨rfl, fun hin => ?_⟩
  rcases List.infix_concat_iff.1 hin with ⟨front, hend⟩ | hin
  · -- the space would be the colon
    have hlast := congrArg List.getLast? hend
    simp at hlast
  · exact h hin

theorem append_cons_inj {c : Char} {a a' b b' : List Char} (ha : c ∉ a) (ha' : c ∉ a')
    (h : a ++ c :: b = a' ++ c :: b') : a = a' ∧ b = b' := by
  induction a generalizing a' with
  | nil =>
    cases a' with
    | nil => exact ⟨rfl, (List.cons.inj h).2⟩
    | cons d a' => exact absurd ((List.cons.inj h).1 ▸ List.mem_cons_self) ha'
  | cons d a ih =>
    cases a' with
    | nil => exact absurd ((List.cons.inj h).1 ▸ List.mem_cons_self) ha
    | cons d' a' =>
      obtain ⟨hd, h⟩ := List.cons.inj h
      obtain ⟨haa, hbb⟩ := ih (fun hc => ha (List.mem_cons_of_mem _ hc))
        (fun hc => ha' (List.mem_cons_of_mem _ hc)) h
      exact ⟨by rw [hd, haa], hbb⟩

/-! ## At the last place -/

theorem splitLast?_append {sep : Char} (before : List Char) {after : List Char} (h : sep ∉ after) :
    splitLast? sep (before ++ sep :: after) = some (before, after) := by
  have hspan : (before ++ sep :: after).reverse.span (· ≠ sep) =
      (after.reverse, sep :: before.reverse) := by
    rw [List.span_eq_takeWhile_dropWhile, List.reverse_append, List.reverse_cons,
      List.append_assoc]
    have hall : ∀ c ∈ after.reverse, decide (c ≠ sep) = true := by
      intro c hc
      rw [decide_eq_true_eq]
      rintro rfl
      exact h (List.mem_reverse.1 hc)
    rw [List.takeWhile_append_of_pos hall, List.dropWhile_append_of_pos hall]
    simp
  rw [splitLast?, hspan]
  simp

theorem append_cons_inj_last {c : Char} {a a' b b' : List Char} (hb : c ∉ b) (hb' : c ∉ b')
    (h : a ++ c :: b = a' ++ c :: b') : a = a' ∧ b = b' := by
  have hsplit := splitLast?_append a hb
  rw [h, splitLast?_append a' hb'] at hsplit
  exact Prod.mk.inj (Option.some.inj hsplit.symm)

theorem splitLast?_eq_none {sep : Char} {s : List Char} (h : sep ∉ s) : splitLast? sep s = none := by
  have hspan : s.reverse.span (· ≠ sep) = (s.reverse, []) := by
    rw [List.span_eq_takeWhile_dropWhile]
    have hall : ∀ c ∈ s.reverse, decide (c ≠ sep) = true := by
      intro c hc
      rw [decide_eq_true_eq]
      rintro rfl
      exact h (List.mem_reverse.1 hc)
    rw [List.takeWhile_eq_self_iff.2 hall, List.dropWhile_eq_nil_iff.2 hall]
  rw [splitLast?, hspan]

theorem splitLast?_eq_some {sep : Char} {s before after : List Char}
    (h : splitLast? sep s = some (before, after)) : s = before ++ sep :: after ∧ sep ∉ after := by
  by_cases hmem : sep ∈ s
  · obtain ⟨b, a, heq, hnot⟩ := List.eq_append_cons_of_mem (List.mem_reverse.2 hmem)
    have hs : s = a.reverse ++ sep :: b.reverse := by
      have := congrArg List.reverse heq
      simpa using this
    have hnot' : sep ∉ b.reverse := fun hin => hnot (List.mem_reverse.1 hin)
    rw [hs, splitLast?_append _ hnot'] at h
    cases h
    exact ⟨hs, hnot'⟩
  · rw [splitLast?_eq_none hmem] at h
    cases h

/-! ## At the ends of lines -/

/-- Is a text empty, or does it end where a line does? -/
def EndsLine (s : List Char) : Prop := ∀ c ∈ s.getLast?, c = '\n'

theorem EndsLine.tail {c : Char} {s : List Char} (h : EndsLine (c :: s)) : EndsLine s := by
  cases s with
  | nil => exact fun c hc => by cases hc
  | cons d s => exact fun e he => h e (by rwa [List.getLast?_cons_cons])

theorem lines_newline (s : List Char) : lines ('\n' :: s) = [] :: lines s := by rw [lines]

theorem lines_return (s : List Char) : lines ('\r' :: '\n' :: s) = [] :: lines s := by rw [lines]

theorem lines_cons_of_ne {c : Char} {s : List Char} (hc : c ≠ '\n') (hreturn : c = '\r' → s.head? ≠ some '\n') :
    lines (c :: s) = match lines s with
      | [] => [[c]]
      | line :: later => (c :: line) :: later := by
  refine lines.eq_4 c s hc ?_
  rintro rest rfl rfl
  exact hreturn rfl rfl

theorem exists_lines {s : List Char} (h : s ≠ []) : ∃ line later, lines s = line :: later := by
  cases s using lines.induct with
  | case1 => exact absurd rfl h
  | case2 s => exact ⟨_, _, lines_newline s⟩
  | case3 s => exact ⟨_, _, lines_return s⟩
  | case4 c s hc hreturn hs => exact ⟨[c], [], by rw [lines, hs] <;> assumption⟩
  | case5 c s hc hreturn line later hs => exact ⟨c :: line, later, by rw [lines, hs] <;> assumption⟩

/-- Where a line ends a text may be cut. -/
theorem lines_append {a : List Char} (h : EndsLine a) (b : List Char) :
    lines (a ++ b) = lines a ++ lines b ∧ (lines a).length = a.count '\n' := by
  induction a using lines.induct with
  | case1 => exact ⟨rfl, rfl⟩
  | case2 s ih =>
    obtain ⟨happend, hlength⟩ := ih h.tail
    rw [List.cons_append, lines_newline, lines_newline, happend, List.length_cons, List.count_cons_self, hlength]
    exact ⟨rfl, rfl⟩
  | case3 s ih =>
    obtain ⟨happend, hlength⟩ := ih h.tail.tail
    rw [List.cons_append, List.cons_append, lines_return, lines_return, happend, List.length_cons,
      List.count_cons_of_ne (by decide), List.count_cons_self, hlength]
    exact ⟨rfl, rfl⟩
  | case4 c s hc hreturn hs ih =>
    -- the text would end with this character
    cases s with
    | nil => exact absurd (h c rfl) hc
    | cons d s =>
      obtain ⟨line, later, hlines⟩ := exists_lines (List.cons_ne_nil d s)
      rw [hs] at hlines
      cases hlines
  | case5 c s hc hreturn line later hs ih =>
    obtain ⟨happend, hlength⟩ := ih h.tail
    obtain ⟨d, s, rfl⟩ : ∃ d s', s = d :: s' := by
      refine List.exists_cons_of_ne_nil ?_
      rintro rfl
      cases hs
    have hreturn' (b : List Char) : c = '\r' → (d :: s ++ b).head? ≠ some '\n' := by
      rintro rfl hhead
      obtain rfl : d = '\n' := Option.some.inj hhead
      exact hreturn s rfl rfl
    have hstep := lines_cons_of_ne hc (hreturn' [])
    rw [List.append_nil, hs] at hstep
    rw [List.cons_append, lines_cons_of_ne hc (hreturn' b), happend, hs, hstep, List.count_cons_of_ne hc, ← hlength, hs]
    exact ⟨rfl, rfl⟩

/-- A line without the carriage return that belongs to its end. -/
def withoutReturn : List Char → List Char
  | [] => []
  | c :: s => if c = '\r' ∧ s = [] then [] else c :: withoutReturn s

theorem withoutReturn_append (a : List Char) {b : List Char} (hb : b ≠ []) :
    withoutReturn (a ++ b) = a ++ withoutReturn b := by
  induction a with
  | nil => rfl
  | cons c a ih =>
    have hne : ¬(c = '\r' ∧ a ++ b = []) := fun h => List.append_ne_nil_of_right_ne_nil a hb h.2
    rw [List.cons_append, withoutReturn, if_neg hne, ih, List.cons_append]

theorem withoutReturn_eq_self {s : List Char} (h : ∀ c ∈ s.getLast?, c ≠ '\r') : withoutReturn s = s := by
  rcases List.eq_nil_or_concat s with rfl | ⟨init, last, rfl⟩
  · rfl
  · have hlast : last ≠ '\r' := h last (by rw [List.concat_eq_append, List.getLast?_concat]; rfl)
    rw [List.concat_eq_append, withoutReturn_append init (List.cons_ne_nil last []), withoutReturn,
      if_neg fun h => hlast h.1]
    rfl

theorem exists_withoutReturn (s : List Char) : ∃ v, (∀ c ∈ v, c = '\r') ∧ s = withoutReturn s ++ v := by
  by_cases hlast : ∀ c ∈ s.getLast?, c ≠ '\r'
  · exact ⟨[], List.forall_mem_nil _, by rw [withoutReturn_eq_self hlast, List.append_nil]⟩
  · push Not at hlast
    obtain ⟨c, hc, rfl⟩ := hlast
    obtain ⟨init, rfl⟩ := List.getLast?_eq_some_iff.1 hc
    refine ⟨['\r'], List.forall_mem_singleton.2 rfl, ?_⟩
    rw [withoutReturn_append init (List.cons_ne_nil _ _), withoutReturn, if_pos ⟨rfl, rfl⟩, List.append_nil]

/-- The first line of a text. -/
theorem lines_of_line {line : List Char} (h : '\n' ∉ line) (rest : List Char) :
    lines (line ++ '\n' :: rest) = withoutReturn line :: lines rest := by
  induction line with
  | nil => exact lines_newline rest
  | cons c line ih =>
    rw [List.mem_cons, not_or] at h
    by_cases hlast : c = '\r' ∧ line = []
    · obtain ⟨rfl, rfl⟩ := hlast
      exact lines_return rest
    · have hreturn : c = '\r' → (line ++ '\n' :: rest).head? ≠ some '\n' := by
        intro hc hhead
        cases line with
        | nil => exact hlast ⟨hc, rfl⟩
        | cons d line =>
          obtain rfl : d = '\n' := Option.some.inj hhead
          exact h.2 List.mem_cons_self
      rw [List.cons_append, lines_cons_of_ne (Ne.symm h.1) hreturn, ih h.2, withoutReturn, if_neg hlast]

theorem lines_eq_singleton {line : List Char} (h : '\n' ∉ line) (hne : line ≠ []) : lines line = [line] := by
  induction line with
  | nil => exact absurd rfl hne
  | cons c line ih =>
    rw [List.mem_cons, not_or] at h
    have hreturn : c = '\r' → line.head? ≠ some '\n' := by
      intro _ hhead
      exact h.2 (List.mem_of_head? hhead)
    rw [lines_cons_of_ne (Ne.symm h.1) hreturn]
    cases line with
    | nil => rfl
    | cons d line => rw [ih h.2 (List.cons_ne_nil d line)]

theorem exists_first_line {front : List Char} (hne : front ≠ []) (hline : '\n' ∉ front)
    (hlast : ∀ c ∈ front.getLast?, c ≠ '\r') (rest : List Char) :
    ∃ tail later, lines (front ++ rest) = (front ++ tail) :: later := by
  by_cases hnewline : '\n' ∈ rest
  · obtain ⟨before, after, rfl, hbefore⟩ := List.eq_append_cons_of_mem hnewline
    have hfirst : '\n' ∉ front ++ before := fun h => (List.mem_append.1 h).elim hline hbefore
    rw [← List.append_assoc, lines_of_line hfirst]
    cases before with
    | nil => exact ⟨[], _, by rw [List.append_nil, withoutReturn_eq_self hlast]⟩
    | cons c before => exact ⟨_, _, by rw [withoutReturn_append front (List.cons_ne_nil c before)]⟩
  · exact ⟨rest, [], lines_eq_singleton (fun h => (List.mem_append.1 h).elim hline hnewline)
      (List.append_ne_nil_of_left_ne_nil hne rest)⟩

theorem mem_of_mem_lines {s line : List Char} {c : Char} (hline : line ∈ lines s) (hc : c ∈ line) : c ∈ s := by
  induction s using lines.induct generalizing line with
  | case1 => cases hline
  | case2 s ih =>
    rw [lines_newline] at hline
    rcases List.mem_cons.1 hline with rfl | hline
    · cases hc
    · exact List.mem_cons_of_mem _ (ih hline hc)
  | case3 s ih =>
    rw [lines_return] at hline
    rcases List.mem_cons.1 hline with rfl | hline
    · cases hc
    · exact List.mem_cons_of_mem _ (List.mem_cons_of_mem _ (ih hline hc))
  | case4 d s hd hreturn hs ih =>
    rw [lines, hs] at hline
    · rw [List.mem_singleton.1 hline] at hc
      rw [List.mem_singleton.1 hc]
      exact List.mem_cons_self
    · exact hd
    · exact hreturn
  | case5 d s hd hreturn first later hs ih =>
    rw [lines, hs] at hline
    · rw [hs] at ih
      rcases List.mem_cons.1 hline with rfl | hline
      · rcases List.mem_cons.1 hc with rfl | hc
        · exact List.mem_cons_self
        · exact List.mem_cons_of_mem _ (ih List.mem_cons_self hc)
      · exact List.mem_cons_of_mem _ (ih (List.mem_cons_of_mem _ hline) hc)
    · exact hd
    · exact hreturn

/-! ## Pieces -/

/-- A piece between characters is made of others of the text. -/
theorem mem_of_mem_splitWhere {p : Char → Bool} {s piece : List Char} (hpiece : piece ∈ splitWhere p s) {c : Char}
    (hc : c ∈ piece) : c ∈ s ∧ p c = false := by
  induction s generalizing piece with
  | nil =>
    rw [List.mem_singleton.1 hpiece] at hc
    cases hc
  | cons d s ih =>
    have hlater {piece : List Char} (hpiece : piece ∈ splitWhere p s) (hc : c ∈ piece) : c ∈ d :: s ∧ p c = false :=
      ⟨List.mem_cons_of_mem _ (ih hpiece hc).1, (ih hpiece hc).2⟩
    rw [splitWhere] at hpiece
    split at hpiece
    · rcases List.mem_cons.1 hpiece with rfl | hpiece
      · cases hc
      · exact hlater hpiece hc
    · next hd =>
      have hfirst : d ∈ d :: s ∧ p d = false := ⟨List.mem_cons_self, Bool.eq_false_iff.2 hd⟩
      split at hpiece
      · rw [List.mem_singleton.1 hpiece] at hc
        exact List.mem_singleton.1 hc ▸ hfirst
      · next first later hsplit =>
        rw [hsplit] at hlater
        rcases List.mem_cons.1 hpiece with rfl | hpiece
        · rcases List.mem_cons.1 hc with rfl | hc
          · exact hfirst
          · exact hlater List.mem_cons_self hc
        · exact hlater (List.mem_cons_of_mem _ hpiece) hc

theorem mem_of_mem_joinWith {sep : List Char} {pieces : List (List Char)} {c : Char} (h : c ∈ joinWith sep pieces) :
    c ∈ sep ∨ ∃ piece ∈ pieces, c ∈ piece := by
  induction pieces using joinWith.induct with
  | case1 => cases h
  | case2 piece => exact .inr ⟨piece, List.mem_singleton_self piece, h⟩
  | case3 piece pieces hne ih =>
    rw [joinWith, List.mem_append, List.mem_append] at h
    · rcases h with (h | h) | h
      · exact .inr ⟨piece, List.mem_cons_self, h⟩
      · exact .inl h
      · exact (ih h).imp_right fun ⟨piece, hpiece, hc⟩ => ⟨piece, List.mem_cons_of_mem _ hpiece, hc⟩
    · exact hne

/-! ## Texts in texts -/

theorem stripEnd?_append (s p : List Char) : stripEnd? p (s ++ p) = some s := by
  rw [stripEnd?, List.reverse_append, stripStart?_append_self, Option.map_some, List.reverse_reverse]

theorem isPrefixOf_eq_isSome (p s : List Char) : p.isPrefixOf s = (stripStart? p s).isSome := by
  rw [Bool.eq_iff_iff, List.isPrefixOf_iff_prefix, Option.isSome_iff_ne_none, ne_eq, stripStart?_eq_none_iff, not_not]

theorem occursIn_iff_isInfix {needle s : List Char} : occursIn needle s = true ↔ needle <:+: s := by
  induction s with
  | nil => rw [occursIn, List.isEmpty_iff, List.infix_nil]
  | cons c s ih => rw [occursIn, Bool.or_eq_true, List.isPrefixOf_iff_prefix, ih, List.infix_cons_iff]

theorem occursIn_eq_false_of_isInfix {needle s t : List Char} (h : s <:+: t) (ht : occursIn needle t = false) :
    occursIn needle s = false := by
  rw [Bool.eq_false_iff, ne_eq, occursIn_iff_isInfix] at ht ⊢
  exact fun hs => ht (hs.trans h)

end Consolidation.Text
