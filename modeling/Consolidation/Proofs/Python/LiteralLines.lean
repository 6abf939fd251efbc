/-
# `Proofs.Python.LiteralLines` — a docstring on its lines

What the line scanner makes of a string literal that stands alone on its lines, below a header.  A literal is quotes
around a text (`Encloses`), and its docstring is what they enclose (`Encloses.literalText?_eq`).

The scanner takes a literal on one line as it stands, with four spaces for each tab (`docstring?_line`).  Over several
lines it trims each of them and goes on up to the closing quotes (`exists_closeLiteral?_eq`).  At the quotes a line is
trimmed at one end only; the blanks that are left there vanish when the docstring is trimmed.  So in either case the
docstring is that of the literal with its lines trimmed (`docstring?_literal`).

| literal | what the scanner reads of it |
| :-- | :-- |
| quotes for one line | what they enclose (`docstring?_single`) |
| quotes for several lines, on one line | what stands between the first ones and the next ones (`docstring?_tripleLine`) |
| the same over several lines | line by line up to one with the closing quotes (`docstring?_tripleLines`) |

In the last case the closing quotes must not stand on an earlier line as the scanner sees it.  Trimming and spaces for
tabs make no quotes appear (`occursIn_scanned`), so it is enough that they do not stand in the literal.  Lines of blanks
above the literal are passed over (`docstring?_gap`).
-/
import Consolidation.Proofs.Python.TrimmedLines

namespace Consolidation.Python

open Text Line

/-! ## Literals -/

/-- Quotes and what they enclose: quotes for one line, or quotes for several lines that stand on none of them but the last. -/
inductive Encloses : List Char → List Char → Prop
  | single {q : Char} {inner : List Char} (hq : isQuote q = true) (hhead : inner.head? ≠ some q) (hline : '\n' ∉ inner) :
      Encloses [q] inner
  | triple {q : Char} {inner : List Char} (hq : isQuote q = true)
      (hclosed : ∀ piece ∈ (splitOn '\n' inner).dropLast, occursIn [q, q, q] piece = false) :
      Encloses [q, q, q] inner

/-- What quotes enclose, as a docstring. -/
def enclosedText? (inner : List Char) : Option (List Char) := if (trim inner).isEmpty then none else some (trim inner)

section Literals

variable {q : Char} {s inner quotes : List Char}

theorem eq_of_isQuote (hq : isQuote q = true) : q = '"' ∨ q = '\'' := by
  simpa [isQuote] using hq

theorem ne_of_isQuote {c : Char} (hq : isQuote q = true) (hc : isQuote c = false) : q ≠ c := by
  rintro rfl
  rw [hq] at hc
  cases hc

theorem not_blank_of_isQuote (hq : isQuote q = true) : isBlank q = false := by
  rcases eq_of_isQuote hq with rfl | rfl <;> rfl

theorem splitLiteral?_cons (hq : isQuote q = true) (s : List Char) : splitLiteral? (q :: s) = some ([], q :: s) := by
  simp [splitLiteral?, hq]

theorem stripStart?_triple (hhead : inner.head? ≠ some q) : stripStart? [q, q, q] (q :: (inner ++ [q])) = none := by
  cases inner with
  | nil => simp [stripStart?]
  | cons c inner =>
    have hne : q ≠ c := fun heq => hhead (congrArg some heq.symm)
    simp [stripStart?, hne]

theorem enclosed?_single (hq : isQuote q = true) (hhead : inner.head? ≠ some q) :
    enclosed? (q :: (inner ++ [q])) = some inner := by
  have htriple := stripStart?_triple hhead
  have hend := stripEnd?_append inner [q]
  have hother {c : Char} {p : List Char} (hne : c ≠ q) : stripStart? (c :: p) (q :: (inner ++ [q])) = none := if_neg hne
  have hself : stripStart? [q] (q :: (inner ++ [q])) = some (inner ++ [q]) := if_pos rfl
  rcases eq_of_isQuote hq with rfl | rfl
  · simp only [enclosed?, literalQuotes, List.findSome?_cons, htriple, hother (by decide : '\'' ≠ '"'), hself,
      Option.map_none, Option.map_some, hend, Option.getD_some]
  · simp only [enclosed?, literalQuotes, List.findSome?_cons, htriple, hother (by decide : '"' ≠ '\''), hself,
      Option.map_none, Option.map_some, hend, Option.getD_some]

theorem enclosed?_triple (hq : isQuote q = true) (inner : List Char) :
    enclosed? ([q, q, q] ++ (inner ++ [q, q, q])) = some inner := by
  have hend := stripEnd?_append inner [q, q, q]
  rcases eq_of_isQuote hq with rfl | rfl
  · simp [enclosed?, literalQuotes, stripStart?, hend]
  · simp [enclosed?, literalQuotes, stripStart?, hend]

theorem trimmed_of_quotes (hq : isQuote q = true) (hlast : (q :: s).getLast? = some q) : Trimmed (q :: s) where
  head := by
    rintro _ ⟨⟩
    exact not_blank_of_isQuote hq
  last := by
    rw [hlast]
    rintro _ ⟨⟩
    exact not_blank_of_isQuote hq

theorem literalText?_of_enclosed (hq : isQuote q = true) (hlast : (q :: s).getLast? = some q)
    (henclosed : enclosed? (q :: s) = some inner) : literalText? (q :: s) = enclosedText? inner := by
  simp only [literalText?, (trimmed_of_quotes hq hlast).trim_eq_self, splitLiteral?_cons hq, henclosed, enclosedText?,
    Option.bind_eq_bind, Option.bind_some]

theorem literalText?_single (hq : isQuote q = true) (hhead : inner.head? ≠ some q) :
    literalText? ([q] ++ (inner ++ [q])) = enclosedText? inner :=
  literalText?_of_enclosed hq (by simp [List.getLast?_cons]) (enclosed?_single hq hhead)

theorem literalText?_triple (hq : isQuote q = true) (inner : List Char) :
    literalText? ([q, q, q] ++ (inner ++ [q, q, q])) = enclosedText? inner :=
  literalText?_of_enclosed hq (by simp [List.getLast?_cons]) (enclosed?_triple hq inner)

/-- The docstring of a literal is what its quotes enclose. -/
theorem Encloses.literalText?_eq (h : Encloses quotes inner) :
    literalText? (quotes ++ (inner ++ quotes)) = enclosedText? inner := by
  cases h with
  | single hq hhead => exact literalText?_single hq hhead
  | triple hq => exact literalText?_triple hq inner

/-- Trimming the lines of a docstring is trimming those of what the quotes enclose. -/
theorem enclosedText?_eq_map {text : List Char} (h : trim text = trimmedLines (trim inner)) :
    enclosedText? text = (enclosedText? inner).map trimmedLines := by
  have hnil := (trimmed_trim inner).trimmedLines_eq_nil_iff
  rw [enclosedText?, enclosedText?, h]
  cases htrim : trim inner with
  | nil => rfl
  | cons c rest =>
    have hne : (trimmedLines (c :: rest)).isEmpty = false := by
      rw [htrim] at hnil
      rw [List.isEmpty_eq_false_iff]
      exact fun hempty => List.cons_ne_nil c rest (hnil.1 hempty)
    rw [hne]
    rfl

theorem enclosedText?_expandTabs (hline : '\n' ∉ inner) :
    enclosedText? (expandTabs inner) = (enclosedText? inner).map trimmedLines := by
  refine enclosedText?_eq_map ?_
  rw [← trim_trimmedLines, trimmedLines_line hline, (trimmed_trim (expandTabs inner)).trim_eq_self]

theorem enclosedText?_map_trimmedLines (hline : '\n' ∉ inner) (htab : '\t' ∉ inner) :
    (enclosedText? inner).map trimmedLines = enclosedText? inner := by
  rw [← enclosedText?_expandTabs hline, expandTabs_eq_self fun c hc htabs => htab (htabs ▸ hc)]

end Literals

namespace Line

/-! ## Quotes on a line -/

section Quotes

variable {q : Char} {needle s : List Char}

theorem expandTabs_quote (hq : isQuote q = true) (s : List Char) : expandTabs (q :: s) = q :: expandTabs s :=
  expandTabs_cons_of_ne (ne_of_isQuote hq rfl) s

theorem expandTabs_quotes (hq : isQuote q = true) : expandTabs [q, q, q] = [q, q, q] := by
  simp only [expandTabs_quote hq]
  rfl

theorem ink_of_isQuote (hq : isQuote q = true) : [q, q, q].all isInk = true := by
  rcases eq_of_isQuote hq with rfl | rfl <;> rfl

theorem occursIn_expandTabs (hink : needle.all isInk = true) (hne : needle ≠ []) (s : List Char) :
    occursIn needle (expandTabs s) = occursIn needle s := by
  induction s with
  | nil => rfl
  | cons c s ih =>
    by_cases hc : c = '\t'
    · subst hc
      obtain ⟨d, rest, rfl⟩ := List.exists_cons_of_ne_nil hne
      have hd : d ≠ '\t' ∧ d ≠ ' ' := by
        rw [List.all_cons, Bool.and_eq_true, isInk, Bool.and_eq_true, bne_iff_ne, bne_iff_ne] at hink
        exact hink.1
      have hskip {e : Char} (he : d ≠ e) (s : List Char) : occursIn (d :: rest) (e :: s) = occursIn (d :: rest) s := by
        rw [occursIn, List.isPrefixOf, beq_false_of_ne he, Bool.false_and, Bool.false_or]
      rw [expandTabs_tab, hskip hd.2, hskip hd.2, hskip hd.2, hskip hd.2, hskip hd.1, ih]
    · have hprefix := stripStart?_expandTabs hink (c :: s)
      rw [expandTabs_cons_of_ne hc] at hprefix ⊢
      rw [occursIn, occursIn, isPrefixOf_eq_isSome, isPrefixOf_eq_isSome, hprefix, Option.isSome_map, ih]

/-- Quotes that do not stand on a line of a text do not stand on the line that the scanner sees. -/
theorem occursIn_scanned (hq : isQuote q = true) (h : occursIn [q, q, q] s = false) :
    occursIn [q, q, q] (expandTabs (withoutReturn s)) = false := by
  obtain ⟨v, -, hs⟩ := exists_withoutReturn s
  rw [occursIn_expandTabs (ink_of_isQuote hq) (List.cons_ne_nil _ _)]
  refine occursIn_eq_false_of_isInfix ?_ h
  conv_rhs => rw [hs]
  exact (List.prefix_append _ v).isInfix

theorem trim_scanned (s : List Char) : trim (expandTabs (withoutReturn s)) = trim (expandTabs s) := by
  obtain ⟨v, hv, hs⟩ := exists_withoutReturn s
  have hblank : AllBlank v := fun c hc => by
    rw [hv c hc]
    rfl
  conv_rhs => rw [hs, expandTabs_append, trim_append_blanks_right (allBlank_expandTabs hblank)]

theorem indentation_append {indent : List Char} {c : Char} (hindent : AllBlank indent) (hc : isBlank c = false)
    (s : List Char) : indentation (indent ++ c :: s) = indentation indent := by
  have hstop : ¬isBlank c = true := by
    rw [hc]
    exact Bool.false_ne_true
  rw [indentation, indentation, List.takeWhile_append_of_pos hindent, List.takeWhile_cons_of_neg hstop, List.append_nil,
    List.takeWhile_eq_self_iff.2 hindent]

theorem dropLast_splitOn {p : List Char} (h : '\n' ∉ p) (s : List Char) :
    (splitOn '\n' (p ++ '\n' :: s)).dropLast = p :: (splitOn '\n' s).dropLast := by
  obtain ⟨piece, later, hrest, -⟩ := splitOn_cons '\n' '\n' s
  rw [splitOn_append_cons h, hrest, List.dropLast_cons_of_ne_nil (List.cons_ne_nil _ _)]

end Quotes

/-! ## Up to the closing quotes -/

/-- What stands behind a literal: blanks up to the end of its line. -/
structure EndsWithBlanks (tail behind : List Char) : Prop where
  blank : AllBlank tail
  line : '\n' ∉ tail
  ends : ∀ c ∈ behind.head?, c = '\n'

section Closing

variable {q : Char} {front tail behind s w : List Char}

theorem EndsWithBlanks.exists_line (h : EndsWithBlanks tail behind) (hne : front ≠ []) (hline : '\n' ∉ front)
    (hlast : ∀ c ∈ front.getLast?, c ≠ '\r') :
    ∃ w later, AllBlank w ∧ lines (front ++ (tail ++ behind)) = (front ++ w) :: later := by
  have hfirst : '\n' ∉ front ++ tail := fun hin => (List.mem_append.1 hin).elim hline h.line
  cases behind with
  | nil =>
    refine ⟨tail, [], h.blank, ?_⟩
    rw [List.append_nil, lines_eq_singleton hfirst (List.append_ne_nil_of_left_ne_nil hne tail)]
  | cons c behind =>
    obtain rfl : c = '\n' := h.ends c rfl
    obtain ⟨v, -, htail⟩ := exists_withoutReturn tail
    rw [← List.append_assoc, lines_of_line hfirst]
    cases tail with
    | nil => exact ⟨[], _, List.forall_mem_nil _, by rw [List.append_nil, withoutReturn_eq_self hlast]⟩
    | cons d tail =>
      refine ⟨withoutReturn (d :: tail), lines behind, fun e he => h.blank e ?_, ?_⟩
      · rw [htail]
        exact List.mem_append_left v he
      · rw [withoutReturn_append front (List.cons_ne_nil d tail)]

theorem exists_trim_closing (hq : isQuote q = true) (hw : AllBlank w) (s : List Char) :
    ∃ v, AllBlank v ∧ trim (expandTabs (s ++ ([q, q, q] ++ w))) = trim (expandTabs s) ++ (v ++ [q, q, q]) := by
  obtain ⟨v, hv, hstart⟩ := exists_trimStart_eq (expandTabs s)
  have hink := not_blank_of_isQuote hq
  have hend : [q, q, q] ++ expandTabs w = [q, q] ++ q :: expandTabs w := rfl
  refine ⟨v, hv, ?_⟩
  rw [expandTabs_append, expandTabs_append, expandTabs_quotes hq, trim, List.cons_append, trimStart_append_cons hink, hstart,
    ← List.cons_append, hend, ← List.append_assoc, trimEnd_append_cons hink, trimEnd_of_allBlank (allBlank_expandTabs hw)]
  simp only [List.append_assoc, List.cons_append, List.nil_append]

/-- A literal that is open is read on up to its closing quotes, with its lines trimmed. -/
theorem exists_closeLiteral?_eq (hq : isQuote q = true) (hend : EndsWithBlanks tail behind)
    (hclosed : ∀ piece ∈ (splitOn '\n' s).dropLast, occursIn [q, q, q] piece = false) (literal : List Char) :
    ∃ v, AllBlank v ∧
      closeLiteral? [q, q, q] literal ((lines (s ++ ([q, q, q] ++ (tail ++ behind)))).map expandTabs) =
        literalText? (literal ++ '\n' :: (trimmedLines s ++ (v ++ [q, q, q]))) := by
  induction s using byLines generalizing literal with
  | line p hp =>
    have hline : '\n' ∉ p ++ [q, q, q] := by
      simp [hp, (ne_of_isQuote hq rfl : q ≠ '\n').symm]
    have hlast : ∀ c ∈ (p ++ [q, q, q]).getLast?, c ≠ '\r' := by
      simpa using ne_of_isQuote hq rfl
    have hne : p ++ [q, q, q] ≠ [] := List.append_ne_nil_of_right_ne_nil p (List.cons_ne_nil _ _)
    obtain ⟨w, later, hw, hlines⟩ := hend.exists_line hne hline hlast
    obtain ⟨v, hv, htrim⟩ := exists_trim_closing hq hw p
    have hoccurs : occursIn [q, q, q] (expandTabs (p ++ ([q, q, q] ++ w))) = true := by
      rw [occursIn_expandTabs (ink_of_isQuote hq) (List.cons_ne_nil _ _), occursIn_iff_isInfix]
      exact ⟨p, w, List.append_assoc ..⟩
    refine ⟨v, hv, ?_⟩
    rw [List.append_assoc] at hlines
    rw [hlines, List.append_assoc, List.map_cons, closeLiteral?, if_pos hoccurs, htrim, trimmedLines_line hp]
  | append p s hp ih =>
    rw [dropLast_splitOn hp] at hclosed
    obtain ⟨hfirst, hclosed⟩ := List.forall_mem_cons.1 hclosed
    have hoccurs := occursIn_scanned hq hfirst
    obtain ⟨v, hv, hclose⟩ := ih hclosed (literal ++ '\n' :: trim (expandTabs p))
    refine ⟨v, hv, ?_⟩
    rw [List.append_assoc, List.cons_append, lines_of_line hp, List.map_cons, closeLiteral?,
      if_neg (by rw [hoccurs]; exact Bool.false_ne_true), trim_scanned, hclose, trimmedLines_append hp]
    simp only [List.append_assoc, List.cons_append]

end Closing

/-! ## Which quotes open a literal -/

section Opening

variable {q : Char} {first : Line} {rest : List Line} {s inner : List Char} {n : Nat}

theorem tripleQuotes?_triple (hq : isQuote q = true) (s : List Char) :
    tripleQuotes? ([q, q, q] ++ s) = some [q, q, q] := by
  rcases eq_of_isQuote hq with rfl | rfl
  · simp [tripleQuotes?, startsWith]
  · simp [tripleQuotes?, startsWith]

theorem tripleQuotes?_single (hq : isQuote q = true) (hhead : inner.head? ≠ some q) :
    tripleQuotes? (q :: (inner ++ [q])) = none := by
  have htriple : startsWith [q, q, q] (q :: (inner ++ [q])) = false := by
    rw [startsWith, isPrefixOf_eq_isSome, stripStart?_triple hhead]
    rfl
  have hother {c : Char} (hne : c ≠ q) : startsWith [c, c, c] (q :: (inner ++ [q])) = false := by
    rw [startsWith, List.isPrefixOf, beq_false_of_ne hne, Bool.false_and]
  rw [tripleQuotes?, List.find?_eq_none]
  rcases eq_of_isQuote hq with rfl | rfl
  · simp [htriple, hother (by decide : '\'' ≠ '"')]
  · simp [htriple, hother (by decide : '"' ≠ '\'')]

theorem docstring?_cons (hq : isQuote q = true) (htrim : trim first = q :: s) (hdeep : n < indentation first)
    (rest : List Line) :
    docstring? n (first :: rest) = match tripleQuotes? (q :: s) with
      | none => literalText? (q :: s)
      | some quotes =>
        if occursIn quotes ((q :: s).drop quotes.length) then literalText? (q :: s)
        else closeLiteral? quotes (q :: s) rest := by
  have hvoid : ¬isVoid first = true := by
    rw [isVoid, htrim]
    exact Bool.false_ne_true
  rw [docstring?, List.dropWhile_cons_of_neg hvoid]
  cases htriple : tripleQuotes? (q :: s) with
  | none =>
    simp only [if_neg (Nat.not_le_of_lt hdeep), htrim, splitLiteral?_cons hq, htriple, Option.bind_eq_bind, Option.bind_some]
  | some quotes =>
    simp only [if_neg (Nat.not_le_of_lt hdeep), htrim, splitLiteral?_cons hq, htriple, Option.bind_eq_bind, Option.bind_some]

/-- Quotes for several lines that do not stand on the first line again leave the literal open. -/
theorem docstring?_open (hq : isQuote q = true) (htrim : trim first = [q, q, q] ++ s) (hdeep : n < indentation first)
    (hopen : occursIn [q, q, q] s = false) (rest : List Line) :
    docstring? n (first :: rest) = closeLiteral? [q, q, q] ([q, q, q] ++ s) rest := by
  have htriple := tripleQuotes?_triple hq s
  have hcons : [q, q, q] ++ s = q :: ([q, q] ++ s) := rfl
  have hdrop : ([q, q, q] ++ s).drop [q, q, q].length = s := List.drop_left
  rw [hcons] at htrim htriple hdrop ⊢
  rw [docstring?_cons hq htrim hdeep, htriple]
  simp only [hdrop, hopen, Bool.false_eq_true, if_false]

end Opening

/-! ## Docstrings -/

/-- Blanks stand before a literal on its first line and behind it on its last one, and it is indented by more than `n`, with
four spaces for a tab. -/
structure StandsAlone (n : Nat) (indent tail behind : List Char) : Prop where
  blank : AllBlank indent
  line : '\n' ∉ indent
  deeper : n < indentation (expandTabs indent)
  tail : EndsWithBlanks tail behind

section Docstrings

variable {q : Char} {gap indent tail behind s inner quotes : List Char} {n : Nat}

theorem docstring?_gap (hgap : AllBlank gap) (hends : EndsLine gap) (n : Nat) (s : List Char) :
    docstring? n ((lines (gap ++ s)).map expandTabs) = docstring? n ((lines s).map expandTabs) := by
  have hvoid : ∀ line ∈ (lines gap).map expandTabs, isVoid line = true := by
    intro line hline
    obtain ⟨l, hl, rfl⟩ := List.mem_map.1 hline
    have hblank : AllBlank (expandTabs l) := allBlank_expandTabs fun c hc => hgap c (mem_of_mem_lines hl hc)
    rw [isVoid, trim_of_allBlank hblank]
    rfl
  rw [(lines_append hends s).1, List.map_append, docstring?, docstring?, List.dropWhile_append_of_pos hvoid]

theorem StandsAlone.deep (h : StandsAlone n indent tail behind) (hq : isQuote q = true) (s : List Char) :
    n < indentation (expandTabs (indent ++ q :: s)) := by
  rw [expandTabs_append, expandTabs_quote hq, indentation_append (allBlank_expandTabs h.blank) (not_blank_of_isQuote hq)]
  exact h.deeper

/-- A literal on one line is taken as it stands, if its quotes are not found to be open. -/
theorem docstring?_line (h : StandsAlone n indent tail behind) (hq : isQuote q = true) (hline : '\n' ∉ s)
    (hlast : (q :: s).getLast? = some q)
    (hclosed : ∀ quotes ∈ tripleQuotes? (q :: expandTabs s), occursIn quotes ((q :: expandTabs s).drop quotes.length) = true) :
    docstring? n ((lines (indent ++ (q :: s ++ (tail ++ behind)))).map expandTabs) = literalText? (q :: expandTabs s) := by
  have hlast' : (q :: expandTabs s).getLast? = some q := by
    obtain ⟨init, hinit⟩ := List.getLast?_eq_some_iff.1 hlast
    have hquote : expandTabs [q] = [q] := expandTabs_quote hq []
    rw [← expandTabs_quote hq, hinit, expandTabs_append, hquote, List.getLast?_concat]
  have hreturn : ∀ c ∈ (indent ++ q :: s).getLast?, c ≠ '\r' := by
    rw [List.getLast?_append_of_ne_nil indent (List.cons_ne_nil q s), hlast]
    rintro _ ⟨⟩
    exact ne_of_isQuote hq rfl
  have hfront : '\n' ∉ indent ++ q :: s := by
    simp [h.line, hline, (ne_of_isQuote hq rfl : q ≠ '\n').symm]
  have hne : indent ++ q :: s ≠ [] := List.append_ne_nil_of_right_ne_nil indent (List.cons_ne_nil q s)
  obtain ⟨w, later, hw, hlines⟩ := h.tail.exists_line hne hfront hreturn
  have hfirst : expandTabs (indent ++ q :: (s ++ w)) = expandTabs indent ++ (q :: expandTabs s ++ expandTabs w) := by
    rw [expandTabs_append, expandTabs_quote hq, expandTabs_append, List.cons_append]
  have htrim := (trimmed_of_quotes hq hlast').trim_eq (allBlank_expandTabs h.blank) (allBlank_expandTabs hw)
  rw [← hfirst] at htrim
  have hassoc : indent ++ q :: s ++ w = indent ++ q :: (s ++ w) := List.append_assoc ..
  rw [← List.append_assoc, hlines, hassoc, List.map_cons, docstring?_cons hq htrim (h.deep hq _)]
  cases htriple : tripleQuotes? (q :: expandTabs s) with
  | none => rfl
  | some quotes => exact if_pos (hclosed quotes htriple)

theorem docstring?_single (h : StandsAlone n indent tail behind) (hq : isQuote q = true) (hhead : inner.head? ≠ some q)
    (hline : '\n' ∉ inner) :
    docstring? n ((lines (indent ++ (([q] ++ (inner ++ [q])) ++ (tail ++ behind)))).map expandTabs) =
      (enclosedText? inner).map trimmedLines := by
  have hhead' : (expandTabs inner).head? ≠ some q := by
    intro heq
    have halike : AlikeOnTabs (· == q) := by
      rcases eq_of_isQuote hq with rfl | rfl <;> rfl
    have hmap := head?_expandTabs halike inner
    rw [heq, Option.map_some, beq_self_eq_true] at hmap
    obtain ⟨c, hc, hcq⟩ := Option.map_eq_some_iff.1 hmap.symm
    exact hhead (hc.trans (congrArg some (beq_iff_eq.1 hcq)))
  have htabs : expandTabs (inner ++ [q]) = expandTabs inner ++ [q] := by
    rw [expandTabs_append]
    exact congrArg _ (expandTabs_quote hq [])
  have hfree : '\n' ∉ inner ++ [q] := by
    simp [hline, (ne_of_isQuote hq rfl : q ≠ '\n').symm]
  have hclosed : ∀ quotes ∈ tripleQuotes? (q :: expandTabs (inner ++ [q])),
      occursIn quotes ((q :: expandTabs (inner ++ [q])).drop quotes.length) = true := by
    rw [htabs, tripleQuotes?_single hq hhead']
    exact fun _ hsome => by cases hsome
  have hdoc := docstring?_line h hq hfree (by simp [List.getLast?_cons]) hclosed
  rw [htabs] at hdoc
  rw [← enclosedText?_expandTabs hline, ← literalText?_single hq hhead']
  exact hdoc

theorem docstring?_tripleLine (h : StandsAlone n indent tail behind) (hq : isQuote q = true) (hline : '\n' ∉ inner) :
    docstring? n ((lines (indent ++ (([q, q, q] ++ (inner ++ [q, q, q])) ++ (tail ++ behind)))).map expandTabs) =
      (enclosedText? inner).map trimmedLines := by
  have htabs : expandTabs ([q, q] ++ (inner ++ [q, q, q])) = [q, q] ++ (expandTabs inner ++ [q, q, q]) := by
    simp only [List.cons_append, List.nil_append, expandTabs_quote hq, expandTabs_append]
    rfl
  have hfree : '\n' ∉ [q, q] ++ (inner ++ [q, q, q]) := by
    simp [hline, (ne_of_isQuote hq rfl : q ≠ '\n').symm]
  have hclosed : ∀ quotes ∈ tripleQuotes? (q :: expandTabs ([q, q] ++ (inner ++ [q, q, q]))),
      occursIn quotes ((q :: expandTabs ([q, q] ++ (inner ++ [q, q, q]))).drop quotes.length) = true := by
    have htriple := tripleQuotes?_triple hq (expandTabs inner ++ [q, q, q])
    rw [htabs]
    intro quotes hsome
    obtain rfl : [q, q, q] = quotes := Option.some.inj (htriple.symm.trans hsome)
    exact occursIn_iff_isInfix.2 ⟨expandTabs inner, [], List.append_nil _⟩
  have hdoc := docstring?_line h hq hfree (by simp [List.getLast?_cons]) hclosed
  rw [htabs] at hdoc
  rw [← enclosedText?_expandTabs hline, ← literalText?_triple hq]
  exact hdoc

theorem docstring?_tripleLines {p more : List Char} (h : StandsAlone n indent tail behind) (hq : isQuote q = true)
    (hp : '\n' ∉ p) (hfirst : occursIn [q, q, q] p = false)
    (hclosed : ∀ piece ∈ (splitOn '\n' more).dropLast, occursIn [q, q, q] piece = false) :
    docstring? n ((lines ((indent ++ ([q, q, q] ++ p)) ++ '\n' :: (more ++ ([q, q, q] ++ (tail ++ behind))))).map expandTabs) =
      (enclosedText? (p ++ '\n' :: more)).map trimmedLines := by
  have hink := not_blank_of_isQuote hq
  have hline : '\n' ∉ indent ++ ([q, q, q] ++ p) := by
    simp [h.line, hp, (ne_of_isQuote hq rfl : q ≠ '\n').symm]
  -- the first line, without its end
  have htrim : trim (expandTabs (withoutReturn (indent ++ ([q, q, q] ++ p)))) = [q, q, q] ++ trimEnd (expandTabs p) := by
    have hstart : trimStart ([q, q, q] ++ expandTabs p) = [q, q] ++ q :: expandTabs p := trimStart_cons_of_ink hink _
    rw [trim_scanned, expandTabs_append, trim_append_blanks (allBlank_expandTabs h.blank), expandTabs_append,
      expandTabs_quotes hq, trim, hstart, trimEnd_append_cons hink]
    rfl
  have hdeep : n < indentation (expandTabs (withoutReturn (indent ++ ([q, q, q] ++ p)))) := by
    have hne : [q, q, q] ++ p ≠ [] := List.cons_ne_nil _ _
    have hkeep : withoutReturn ([q, q, q] ++ p) = q :: withoutReturn ([q, q] ++ p) :=
      if_neg fun hreturn => ne_of_isQuote hq rfl hreturn.1
    rw [withoutReturn_append indent hne, hkeep]
    exact h.deep hq _
  have hopen : occursIn [q, q, q] (trimEnd (expandTabs p)) = false := by
    refine occursIn_eq_false_of_isInfix (trimEnd_isPrefix _).isInfix ?_
    rwa [occursIn_expandTabs (ink_of_isQuote hq) (List.cons_ne_nil _ _)]
  obtain ⟨v, hv, hend⟩ := exists_trimEnd_eq (expandTabs p)
  obtain ⟨w, hw, hclose⟩ := exists_closeLiteral?_eq hq h.tail hclosed ([q, q, q] ++ trimEnd (expandTabs p))
  have hliteral : [q, q, q] ++ trimEnd (expandTabs p) ++ '\n' :: (trimmedLines more ++ (w ++ [q, q, q])) =
      [q, q, q] ++ (v ++ (trimmedLines (p ++ '\n' :: more) ++ w) ++ [q, q, q]) := by
    rw [hend, trimmedLines_append hp]
    simp only [List.append_assoc, List.cons_append]
  rw [lines_of_line hline, List.map_cons, docstring?_open hq htrim hdeep hopen, hclose, hliteral, literalText?_triple hq]
  refine enclosedText?_eq_map ?_
  rw [trim_append_blanks hv, trim_append_blanks_right hw, trim_trimmedLines]

/-- The docstring below a header is that between the quotes, with its lines trimmed. -/
theorem docstring?_literal (h : StandsAlone n indent tail behind) (henclosed : Encloses quotes inner) :
    docstring? n ((lines (indent ++ ((quotes ++ (inner ++ quotes)) ++ (tail ++ behind)))).map expandTabs) =
      (enclosedText? inner).map trimmedLines := by
  cases henclosed with
  | single hq hhead hline => exact docstring?_single h hq hhead hline
  | triple hq hclosed =>
    by_cases hline : '\n' ∈ inner
    · obtain ⟨p, more, rfl, hp⟩ := List.eq_append_cons_of_mem hline
      rw [dropLast_splitOn hp] at hclosed
      obtain ⟨hfirst, hclosed⟩ := List.forall_mem_cons.1 hclosed
      have hdoc := docstring?_tripleLines h hq hp hfirst hclosed
      simp only [List.append_assoc, List.cons_append] at hdoc ⊢
      exact hdoc
    · exact docstring?_tripleLine h hq hline

end Docstrings

end Line

end Consolidation.Python
