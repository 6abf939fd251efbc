/-
# `Proofs.Python.Agreement` — a header in the tree and on its line

The tree of a source and the line scanner name the same function and the same parameters where the header is plain
(`PlainHeader`): it stands on a line of its own after spaces or tabs, no header is open before it, it has no type
parameters, string literals hold none of the quotes that enclose them, and in a parameter there is no comma outside of
brackets.  The last is what a default with a lambda of two parameters breaks.

## What is proved

For every source with a syntax tree, and every function definition in it whose header is on one line and plain, the line
scanner finds a definition on the line where the tree's starts, with the same name and the same parameters.

Nothing is asked of the rest of the source.  The header may stand anywhere, in classes, functions and compound statements,
with `async` before it and decorators above it, and a body behind its colon or below it.

## Why each condition is there

| condition | without it |
| :-- | :-- |
| spaces or tabs before the header | the scanner passes over no other blanks |
| no header open before it | the scanner takes the line for the end of an earlier header (`reported_iff`) |
| no type parameters | their bracket stands where the scanner expects that of the parameters |
| plain literals | a quote behind a backslash ends a literal for the scanner, and what follows is read as code |
| names and blanks as the scanner knows them | a parameter that is a pattern has no name, and a blank of no width is none |
| no comma outside brackets | the scanner splits a parameter there: a lambda of two parameters gives one too many |

## How it goes

The tokens of a definition's header are in one row in the source, the first of them at the start of a logical line
(`exists_headerTokens`, `exists_firstToken`).  What they write on the line is a `OneLineHeader`
(`PlainHeader.exists_oneLineHeader`), by `Proofs.Python.HeaderTokens`, and what the scanner makes of that is told in
`Proofs.Python.HeaderText`.
-/
import Consolidation.Python.SourceFault
import Consolidation.Proofs.Text.Lines
import Consolidation.Proofs.Python.Definitions
import Consolidation.Proofs.Python.HeaderTokens

namespace Consolidation.Python

open Text

/-! ## Parts of a source -/

/-- The tokens that start in some part of a source. -/
def tokensIn (source : List Char) (e : Extent) : List Token :=
  (tokens source).filter fun t => decide (e.start.offset ≤ t.start.offset) && decide (t.start.offset < e.stop.offset)

/-- The tokens of the header of a function definition: those before its block. -/
def headerTokens (source : List Char) (f : Tree) : List Token :=
  tokensIn source ⟨f.extent.start, (f.children.getLast?.map (·.extent.start)).getD f.extent.stop⟩

/-- The header of a function definition, from its first word to its colon. -/
def headerText (source : List Char) (f : Tree) : List Char := (extentOf (headerTokens source f)).text source

def lineBefore (source : List Char) (p : Place) : List Char :=
  ((source.take p.offset).reverse.takeWhile (· != '\n')).reverse

section Parts

variable {source : List Char} {before part after : List Token} {e : Extent}

/-- Tokens in a row are those that start from where the first starts up to where the last ends. -/
theorem tokensIn_of_split {first last : Token} (htokens : tokens source = before ++ (part ++ after))
    (hfirst : part.head? = some first) (hlast : part.getLast? = some last) (htext : ∀ t ∈ part, t.text ≠ "")
    (hstart : e.start = first.start) (hstop : last.stop.offset ≤ e.stop.offset)
    (hafter : ∀ t ∈ after, e.stop.offset ≤ t.start.offset) : tokensIn source e = part := by
  have hpairs := (Lexer.spelled_tokens source).pairwise.2
  have hmem (t : Token) (ht : t ∈ part) : t ∈ tokens source := by
    rw [htokens]
    exact List.mem_append_right _ (List.mem_append_left _ ht)
  rw [htokens, List.pairwise_append, List.pairwise_append] at hpairs
  obtain ⟨-, ⟨hpart, -, -⟩, hbefore⟩ := hpairs
  have hfirstMem := List.mem_of_head? hfirst
  have hlastMem := List.mem_of_getLast? hlast
  have hlow : ∀ t ∈ part, first.start.offset ≤ t.start.offset := by
    obtain ⟨rest, rfl⟩ : ∃ rest, part = first :: rest := by
      cases part with
      | nil => cases hfirst
      | cons t rest => exact ⟨rest, by rw [Option.some.inj hfirst]⟩
    exact List.forall_mem_cons.2 ⟨Nat.le_refl _, fun t ht => ((List.pairwise_cons.1 hpart).1 t ht).start_le⟩
  have hhigh : ∀ t ∈ part, t.start.offset ≤ last.start.offset := by
    rcases List.eq_nil_or_concat part with rfl | ⟨init, l, rfl⟩
    · cases hlast
    · rw [List.concat_eq_append] at hlast hpart ⊢
      obtain rfl : l = last := Option.some.inj (by rwa [List.getLast?_concat] at hlast)
      refine List.forall_mem_append.2 ⟨fun t ht => ?_, List.forall_mem_singleton.2 (Nat.le_refl _)⟩
      exact ((List.pairwise_append.1 hpart).2.2 t ht l (List.mem_singleton_self l)).start_le
  have hwidth : last.start.offset < last.stop.offset := by
    obtain ⟨_, _, _, _, _, -, hfound⟩ := Lexer.exists_found_of_mem (hmem last hlastMem) (htext last hlastMem)
    exact hfound.start_lt_stop
  have hout {some : List Token} (h : ∀ t ∈ some, t.start.offset < e.start.offset ∨ e.stop.offset ≤ t.start.offset) :
      some.filter (fun t => decide (e.start.offset ≤ t.start.offset) && decide (t.start.offset < e.stop.offset)) = [] := by
    refine List.filter_eq_nil_iff.2 fun t ht hin => ?_
    rw [Bool.and_eq_true, decide_eq_true_eq, decide_eq_true_eq] at hin
    have hcases := h t ht
    omega
  have hin : part.filter (fun t => decide (e.start.offset ≤ t.start.offset) && decide (t.start.offset < e.stop.offset)) = part := by
    refine List.filter_eq_self.2 fun t ht => ?_
    rw [Bool.and_eq_true, decide_eq_true_eq, decide_eq_true_eq, hstart]
    have hle := hhigh t ht
    exact ⟨hlow t ht, by omega⟩
  rw [tokensIn, htokens, List.filter_append, List.filter_append, hin, hout fun t ht => .inr (hafter t ht), List.append_nil,
    hout fun t ht => .inl ?_, List.nil_append]
  rw [hstart]
  exact (hbefore t ht first (List.mem_append_left _ hfirstMem)).start_lt (htext first hfirstMem)

theorem tokensIn_extentOf (htokens : tokens source = before ++ (part ++ after)) (hne : part ≠ [])
    (htext : ∀ t ∈ part, t.text ≠ "") : tokensIn source (extentOf part) = part := by
  obtain ⟨first, rest, hpart⟩ := List.exists_cons_of_ne_nil hne
  have hlast : part.getLast? = some (part.getLast hne) := List.getLast?_eq_some_getLast hne
  have hmem : part.getLast hne ∈ part := List.getLast_mem hne
  have hstop : (extentOf part).stop = (part.getLast hne).stop := by
    rw [extentOf, hlast]
    rfl
  refine tokensIn_of_split htokens (by rw [hpart]; rfl) hlast htext (by rw [hpart]; rfl) (Nat.le_of_eq (by rw [hstop]))
    fun t ht => ?_
  have hpairs := (Lexer.spelled_tokens source).pairwise.2
  rw [htokens, List.pairwise_append, List.pairwise_append] at hpairs
  rw [hstop]
  exact (hpairs.2.1.2.2 _ hmem t ht).stop_le (htext _ hmem)

end Parts

/-! ## Headers on their lines -/

section Lines

open Line

variable {source lead header behind : List Char} {name : List Char} {names : List (List Char)}

theorem exists_last_line (s : List Char) :
    ∃ above, EndsLine above ∧ s = above ++ (s.reverse.takeWhile (· != '\n')).reverse := by
  refine ⟨(s.reverse.dropWhile (· != '\n')).reverse, fun c hc => ?_, ?_⟩
  · rw [List.getLast?_reverse] at hc
    have hhead := List.head?_dropWhile_not (· != '\n') s.reverse
    rw [hc] at hhead
    simpa using hhead
  · rw [← List.reverse_append, List.takeWhile_append_dropWhile, List.reverse_reverse]

theorem not_mem_last_line (s : List Char) : '\n' ∉ (s.reverse.takeWhile (· != '\n')).reverse := by
  rw [List.mem_reverse]
  intro hin
  have hne := List.mem_takeWhile_imp hin
  simp at hne

theorem count_lt_length_lines (hsource : source = lead ++ behind) (hne : behind ≠ []) :
    lead.count '\n' < (lines source).length := by
  obtain ⟨above, habove, hlead⟩ := exists_last_line lead
  have hnewline := not_mem_last_line lead
  generalize (lead.reverse.takeWhile (· != '\n')).reverse = last at hlead hnewline
  obtain ⟨hlines, hlength⟩ := lines_append habove (last ++ behind)
  obtain ⟨line, later, hlast⟩ := exists_lines (List.append_ne_nil_of_right_ne_nil last hne)
  rw [hsource, hlead, List.append_assoc, hlines, hlast, List.length_append, hlength, List.count_append,
    List.count_eq_zero.2 hnewline]
  exact Nat.lt_add_of_pos_right (Nat.zero_lt_succ _)

theorem exists_line (hsource : source = lead ++ (header ++ behind)) (hne : header ≠ []) (hheader : '\n' ∉ header)
    (hlast : ∀ c ∈ header.getLast?, c ≠ '\r') :
    ∃ before tail after, before.length = lead.count '\n' ∧
      lines source = before ++ ((lead.reverse.takeWhile (· != '\n')).reverse ++ (header ++ tail)) :: after := by
  obtain ⟨above, habove, hlead⟩ := exists_last_line lead
  have hnewline := not_mem_last_line lead
  generalize (lead.reverse.takeWhile (· != '\n')).reverse = indent at hlead hnewline ⊢
  have hline : '\n' ∉ indent ++ header := fun hin => (List.mem_append.1 hin).elim hnewline hheader
  have hlast' : ∀ c ∈ (indent ++ header).getLast?, c ≠ '\r' := by
    rwa [List.getLast?_append_of_ne_nil indent hne]
  obtain ⟨tail, after, hfirst⟩ := exists_first_line (List.append_ne_nil_of_right_ne_nil indent hne) hline hlast' behind
  obtain ⟨hlines, hlength⟩ := lines_append habove (indent ++ header ++ behind)
  refine ⟨lines above, tail, after, ?_, ?_⟩
  · rw [hlength, hlead, List.count_append, List.count_eq_zero.2 hnewline]
    rfl
  · rw [hsource, hlead, List.append_assoc, ← List.append_assoc indent, hlines, hfirst, List.append_assoc]

theorem Line.OneLineHeader.reported {indent tail : List Char} {before after : List Line}
    (h : OneLineHeader (expandTabs header) name names)
    (hlines : lines source = before ++ (indent ++ (header ++ tail)) :: after)
    (hindent : ∀ c ∈ indent, c = ' ' ∨ c = '\t') (hopen : openHeader before = false) :
    ∃ e ∈ scanLines source, e.firstLine = before.length + 1 ∧ e.name = name ∧ e.args = names := by
  have hspaces : ∀ c ∈ expandTabs indent, c = ' ' ∨ c = '\t' := by
    intro c hc
    obtain ⟨d, hd, hcd⟩ := List.mem_flatMap.1 hc
    rcases hindent d hd with rfl | rfl
    · exact .inl (List.mem_singleton.1 hcd)
    · exact .inl (by simpa using hcd)
  have hline : expandTabs (indent ++ (header ++ tail)) =
      expandTabs indent ++ (expandTabs header ++ expandTabs tail) := by
    rw [expandTabs_append, expandTabs_append]
  have hcloses := h.closesHeader hspaces (expandTabs tail)
  obtain ⟨rest, hstart, -⟩ := h.headerStart? hspaces (expandTabs tail)
  have hargs := h.parameterNames hspaces (expandTabs tail)
  rw [← hline] at hcloses hstart hargs
  have hheader : header? (expandTabs (indent ++ (header ++ tail))) (after.map expandTabs) =
      some (⟨(expandTabs indent).length, name, rest⟩, 0) := by
    refine header?_eq_some_iff.2 ⟨hstart, ?_⟩
    rw [continuation?, if_pos hcloses]
  have hreached : ¬Reached (before.map expandTabs)
      (expandTabs (indent ++ (header ++ tail)) :: after.map expandTabs) := by
    rw [reached_iff_openHeader hcloses, openHeader_map_expandTabs, hopen]
    exact Bool.false_ne_true
  refine ⟨_, mem_scanLines_iff.2 ⟨_, _, _, _, 0, ?_, hheader, hreached, rfl⟩, ?_, rfl, hargs⟩
  · rw [hlines, List.map_append, List.map_cons]
  · exact congrArg (· + 1) (List.length_map ..)

end Lines

/-! ## Headers in the tree -/

section Headers

open Lexer

variable {source : List Char} {tree f : Tree} {before rest : List Token} {t : Token}

theorem exists_spelled (htokens : tokens source = before ++ t :: rest) (hbefore : ∀ e ∈ before.getLast?, IsLineEnd e)
    (ht : t.text ≠ "") :
    ∃ lead behind modes', source = lead ++ (t.text.toList ++ behind) ∧ t.start = Place.start.after lead ∧
      t.stop = t.start.after t.text.toList ∧ Lexeme [.code 0] t.kind t.text.toList behind modes' ∧
        Spelled modes' t.stop behind rest := by
  have hspelled := spelled_tokens source
  rw [htokens] at hspelled
  obtain ⟨modes, front, text, hsource, hfront, hnil, hline⟩ := hspelled.suffix ht
  have hmodes : modes = [.code 0] := by
    rcases List.eq_nil_or_concat before with rfl | ⟨init, e, rfl⟩
    · exact hnil rfl
    · rw [List.concat_eq_append] at hbefore hline
      exact hline ⟨e, List.getLast?_concat, hbefore e List.getLast?_concat⟩
  subst hmodes
  obtain ⟨gap, behind, modes', rfl, hfound, hbehind⟩ := hfront.exists_found ht
  refine ⟨front ++ gap, behind, modes', ?_, ?_, hfound.stop, hfound.lexeme, hbehind⟩
  · rw [hsource, List.append_assoc]
  · rw [hfound.start, Place.after_append]

/-- The tokens of the header of a function definition stand where a logical line starts. -/
theorem exists_headerTokens (hparse : parse source = .ok tree) (hf : f ∈ tree.preorder)
    (hkind : f.kind = .functionDefinition) (htypes : (f.children[1]?).map Tree.kind = some .parameters) :
    ∃ before after first, tokens source = before ++ (headerTokens source f ++ after) ∧
      (∀ e ∈ before.getLast?, IsLineEnd e) ∧ Grammar.IsHeader (headerTokens source f) f ∧
        (headerTokens source f).head? = some first ∧ f.extent.start = first.start := by
  obtain ⟨_, rounds, indent, s, s', ⟨before, hall, hbefore⟩, -, hrun⟩ := Grammar.defined_of_mem_preorder hparse hf hkind
  obtain ⟨taken, s₁, htook, hheader, -, hstart, -, block, hblock, hstop⟩ :=
    Grammar.begins_functionDefinition rounds indent f s' hrun
  have hheader := hheader htypes
  rw [htook.rest] at hall
  have htext : ∀ t ∈ taken, t.text ≠ "" := fun t ht => (spelled_tokens source).text_ne
    (by rw [hall]; exact List.mem_append_right _ (List.mem_append_left _ ht)) (hheader.nested.edge_ne t ht)
  have hne : taken ≠ [] := by
    cases hheader
    exact List.append_ne_nil_of_right_ne_nil _ (List.cons_ne_nil _ _)
  have hfirst : taken.head? = some (taken.head hne) := List.head?_eq_some_head hne
  have hlast : taken.getLast? = some (taken.getLast hne) := List.getLast?_eq_some_getLast hne
  have hextent := Grammar.extentOf_took htook hne
  rw [extentOf, hfirst, hlast] at hextent
  obtain ⟨hhere, hend⟩ : (taken.head hne).start = s.here ∧ (taken.getLast hne).stop = s₁.last := Extent.mk.inj hextent
  have hwhere : f.extent.start = (taken.head hne).start := hstart.trans hhere.symm
  have hpairs := (spelled_tokens source).pairwise.2
  rw [hall, List.pairwise_append, List.pairwise_append] at hpairs
  obtain ⟨-, ⟨-, hbehind, hbetween⟩, -⟩ := hpairs
  have hblockStart : (taken.getLast hne).stop.offset ≤ s₁.here.offset ∧ ∀ t ∈ s₁.rest, s₁.here.offset ≤ t.start.offset := by
    have hmem := List.getLast_mem hne
    cases hrest : s₁.rest with
    | nil =>
      have hlater : s₁.here = (taken.getLast hne).stop := by
        rw [ParseState.here, ParseState.front, hrest, hend]
        rfl
      rw [hlater]
      exact ⟨Nat.le_refl _, List.forall_mem_nil _⟩
    | cons v rest =>
      have hlater : s₁.here = v.start := by
        rw [ParseState.here, ParseState.front, hrest]
        rfl
      rw [hrest] at hbehind hbetween
      rw [hlater]
      refine ⟨(hbetween _ hmem v List.mem_cons_self).stop_le (htext _ hmem), List.forall_mem_cons.2 ⟨Nat.le_refl _, ?_⟩⟩
      exact fun t ht => ((List.pairwise_cons.1 hbehind).1 t ht).start_le
  have htaken : headerTokens source f = taken := by
    rw [headerTokens, hblock, Option.map_some, Option.getD_some, hstop]
    exact tokensIn_of_split hall hfirst hlast htext hwhere hblockStart.1 hblockStart.2
  rw [htaken]
  exact ⟨before, s₁.rest, _, hall, hbefore, hheader, hfirst, hwhere⟩

theorem exists_firstToken {rounds indent : Nat} {s s' : ParseState}
    (hrun : Grammar.functionDefinition (Grammar.reader rounds) indent s = .ok (f, s')) :
    ∃ t rest, s.rest = t :: rest ∧ t.edge = .inside ∧ f.extent.start = t.start := by
  obtain ⟨taken, s₁, htook, -, ⟨lead, more, htaken, hlead⟩, hstart, -⟩ :=
    Grammar.begins_functionDefinition rounds indent f s' hrun
  obtain ⟨t, rest, hfirst, hedge⟩ : ∃ t rest, lead = t :: rest ∧ t.edge = .inside := by
    cases hlead with
    | plain ht => exact ⟨_, _, rfl, Token.edge_of_isWord ht⟩
    | async ha => exact ⟨_, _, rfl, Token.edge_of_isWord ha⟩
  have hrest : s.rest = t :: (rest ++ more ++ s₁.rest) := by
    rw [htook.rest, htaken, hfirst]
    rfl
  refine ⟨t, _, hrest, hedge, hstart.trans ?_⟩
  rw [ParseState.here, ParseState.front, hrest]
  rfl

/-- What stands before a function definition. -/
theorem exists_lead (hparse : parse source = .ok tree) (hf : f ∈ tree.preorder) (hkind : f.kind = .functionDefinition) :
    ∃ lead behind, source = lead ++ behind ∧ behind ≠ [] ∧ f.extent.start = Place.start.after lead := by
  obtain ⟨_, rounds, indent, s, s', ⟨before, hall, hbefore⟩, -, hrun⟩ := Grammar.defined_of_mem_preorder hparse hf hkind
  obtain ⟨t, rest, hrest, hedge, hstart⟩ := exists_firstToken hrun
  rw [hrest] at hall
  have htext : t.text ≠ "" := (spelled_tokens source).text_ne (hall ▸ List.mem_append_right _ List.mem_cons_self)
    (by rw [hedge]; exact Edge.noConfusion)
  obtain ⟨above, behind, -, hsource, htstart, -⟩ := exists_spelled hall hbefore htext
  have hne : t.text.toList ≠ [] := fun hnil => htext (String.toList_inj.1 hnil)
  exact ⟨above, _, hsource, List.append_ne_nil_of_left_ne_nil hne _, hstart.trans htstart⟩

theorem exists_nameToken (hparse : parse source = .ok tree) (hf : f ∈ tree.preorder) (hkind : f.kind = .functionDefinition) :
    ∃ n ∈ tokens source, n.kind = .name ∧ f.children.head? = some (.node .identifier ⟨n.start, n.stop⟩ []) := by
  obtain ⟨_, rounds, indent, s, s', ⟨before, hall, -⟩, -, hrun⟩ := Grammar.defined_of_mem_preorder hparse hf hkind
  obtain ⟨taken, s₁, htook, -, -, -, ⟨n, hn, hname⟩, -⟩ := Grammar.begins_functionDefinition rounds indent f s' hrun
  refine ⟨n, ?_, hname⟩
  rw [hall, htook.rest]
  exact List.mem_append_right _ (List.mem_append_left _ hn)

/-- The names of the function definitions in a tree are identifiers. -/
theorem isIdentChar_of_mem_definitions {d : Definition} (hparse : parse source = .ok tree) (hd : d ∈ tree.definitions source) :
    d.name.all isIdentChar = true := by
  obtain ⟨f, hf, hd⟩ := List.mem_filterMap.1 hd
  obtain ⟨hkind, named, hnamed, hname, -⟩ := Tree.definition?_eq_some hd
  obtain ⟨n, hn, hnkind, hhead⟩ := exists_nameToken hparse hf hkind
  obtain ⟨more, hchildren⟩ := List.head?_eq_some_iff.1 hhead
  have hedge : n.edge ≠ .outside := by
    rw [Token.edge_of_name hnkind]
    exact Edge.noConfusion
  obtain ⟨modes, place, gap, behind, modes', hplace, hfound⟩ :=
    exists_found_of_mem hn ((spelled_tokens source).text_ne hn hedge)
  have hlexeme := hfound.lexeme
  rw [hnkind] at hlexeme
  obtain rfl : .node .identifier ⟨n.start, n.stop⟩ [] = named := by
    rw [Tree.child?, hchildren] at hnamed
    exact Option.some.inj hnamed
  rw [hname, Tree.text, Tree.extent, hfound.extent_text hplace]
  cases hlexeme with
  | name hall => exact hall

theorem isReadable_of_parameter {part : List Token} {p : Tree} (h : Grammar.IsParameter part p)
    (hpart : part <:+: tokens source) (hnamed : p.kind ≠ .separator → p.namingNode?.map Tree.kind = some .identifier)
    (hcommas : Line.CommaFree (tokensIn source p.extent)) (hwords : ∀ name ∈ nameIn source p, Line.IsWord name) :
    IsReadable source part p := by
  have hmem (t : Token) (ht : t ∈ part) : t ∈ tokens source := hpart.subset ht
  have htext (t : Token) (ht : t ∈ part) : t.text ≠ "" :=
    (spelled_tokens source).text_ne (hmem t ht) (h.nested.edge_ne t ht)
  cases h with
  | separator ht hkind =>
    refine .separator ht ?_
    obtain ⟨kind, extent, children⟩ := p
    obtain rfl : kind = .separator := hkind
    rfl
  | @named stars more n p hstars hn hmore hkind hextent hnaming =>
    obtain ⟨before, after, hsplit⟩ := hpart
    have hne : stars ++ n :: more ≠ [] := List.append_ne_nil_of_right_ne_nil _ (List.cons_ne_nil _ _)
    have hnmem : n ∈ stars ++ n :: more := List.mem_append_right _ List.mem_cons_self
    have hname : nameIn source p = some n.text.toList := by
      obtain ⟨_, _, _, _, _, hsource, hfound⟩ := exists_found_of_mem (hmem n hnmem) (htext n hnmem)
      rw [nameIn, hnaming]
      exact congrArg some (hfound.extent_text hsource)
    have hfront : Nested (stars ++ [n]) := by
      have hword : Nested [n] := .inside (Token.edge_of_name hn) .nil
      rcases hstars with rfl | ⟨t, rfl, ht⟩
      · exact hword
      · exact .inside (Grammar.inside_of_stars ht) hword
    rw [hextent, tokensIn_extentOf (hsplit.symm.trans (List.append_assoc ..)) hne htext, ← List.singleton_append,
      ← List.append_assoc] at hcommas
    exact .named hstars hn hmore (hcommas.tail hfront) (hwords _ hname) hname
  | pattern _ hkind hnaming =>
    obtain ⟨n, hn, hidentifier⟩ := Option.map_eq_some_iff.1 (hnamed hkind)
    exact absurd hidentifier (hnaming n hn)

end Headers

/-! ## Agreement -/

/-- A header that the line scanner reads as the grammar does, if it stands on one line. -/
structure PlainHeader (source : List Char) (f : Tree) : Prop where
  /-- Only spaces and tabs stand before it on its line. -/
  indented : ∀ c ∈ lineBefore source f.extent.start, c = ' ' ∨ c = '\t'
  /-- No header is open before its line. -/
  exposed : Line.openHeader ((lines source).take f.extent.start.row) = false
  /-- It has no type parameters. -/
  untyped : (f.children[1]?).map Tree.kind = some .parameters
  /-- Its names are words to the scanner. -/
  words : ∀ name ∈ ((f.child? .identifier).map (·.text source)).toList ++ f.parameterNames source, Line.IsWord name
  /-- Each parameter has a name, not a pattern. -/
  named : ∀ p ∈ f.parameters, p.kind ≠ .separator → p.namingNode?.map Tree.kind = some .identifier
  /-- In no parameter there is a comma outside of brackets. -/
  commas : ∀ p ∈ f.parameters, Line.CommaFree (tokensIn source p.extent)
  /-- No string in it holds the quotes that enclose it. -/
  strings : PlainStrings source (headerTokens source f)
  /-- Its blanks are blanks to the scanner. -/
  blanks : ∀ c ∈ headerText source f, isZeroWidth c = false

section Agreement

open Lexer Line

variable {source : List Char} {tree f : Tree} {d : Definition}

theorem PlainHeader.exists_oneLineHeader (h : PlainHeader source f) (hparse : parse source = .ok tree)
    (hf : f ∈ tree.preorder) (hd : f.definition? source = some d) (hline : '\n' ∉ headerText source f) :
    ∃ lead header behind, source = lead ++ (header ++ behind) ∧ f.extent.start = Place.start.after lead ∧
      '\n' ∉ header ∧ OneLineHeader (expandTabs header) d.name d.args := by
  obtain ⟨hkind, name, hname, hdname, hdargs, -⟩ := Tree.definition?_eq_some hd
  obtain ⟨before, after, first, htokens, hbefore, hheader, hfirst, hstart⟩ :=
    exists_headerTokens hparse hf hkind h.untyped
  have hwords := h.words
  have hstrings := h.strings
  have hblanks := h.blanks
  rw [headerText] at hline hblanks
  generalize headerTokens source f = header at htokens hheader hfirst hline hstrings hblanks
  have htext (t : Token) (ht : t ∈ header) : t ∈ tokens source ∧ t.text ≠ "" := by
    have hmem : t ∈ tokens source := htokens ▸ List.mem_append_right _ (List.mem_append_left _ ht)
    exact ⟨hmem, (spelled_tokens source).text_ne hmem (hheader.nested.edge_ne t ht)⟩
  have hnamed := h.named
  have hcommas := h.commas
  rw [Tree.parameterNames_eq] at hdargs hwords
  cases hheader with
  | @intro lead inner result n opener closer colon items results block e e' hlead hn hopener hitems hcloser hresult hcolon =>
    -- the names in the tree are those of the tokens
    have hparameters : Tree.parameters (.node .functionDefinition e (.node .identifier ⟨n.start, n.stop⟩ [] ::
      .node .parameters e' items :: (results ++ [block]))) = items := rfl
    have hnmem : n ∈ lead ++ n :: opener :: (inner ++ closer :: (result ++ [colon])) :=
      List.mem_append_right _ List.mem_cons_self
    have hnameText : d.name = n.text.toList := by
      obtain ⟨_, _, _, _, _, hsource, hfound⟩ := exists_found_of_mem (htext n hnmem).1 (htext n hnmem).2
      have hnode : some (Tree.node .identifier ⟨n.start, n.stop⟩ []) = some name := hname
      rw [hdname, ← Option.some.inj hnode]
      exact hfound.extent_text hsource
    rw [hparameters] at hdargs hwords hnamed hcommas
    rw [hname, Option.map_some, Option.toList_some, ← hdname, hnameText] at hwords
    have hinner : inner <:+: tokens source :=
      ⟨before ++ (lead ++ [n, opener]), closer :: (result ++ [colon]) ++ after, by rw [htokens]; simp⟩
    have hreadable := hitems.imp fun part p hpart hp hparameter =>
      isReadable_of_parameter hparameter (hpart.trans hinner) (hnamed p hp) (hcommas p hp) fun name hname =>
        hwords name (List.mem_append_right _ (List.mem_filterMap.2 ⟨p, hp, hname⟩))
    obtain ⟨t, rest, htaken, ht, hwrites⟩ := writes_header hlead hn (hwords _ (List.mem_append_left _ (List.mem_singleton_self _)))
      hopener hreadable hcloser hresult hcolon hstrings
    rw [htaken] at htokens hfirst hline hblanks htext
    obtain rfl : t = first := Option.some.inj hfirst
    -- the text of the header
    obtain ⟨above, behind, modes, hsource, htstart, htstop, hlexeme, hspelled⟩ :=
      exists_spelled htokens hbefore (htext t List.mem_cons_self).2
    rw [ht] at hlexeme
    obtain ⟨rfl, -, hend⟩ := hlexeme.of_name
    have hbehind : source.drop t.stop.offset = behind := by
      rw [htstop, htstart]
      exact drop_after (drop_after (hsource : source.drop Place.start.offset = _))
    obtain ⟨front, behind', rfl, hplace, -, hfront⟩ := hwrites t.stop behind after hspelled hbehind
    have hheader : (extentOf (t :: rest)).text source = t.text.toList ++ front := by
      rw [extentOf_cons, ← hplace, htstop, ← Place.after_append, htstart]
      rw [← List.append_assoc t.text.toList front] at hsource
      exact text_of_drop (hsource : source.drop Place.start.offset = _)
    rw [hheader] at hline hblanks
    have htidy : Tidy (t.text.toList ++ front) := fun c hc => ⟨fun hnewline => hline (hnewline ▸ hc), hblanks c hc⟩
    refine ⟨above, t.text.toList ++ front, behind', ?_, hstart.trans htstart, hline, ?_⟩
    · rw [hsource, List.append_assoc]
    · rw [hnameText, hdargs]
      exact hfront (tidy_append.1 htidy).2 hend

theorem lineBefore_after (lead rest : List Char) :
    lineBefore (lead ++ rest) (Place.start.after lead) = (lead.reverse.takeWhile (· != '\n')).reverse := by
  have hoffset : (Place.start.after lead).offset = lead.length := by
    rw [Place.offset_after]
    exact Nat.zero_add _
  rw [lineBefore, hoffset, List.take_left]

theorem parse_of_treeOf (h : treeOf source = .ok tree) : parse source = .ok tree := by
  unfold treeOf at h
  split at h
  · cases h
  · next hparse =>
    split at h
    · cases h
    · cases h
      exact hparse

/-- A plain header on one line is reported on its line, with its name and its parameters. -/
theorem header_agrees (htree : treeOf source = .ok tree) (hf : f ∈ tree.preorder) (hd : f.definition? source = some d)
    (hline : '\n' ∉ headerText source f) (hplain : PlainHeader source f) :
    ∃ e ∈ scanLines source, e.firstLine = d.firstLine ∧ e.name = d.name ∧ e.args = d.args := by
  obtain ⟨lead, header, behind, hsource, hstart, hnewline, hheader⟩ := hplain.exists_oneLineHeader (parse_of_treeOf htree) hf hd hline
  obtain ⟨-, -, -, -, -, hfirst, -⟩ := Tree.definition?_eq_some hd
  have hindented := hplain.indented
  have hexposed := hplain.exposed
  have hrow : f.extent.start.row = lead.count '\n' := by
    rw [hstart, Place.row_after]
    exact Nat.zero_add _
  rw [hstart] at hindented
  rw [hrow] at hfirst hexposed
  obtain ⟨c, between, hends, -⟩ := hheader.ends
  have hne : header ≠ [] := by
    rintro rfl
    cases hends
  have hlast : ∀ c ∈ header.getLast?, c ≠ '\r' := by
    -- the last character is a colon
    rintro c hc rfl
    obtain ⟨init, rfl⟩ := List.getLast?_eq_some_iff.1 hc
    have hreturn : expandTabs ['\r'] = ['\r'] := rfl
    rw [expandTabs_append, hreturn] at hends
    cases (List.append_inj' hends rfl).2
  obtain ⟨before, tail, after, hlength, hlines⟩ := exists_line hsource hne hnewline hlast
  rw [hsource, lineBefore_after] at hindented
  rw [hlines, ← hlength, List.take_left] at hexposed
  obtain ⟨e, he, hrowEq, hname, hargs⟩ := hheader.reported hlines hindented hexposed
  exact ⟨e, he, by rw [hrowEq, hfirst, hlength], hname, hargs⟩

end Agreement

namespace Sample

/-- A method whose header has parameters of most kinds. -/
def methodSource : List Char :=
  "class C:\n\tasync def f(self, /, a: int = max(1, 2), *, key='x, y', **rest) -> int:\n\t\treturn a\n".toList

end Sample

theorem header_agrees_method :
    ∃ e ∈ scanLines Sample.methodSource, e.firstLine = 2 ∧ e.name = "f".toList ∧
      e.args = ["self".toList, "a".toList, "key".toList, "rest".toList] := by
  have hfound : (match treeOf Sample.methodSource with
      | .ok tree => tree.preorder.any fun f => decide (
          (f.definition? Sample.methodSource).map (fun d => (d.firstLine, d.name, d.args)) =
            some (2, "f".toList, ["self".toList, "a".toList, "key".toList, "rest".toList]) ∧
          '\n' ∉ headerText Sample.methodSource f ∧
          (∀ c ∈ lineBefore Sample.methodSource f.extent.start, c = ' ' ∨ c = '\t') ∧
          Line.openHeader ((lines Sample.methodSource).take f.extent.start.row) = false ∧
          (f.children[1]?).map Tree.kind = some .parameters ∧
          (∀ name ∈ ((f.child? .identifier).map (·.text Sample.methodSource)).toList ++ f.parameterNames Sample.methodSource,
            Line.IsWord name) ∧
          (∀ p ∈ f.parameters, p.kind ≠ .separator → p.namingNode?.map Tree.kind = some .identifier) ∧
          (∀ p ∈ f.parameters, Line.CommaFree (tokensIn Sample.methodSource p.extent)) ∧
          (∀ t ∈ headerTokens Sample.methodSource f, t.kind ≠ .formatOpen ∧
            (t.kind = .string → Extent.text ⟨t.start, t.stop⟩ Sample.methodSource = "'x, y'".toList)) ∧
          ∀ c ∈ headerText Sample.methodSource f, isZeroWidth c = false)
      | .error _ => false) = true := by decide +kernel
  split at hfound
  · next tree htree =>
    obtain ⟨f, hf, hchecks⟩ := List.any_eq_true.1 hfound
    obtain ⟨hd, hline, hindented, hexposed, huntyped, hwords, hnamed, hcommas, hstrings, hblanks⟩ := of_decide_eq_true hchecks
    obtain ⟨d, hd, hsays⟩ := Option.map_eq_some_iff.1 hd
    obtain ⟨hfirst, hname, hargs⟩ : d.firstLine = 2 ∧ d.name = "f".toList ∧
        d.args = ["self".toList, "a".toList, "key".toList, "rest".toList] := by
      simpa only [Prod.mk.injEq] using hsays
    have hliteral : Line.IsPlain "'x, y'".toList := ⟨[], '\'', false, "x, y".toList, rfl, rfl, by decide, rfl⟩
    have hplain : PlainStrings Sample.methodSource (headerTokens Sample.methodSource f) :=
      plainStrings_of_forall fun t ht => ⟨(hstrings t ht).1, fun hkind => (hstrings t ht).2 hkind ▸ hliteral⟩
    obtain ⟨e, he, hrow, hname', hargs'⟩ := header_agrees htree hf hd hline
      ⟨hindented, hexposed, huntyped, hwords, hnamed, hcommas, hplain, hblanks⟩
    exact ⟨e, he, hrow.trans hfirst, hname'.trans hname, hargs'.trans hargs⟩
  · cases hfound

/-- The parameters of a lambda count as parameters of the function. -/
example : (scanLines "def f(key=lambda a, b: a):\n    return key\n".toList).map (·.args) =
    [["key".toList, "b".toList]] := by decide +kernel

end Consolidation.Python
