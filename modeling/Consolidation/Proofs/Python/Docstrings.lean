/-
# `Proofs.Python.Docstrings` — a docstring in the tree and below its header

The tree of a source has the text of a docstring as it stands between its quotes; the line scanner puts it together from
lines that it trims, with four spaces for a tab.  `Documented` is a source cut at a header and at a string literal below
it, and `Documented.IsPlain` says what the scanner needs: it sees the header whole on its line, only blanks stand above
the literal and around it on its lines, and the closing quotes stand on no line of it but the last.  Then the scanner's
docstring is that of the tree with its lines trimmed (`Documented.docstring_agrees`), and so the same if it is on one line
and has no tabs.

On the tree's side the docstring is that of the first string of the body (`Tree.docstring_eq_of_leadingString?`), on the
scanner's side that of the lines behind the header (`docstring?_literal`).

## What is proved

For every source that is cut at a header and at a string literal below it in a way that suits the scanner
(`Documented.IsPlain`), and every definition of its syntax tree that starts with this header and whose body starts with
this literal: the scanner finds a definition on its line, and each that it finds there has the docstring of the tree with
its lines trimmed and spaces for tabs.  If the literal is on one line and has no tab in it, the docstrings are the same.

## What it leaves out

A comment behind the closing quotes, a literal that starts behind the colon of its header, and several literals on one
line are not plain: the scanner goes by lines and the tree by tokens.  Nor can trimming be left out: at the end the second
line of a docstring loses its indentation (`Documented.docstring_loses_indentation`).
-/
import Consolidation.Proofs.Python.Agreement
import Consolidation.Proofs.Python.LiteralLines

namespace Consolidation.Python

open Text Line

/-! ## Strings in the tree -/

/-- The string literal that the body of a function starts with. -/
def Tree.leadingString? (f : Tree) : Option Tree := do
  let block ← f.child? .block
  let statement ← block.children.head?
  let literal ← statement.children.head?
  if statement.kind == .expressionStatement && literal.kind == .string then some literal else none

/-- The docstring in the tree is the text of that literal. -/
theorem Tree.docstring_eq_of_leadingString? {source : List Char} {f literal : Tree} {d : Definition}
    (hd : f.definition? source = some d) (hliteral : f.leadingString? = some literal) :
    d.docstring = literalText? (literal.text source) := by
  obtain ⟨-, -, -, -, -, -, hdocstring⟩ := Tree.definition?_eq_some hd
  obtain ⟨block, hblock, hliteral⟩ := Option.bind_eq_some_iff.1 hliteral
  obtain ⟨statement, hstatement, hliteral⟩ := Option.bind_eq_some_iff.1 hliteral
  obtain ⟨node, hnode, hliteral⟩ := Option.bind_eq_some_iff.1 hliteral
  split at hliteral
  · next hkinds =>
    cases hliteral
    rw [Bool.and_eq_true, beq_iff_eq, beq_iff_eq] at hkinds
    simp only [hdocstring, hblock, Option.bind_some, Tree.docstring?, Option.bind_eq_bind, hstatement, hnode, hkinds.1,
      hkinds.2, bne_self_eq_false, Bool.false_eq_true, if_false]
  · cases hliteral

/-! ## Documented functions -/

/-- A source, cut at a header on one line and at a string literal below it. -/
structure Documented where
  above : List Char
  header : List Char
  /-- The lines between the header and the literal. -/
  gap : List Char
  indent : List Char
  quotes : List Char
  inner : List Char
  tail : List Char
  behind : List Char

namespace Documented

variable (l : Documented)

def headerLine : Line := expandTabs (withoutReturn l.header)

def literal : List Char := l.quotes ++ (l.inner ++ l.quotes)

def before : List Char := l.above ++ (l.header ++ '\n' :: (l.gap ++ l.indent))

def text : List Char := l.before ++ (l.literal ++ (l.tail ++ l.behind))

theorem text_eq :
    l.text = l.above ++ (l.header ++ '\n' :: (l.gap ++ (l.indent ++ (l.literal ++ (l.tail ++ l.behind))))) := by
  simp only [text, before, List.append_assoc, List.cons_append]

/-- The scanner sees the header up to its end, and nothing but blanks between it and the literal and around the literal. -/
structure IsPlain : Prop where
  above : EndsLine l.above
  header : '\n' ∉ l.header
  /-- No header is open before this one. -/
  exposed : openHeader (lines l.above) = false
  starts : startsHeader l.headerLine = true
  closes : closesHeader l.headerLine = true
  /-- Behind the first place where the header can end there is nothing but a comment. -/
  ends : hasInlineBody l.headerLine = false
  gapBlank : AllBlank l.gap
  gapEnds : EndsLine l.gap
  indentBlank : AllBlank l.indent
  indentLine : '\n' ∉ l.indent
  /-- The literal is indented more than the header, with four spaces for a tab. -/
  deeper : ∀ start ∈ headerStart? l.headerLine, start.indent < indentation (expandTabs l.indent)
  enclosed : Encloses l.quotes l.inner
  tail : EndsWithBlanks l.tail l.behind

/-- A function starts on the line with the header, and its body with the literal. -/
structure Cuts (f : Tree) : Prop where
  low : l.above.length ≤ f.extent.start.offset
  high : f.extent.start.offset ≤ (l.above ++ l.header).length
  literal : f.leadingString?.map (fun t => (t.extent.start.offset, t.extent.stop.offset)) =
    some (l.before.length, (l.before ++ l.literal).length)

variable {l : Documented} {tree f : Tree} {d : Definition}

theorem IsPlain.lines_text (h : l.IsPlain) :
    lines l.text = lines l.above ++ withoutReturn l.header ::
      lines (l.gap ++ (l.indent ++ (l.literal ++ (l.tail ++ l.behind)))) := by
  rw [text_eq, (lines_append h.above _).1, lines_of_line h.header]

theorem IsPlain.scanned (h : l.IsPlain) {e : Definition} (he : e ∈ scanLines l.text)
    (hfirst : e.firstLine = (lines l.above).length + 1) : e.docstring = (enclosedText? l.inner).map trimmedLines := by
  obtain ⟨start, more, hheader, -, rfl⟩ := exists_definition_of_firstLine h.lines_text he hfirst
  obtain ⟨hstart, hmore⟩ := header?_eq_some_iff.1 hheader
  have hcloses : closesHeader (expandTabs (withoutReturn l.header)) = true := h.closes
  rw [continuation?, if_pos hcloses] at hmore
  cases hmore
  have hinline : hasInlineBody (expandTabs (withoutReturn l.header)) = false := h.ends
  have hdocstring : (definition ((lines l.above).length + 1) start (expandTabs (withoutReturn l.header))
      ((lines (l.gap ++ (l.indent ++ (l.literal ++ (l.tail ++ l.behind))))).map expandTabs) 0).docstring =
        if hasInlineBody (expandTabs (withoutReturn l.header)) then none else docstring? start.indent
          ((lines (l.gap ++ (l.indent ++ (l.literal ++ (l.tail ++ l.behind))))).map expandTabs) := rfl
  rw [hdocstring, hinline, if_neg Bool.false_ne_true, docstring?_gap h.gapBlank h.gapEnds]
  exact docstring?_literal ⟨h.indentBlank, h.indentLine, h.deeper start hstart, h.tail⟩ h.enclosed

theorem IsPlain.parsed (h : l.IsPlain) (hcuts : l.Cuts f) (hd : f.definition? l.text = some d) :
    d.docstring = enclosedText? l.inner := by
  obtain ⟨literal, hleading, hplace⟩ := Option.map_eq_some_iff.1 hcuts.literal
  obtain ⟨hstart, hstop⟩ := Prod.mk.inj hplace
  have htext : literal.text l.text = l.literal := by
    rw [Tree.text, Extent.text, hstart, hstop, List.length_append, Nat.add_sub_cancel_left, text, List.drop_left,
      List.take_left]
  rw [Tree.docstring_eq_of_leadingString? hd hleading, htext, Documented.literal, h.enclosed.literalText?_eq]

theorem IsPlain.row (h : l.IsPlain) (hcuts : l.Cuts f) (hparse : parse l.text = .ok tree) (hf : f ∈ tree.preorder)
    (hkind : f.kind = .functionDefinition) : f.extent.start.row = (lines l.above).length := by
  obtain ⟨lead, rest, hsource, -, hstart⟩ := exists_lead hparse hf hkind
  have hlow := hcuts.low
  have hhigh := hcuts.high
  rw [hstart, Place.offset_after, Place.start, Nat.zero_add] at hlow hhigh
  rw [List.length_append] at hhigh
  have hlead : lead = l.above ++ l.header.take (lead.length - l.above.length) := by
    have htake : (lead ++ rest).take lead.length = lead := List.take_left
    rw [← hsource, text_eq, List.take_append, List.take_of_length_le hlow, List.take_append_of_le_length (by omega)] at htake
    exact htake.symm
  have hnone : '\n' ∉ l.header.take (lead.length - l.above.length) := fun hin => h.header (List.mem_of_mem_take hin)
  rw [hstart, Place.row_after, hlead, List.count_append, List.count_eq_zero.2 hnone, (lines_append h.above []).2]
  exact Nat.zero_add _

/-- The docstring of a function whose body starts with a literal below its header is found by the scanner as well, with its
lines trimmed. -/
theorem docstring_agrees (hplain : l.IsPlain) (htree : treeOf l.text = .ok tree) (hf : f ∈ tree.preorder)
    (hd : f.definition? l.text = some d) (hcuts : l.Cuts f) :
    (∃ e ∈ scanLines l.text, e.firstLine = d.firstLine) ∧
      ∀ e ∈ scanLines l.text, e.firstLine = d.firstLine →
        e.docstring = d.docstring.map trimmedLines ∧
          ('\n' ∉ l.inner → '\t' ∉ l.inner → e.docstring = d.docstring) := by
  obtain ⟨hkind, -, -, -, -, hfirst, -⟩ := Tree.definition?_eq_some hd
  have hrow := hplain.row hcuts (parse_of_treeOf htree) hf hkind
  have hparsed := hplain.parsed hcuts hd
  rw [hrow] at hfirst
  refine ⟨?_, fun e he hefirst => ?_⟩
  · have hstarts := hplain.starts
    have hcloses := hplain.closes
    rw [headerLine, startsHeader_expandTabs] at hstarts
    rw [headerLine, closesHeader_expandTabs] at hcloses
    rw [hfirst]
    exact (exists_firstLine_iff hplain.lines_text hstarts hcloses).2 hplain.exposed
  · have hscanned := hplain.scanned he (hefirst.trans hfirst)
    rw [← hparsed] at hscanned
    refine ⟨hscanned, fun hline htab => ?_⟩
    rw [hscanned, hparsed, enclosedText?_map_trimmedLines hline htab]

namespace Sample

/-- A docstring on two lines, the second one indented. -/
def twoLines : Documented where
  above := []
  header := "def f():".toList
  gap := []
  indent := "    ".toList
  quotes := ['"', '"', '"']
  inner := "a\n      b".toList
  tail := []
  behind := "\n    return 1\n".toList

theorem isPlain_twoLines : twoLines.IsPlain where
  above := fun c hc => by cases hc
  header := by decide
  exposed := by decide
  starts := by decide +kernel
  closes := by decide
  ends := by decide
  gapBlank := List.forall_mem_nil _
  gapEnds := fun c hc => by cases hc
  indentBlank := by decide
  indentLine := by decide
  deeper := by decide +kernel
  enclosed := .triple rfl (by decide)
  tail := ⟨List.forall_mem_nil _, by decide, fun _ hc => (Option.some.inj hc).symm⟩

theorem exists_twoLines :
    ∃ tree f d, treeOf twoLines.text = .ok tree ∧ tree.definitions twoLines.text = [d] ∧ f ∈ tree.preorder ∧
      f.definition? twoLines.text = some d ∧ twoLines.Cuts f ∧ d.firstLine = 1 ∧
        d.docstring = some "a\n      b".toList := by
  have hfound : (match treeOf twoLines.text with
      | .ok tree => tree.preorder.any fun f => decide (
          (f.definition? twoLines.text).map (fun d => (d.firstLine, d.docstring)) = some (1, some "a\n      b".toList) ∧
          tree.definitions twoLines.text = (f.definition? twoLines.text).toList ∧
          twoLines.above.length ≤ f.extent.start.offset ∧
          f.extent.start.offset ≤ (twoLines.above ++ twoLines.header).length ∧
          f.leadingString?.map (fun t => (t.extent.start.offset, t.extent.stop.offset)) =
            some (twoLines.before.length, (twoLines.before ++ twoLines.literal).length))
      | .error _ => false) = true := by decide +kernel
  split at hfound
  · next tree htree =>
    obtain ⟨f, hf, hchecks⟩ := List.any_eq_true.1 hfound
    obtain ⟨hd, hdefinitions, hlow, hhigh, hliteral⟩ := of_decide_eq_true hchecks
    obtain ⟨d, hd, hsays⟩ := Option.map_eq_some_iff.1 hd
    obtain ⟨hfirst, hdocstring⟩ := Prod.mk.inj hsays
    rw [hd] at hdefinitions
    exact ⟨tree, f, d, htree, hdefinitions, hf, hd, ⟨hlow, hhigh, hliteral⟩, hfirst, hdocstring⟩
  · cases hfound

end Sample

theorem docstring_agrees_twoLines :
    ∃ (tree : Tree) (d e : Definition), treeOf Sample.twoLines.text = .ok tree ∧ tree.definitions Sample.twoLines.text = [d] ∧
      d.docstring = some "a\n      b".toList ∧ e ∈ scanLines Sample.twoLines.text ∧ e.firstLine = d.firstLine ∧
        e.docstring = some "a\nb".toList := by
  obtain ⟨tree, f, d, htree, hdefinitions, hf, hd, hcuts, -, hdocstring⟩ := Sample.exists_twoLines
  obtain ⟨⟨e, he, hfirst⟩, hagrees⟩ := docstring_agrees Sample.isPlain_twoLines htree hf hd hcuts
  have htrimmed : trimmedLines "a\n      b".toList = "a\nb".toList := by decide
  refine ⟨tree, d, e, htree, hdefinitions, hdocstring, he, hfirst, ?_⟩
  rw [(hagrees e he hfirst).1, hdocstring, Option.map_some, htrimmed]

/-- The docstrings themselves differ. -/
theorem docstring_loses_indentation :
    ¬∀ (l : Documented) (tree f : Tree) (d e : Definition), l.IsPlain → treeOf l.text = .ok tree →
      tree.definitions l.text = [d] → f ∈ tree.preorder → f.definition? l.text = some d → l.Cuts f →
        e ∈ scanLines l.text → e.firstLine = d.firstLine → e.docstring = d.docstring := by
  intro h
  obtain ⟨tree, f, d, htree, hdefinitions, hf, hd, hcuts, hfirst, hdocstring⟩ := Sample.exists_twoLines
  have hscan : ∃ e ∈ scanLines Sample.twoLines.text, e.firstLine = 1 ∧ e.docstring = some "a\nb".toList := by decide +kernel
  obtain ⟨e, he, hefirst, hedocstring⟩ := hscan
  have heq := h Sample.twoLines tree f d e Sample.isPlain_twoLines htree hdefinitions hf hd hcuts he (hefirst.trans hfirst.symm)
  rw [hedocstring, hdocstring] at heq
  revert heq
  decide

end Documented

end Consolidation.Python
