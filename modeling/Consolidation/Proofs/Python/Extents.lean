/-
# `Proofs.Python.Extents` — the lines that a scanned definition covers

The numbers of a definition that the line scanner finds are exact (`Covers`).  It starts on the line of its header, which
ends on the first line that can end one (`headerLast`); its body goes on over lines that are blank or indented deeper than
the header and ends on one with ink, or there is none; what comes next with ink is not indented deeper; and the text of
the definition is just these lines.

The headers of two definitions share no line: if the earlier header reached the line of the later one, that line would be
passed over (`Reached`, of `Proofs.Python.Headers`).

## What is proved

For every source of fewer than `2 ^ 32` lines, every policy for keywords, path and digest: the scanned definitions come in
the order of their lines, and the header of each one ends before the next one starts; the numbers of each are those of its
lines (`Covers`); and the records that are made of them have the same numbers, and keywords from just these lines.

The bound is there because a record holds a line as a number of four bytes, and larger ones are cut to the largest.

## How it goes

The scanner's numbers are those of a list of lines from some line on, so each is first told relative to the header's line
and then moved to it.  Where a body ends is an induction on the lines below the header (`IsBody.cons`); where a header
ends is the first of the lines that can end one (`headerLast_eq`).  That an earlier header does not reach a later one is
`headerLast_lt_of_not_reached`.
-/
import Mathlib.Algebra.GroupWithZero.Nat
import Consolidation.Extraction
import Consolidation.Proofs.Python.Headers
import Consolidation.Proofs.Python.LiteralLines

namespace Consolidation.Python

open Text

namespace Line

def fromTo (lines : List Line) (m n : Nat) : List Line := (lines.drop (m - 1)).take (n + 1 - m)

/-- The number of the line on which a header ends that starts on the line of a number. -/
def headerLast (lines : List Line) (number : Nat) : Nat := number + (lines.drop (number - 1)).findIdx closesHeader

/-- Are the numbers of a definition those of its lines?  `first` is the line of its header. -/
structure Covers (lines : List Line) (first : Line) (d : Definition) : Prop where
  firstLine_pos : 1 ≤ d.firstLine
  firstLine_eq : lines[d.firstLine - 1]? = some first
  header : ∃ start, headerStart? first = some start ∧ d.name = start.name
  header_closed : ∃ last, lines[headerLast lines d.firstLine - 1]? = some last ∧ closesHeader last = true
  headerLast_le : headerLast lines d.firstLine ≤ d.lastLine
  lastLine_le : d.lastLine ≤ lines.length
  body_deeper : ∀ line ∈ fromTo lines (headerLast lines d.firstLine + 1) d.lastLine, isVoid line = false →
    indentation first < indentation line
  body_last : d.lastLine = headerLast lines d.firstLine ∨
    ∃ last, lines[d.lastLine - 1]? = some last ∧ isVoid last = false
  next_not_deeper : ∀ next, (lines.drop d.lastLine).find? (fun line => !isVoid line) = some next →
    indentation next ≤ indentation first
  source_eq : d.source = joinWith ['\n'] (fromTo lines d.firstLine d.lastLine)

/-! ## Bodies -/

/-- A body ends on its last line with ink before one that is not indented deeper. -/
structure IsBody (indent : Nat) (lines : List Line) (length : Nat) : Prop where
  le : length ≤ lines.length
  deeper : ∀ line ∈ lines.take length, isVoid line = false → indent < indentation line
  last : ∀ n, length = n + 1 → ∃ last, lines[n]? = some last ∧ isVoid last = false
  next : ∀ next, (lines.drop length).find? (fun line => !isVoid line) = some next → indentation next ≤ indent

theorem isBody_zero {indent : Nat} {lines : List Line}
    (h : ∀ next, lines.find? (fun line => !isVoid line) = some next → indentation next ≤ indent) : IsBody indent lines 0 :=
  ⟨Nat.zero_le _, nofun, nofun, h⟩

/-- A body may start with a line that is indented deeper, and with a blank one if something with ink follows. -/
theorem IsBody.cons {indent length : Nat} {line : Line} {rest : List Line} (h : IsBody indent rest length)
    (hdeeper : isVoid line = false → indent < indentation line) (hink : isVoid line = false ∨ length ≠ 0) :
    IsBody indent (line :: rest) (length + 1) where
  le := Nat.succ_le_succ h.le
  deeper := List.forall_mem_cons.2 ⟨hdeeper, h.deeper⟩
  last := by
    rintro n hn
    cases n with
    | zero => exact ⟨line, rfl, hink.resolve_right fun hne => hne (Nat.succ.inj hn)⟩
    | succ n => exact h.last n (Nat.succ.inj hn)
  next := h.next

theorem isBody_bodyLength (indent : Nat) (lines : List Line) : IsBody indent lines (bodyLength indent lines) := by
  induction lines with
  | nil => exact isBody_zero nofun
  | cons line rest ih =>
    rw [bodyLength]
    cases hvoid : isVoid line with
    | true =>
      rw [if_pos rfl]
      split
      · next hzero =>
        -- from a blank line on there is no body if there is none from the next one on
        rw [hzero] at ih
        refine isBody_zero fun next hnext => ih.next next ?_
        rwa [List.find?_cons_of_neg (by simp [hvoid])] at hnext
      · next n hsucc =>
        rw [hsucc] at ih
        refine ih.cons (fun hink => ?_) (.inr (Nat.succ_ne_zero n))
        rw [hvoid] at hink
        cases hink
    | false =>
      rw [if_neg Bool.false_ne_true]
      split
      · next hle =>
        refine isBody_zero fun next hnext => ?_
        rw [List.find?_cons_of_pos (by simp [hvoid])] at hnext
        rwa [← Option.some.inj hnext]
      · next hdeeper => exact ih.cons (fun _ => Nat.not_le.1 hdeeper) (.inl hvoid)

/-! ## Headers -/

theorem exists_ink_of_headerStart? {first : Line} {start : HeaderStart} (h : headerStart? first = some start) :
    ∃ c tail, first.dropWhile (fun c => c == ' ' || c == '\t') = c :: tail ∧ isBlank c = false := by
  simp only [headerStart?, Option.bind_eq_bind, Option.bind_eq_some_iff] at h
  obtain ⟨afterDef, hdef, -⟩ := h
  generalize first.dropWhile (fun c => c == ' ' || c == '\t') = s at hdef
  cases s with
  | nil => cases hdef
  | cons c tail =>
    refine ⟨c, tail, rfl, ?_⟩
    by_contra hblank
    have hne (d : Char) (hd : isBlank d = false) : d ≠ c := by
      rintro rfl
      exact hblank hd
    have hasync : afterAsync (c :: tail) = c :: tail := by
      show ((if 'a' = c then _ else none).bind _).getD _ = _
      rw [if_neg (hne 'a' rfl)]
      rfl
    rw [hasync] at hdef
    have hnone : stripStart? "def".toList (c :: tail) = none := if_neg (hne 'd' rfl)
    rw [hnone] at hdef
    cases hdef

theorem length_encode_of_indent {s : List Char} (h : ∀ c ∈ s, (c == ' ' || c == '\t') = true) :
    (Utf8.encode s).length = s.length := by
  induction s with
  | nil => rfl
  | cons c s ih =>
    obtain ⟨hc, hs⟩ := List.forall_mem_cons.1 h
    have hone : (Utf8.encodeChar c).length = 1 := by
      rcases Bool.or_eq_true_iff.1 hc with hc | hc
      · rw [beq_iff_eq.1 hc]
        rfl
      · rw [beq_iff_eq.1 hc]
        rfl
    show (Utf8.encodeChar c ++ Utf8.encode s).length = _
    rw [List.length_append, hone, ih hs, List.length_cons, Nat.add_comm]

theorem indentation_of_headerStart? {first : Line} {start : HeaderStart} (h : headerStart? first = some start) :
    indentation first = start.indent := by
  obtain ⟨c, tail, hdrop, hc⟩ := exists_ink_of_headerStart? h
  have hindent : ∀ c ∈ first.takeWhile (fun c => c == ' ' || c == '\t'), (c == ' ' || c == '\t') = true := by
    intro c hc
    have htaken := List.mem_takeWhile_imp hc
    exact htaken
  have hblank : AllBlank (first.takeWhile (fun c => c == ' ' || c == '\t')) := by
    intro c hc
    rcases Bool.or_eq_true_iff.1 (hindent c hc) with hc | hc
    · rw [beq_iff_eq.1 hc]
      rfl
    · rw [beq_iff_eq.1 hc]
      rfl
  have hstart : start.indent = (first.takeWhile (fun c => c == ' ' || c == '\t')).length := by
    simp only [headerStart?, Option.bind_eq_bind, Option.bind_eq_some_iff] at h
    obtain ⟨_, -, _, -, _, -, _, -, heq⟩ := h
    rw [← Option.some.inj heq]
  calc indentation first
      = indentation (first.takeWhile (fun c => c == ' ' || c == '\t') ++ c :: tail) := by
        rw [← hdrop, List.takeWhile_append_dropWhile]
    _ = indentation (first.takeWhile (fun c => c == ' ' || c == '\t')) := indentation_append hblank hc tail
    _ = (Utf8.encode (first.takeWhile (fun c => c == ' ' || c == '\t'))).length := by
        rw [indentation, List.takeWhile_eq_self_iff.2 hblank]
    _ = start.indent := by rw [length_encode_of_indent hindent, hstart]

section Headers

variable {before rest : List Line} {first : Line} {start : HeaderStart} {more : Nat}

/-! ### The lines from that of a header on -/

theorem getElem?_from_header (n : Nat) : (before ++ first :: rest)[before.length + n]? = (first :: rest)[n]? := by
  rw [List.getElem?_append_right (Nat.le_add_right _ _), Nat.add_sub_cancel_left]

theorem drop_below_header (n : Nat) : (before ++ first :: rest).drop (before.length + 1 + n) = rest.drop n := by
  rw [Nat.add_assoc, Nat.add_comm 1, List.drop_length_add_append, List.drop_succ_cons]

theorem fromTo_from_header (n : Nat) :
    fromTo (before ++ first :: rest) (before.length + 1) (before.length + 1 + n) = first :: rest.take n := by
  have hcount : before.length + 1 + n + 1 - (before.length + 1) = n + 1 := by omega
  rw [fromTo, Nat.add_sub_cancel, List.drop_left, hcount, List.take_succ_cons]

theorem fromTo_below_header (n length : Nat) :
    fromTo (before ++ first :: rest) (before.length + 1 + n + 1) (before.length + 1 + n + length) =
      (rest.drop n).take length := by
  have hcount : before.length + 1 + n + length + 1 - (before.length + 1 + n + 1) = length := by omega
  rw [fromTo, Nat.add_sub_cancel, drop_below_header, hcount]

theorem headerLast_eq (h : header? first rest = some (start, more)) :
    headerLast (before ++ first :: rest) (before.length + 1) = before.length + 1 + more := by
  obtain ⟨-, hcontinuation⟩ := header?_eq_some_iff.1 h
  obtain ⟨-, ⟨last, hlast, hcloses⟩, hopen⟩ := continuation?_eq_some_iff.1 hcontinuation
  obtain ⟨hlt, rfl⟩ := List.getElem?_eq_some_iff.1 hlast
  rw [headerLast, Nat.add_sub_cancel, List.drop_left, (List.findIdx_eq hlt).2]
  exact ⟨hcloses, fun j hj => hopen j hj _ (List.getElem?_eq_getElem (Nat.lt_trans hj hlt))⟩

theorem source_definition (number length : Nat) (hlength : bodyLength start.indent (rest.drop more) = length) :
    (definition number start first rest more).source = joinWith ['\n'] (first :: rest.take (more + length)) := by
  show joinWith ['\n'] (first :: rest.take more ++ (rest.drop more).take (bodyLength start.indent (rest.drop more))) = _
  rw [hlength, List.cons_append, ← List.take_add]

theorem covers_definition (h : header? first rest = some (start, more)) :
    Covers (before ++ first :: rest) first (definition (before.length + 1) start first rest more) := by
  obtain ⟨hstart, hcontinuation⟩ := header?_eq_some_iff.1 h
  obtain ⟨-, ⟨last, hlast, hcloses⟩, -⟩ := continuation?_eq_some_iff.1 hcontinuation
  have hmore := header?_le h
  have hbody := isBody_bodyLength start.indent (rest.drop more)
  generalize hlength : bodyLength start.indent (rest.drop more) = length at hbody
  have hle := hbody.le
  rw [List.length_drop] at hle
  -- the three numbers: of the first line, of the last one of the header and of the last one
  have hfirstLine : (definition (before.length + 1) start first rest more).firstLine = before.length + 1 := rfl
  have hheaderLast : headerLast (before ++ first :: rest) (before.length + 1) = before.length + 1 + more := headerLast_eq h
  have hlastLine : (definition (before.length + 1) start first rest more).lastLine = before.length + 1 + more + length := by
    rw [← hlength]
    rfl
  constructor
  case firstLine_pos => exact Nat.succ_pos _
  case firstLine_eq => exact getElem?_from_header 0
  case header => exact ⟨start, hstart, rfl⟩
  case header_closed =>
    have hnumber : before.length + 1 + more - 1 = before.length + more := by omega
    refine ⟨last, ?_, hcloses⟩
    rw [hfirstLine, hheaderLast, hnumber, getElem?_from_header]
    exact hlast
  case headerLast_le =>
    rw [hfirstLine, hheaderLast, hlastLine]
    exact Nat.le_add_right _ _
  case lastLine_le =>
    rw [hlastLine, List.length_append, List.length_cons]
    omega
  case body_deeper =>
    rw [hfirstLine, hheaderLast, hlastLine, indentation_of_headerStart? hstart, fromTo_below_header]
    exact hbody.deeper
  case body_last =>
    rw [hfirstLine, hheaderLast, hlastLine]
    cases hn : length with
    | zero => exact .inl rfl
    | succ n =>
      obtain ⟨inked, hinked, hink⟩ := hbody.last n hn
      have hnumber : before.length + 1 + more + (n + 1) - 1 = before.length + (more + n + 1) := by omega
      refine .inr ⟨inked, ?_, hink⟩
      rw [hnumber, getElem?_from_header, List.getElem?_cons_succ, ← List.getElem?_drop]
      exact hinked
  case next_not_deeper =>
    rw [hlastLine, indentation_of_headerStart? hstart, Nat.add_assoc _ more, drop_below_header, ← List.drop_drop]
    exact hbody.next
  case source_eq =>
    rw [hfirstLine, hlastLine, Nat.add_assoc _ more, fromTo_from_header]
    exact source_definition _ length hlength

/-- The header of an earlier definition ends before the line of a later one. -/
theorem headerLast_lt_of_not_reached {lines : List Line} {before' rest' : List Line} {first' : Line}
    (h : header? first rest = some (start, more)) (hlines : lines = before ++ first :: rest)
    (hlines' : lines = before' ++ first' :: rest') (hreached : ¬Reached before' (first' :: rest'))
    (hlt : before.length < before'.length) : headerLast lines (before.length + 1) < before'.length + 1 := by
  obtain ⟨between, rfl, hrest⟩ : ∃ between, before' = before ++ first :: between ∧ rest = between ++ first' :: rest' := by
    rcases List.append_eq_append_iff.1 (hlines.symm.trans hlines') with ⟨skipped, rfl, hskipped⟩ | ⟨skipped, rfl, -⟩
    · cases skipped with
      | nil =>
        rw [List.append_nil] at hlt
        exact absurd hlt (Nat.lt_irrefl _)
      | cons line between =>
        obtain ⟨rfl, rfl⟩ := List.cons.inj hskipped
        exact ⟨between, rfl, rfl⟩
    · rw [List.length_append] at hlt
      omega
  have hmore : more ≤ between.length := by
    by_contra hmore
    exact hreached ⟨before, first, between, start, more, rfl, hrest ▸ h, Nat.not_le.1 hmore⟩
  rw [hlines, headerLast_eq h, List.length_append, List.length_cons]
  omega

end Headers

end Line

/-! ## Texts -/

open Line

section Texts

variable {source : List Char}

def scannedLines (source : List Char) : List Line := (lines source).map expandTabs

theorem exists_covers {d : Definition} (hd : d ∈ scanLines source) : ∃ first, Covers (scannedLines source) first d := by
  obtain ⟨before, first, rest, start, more, hlines, hheader, -, rfl⟩ := mem_scanLines_iff.1 hd
  rw [scannedLines, hlines]
  exact ⟨first, covers_definition hheader⟩

theorem headerLast_lt {d e : Definition} (hd : d ∈ scanLines source) (he : e ∈ scanLines source)
    (hlt : d.firstLine < e.firstLine) : headerLast (scannedLines source) d.firstLine < e.firstLine := by
  obtain ⟨before, first, rest, start, more, hlines, hheader, -, rfl⟩ := mem_scanLines_iff.1 hd
  obtain ⟨before', first', rest', start', more', hlines', -, hreached, rfl⟩ := mem_scanLines_iff.1 he
  exact headerLast_lt_of_not_reached hheader hlines hlines' hreached (Nat.lt_of_succ_lt_succ hlt)

/-- The numbers of the scanned definitions are exact, in a text of so few lines also as numbers of four bytes in the records:
each header ends before the next one starts, and a definition covers just the lines that its indentation says. -/
theorem scan_extents (h : (lines source).length < 2 ^ 32) (policy : KeywordPolicy) (filePath contentHash : String) :
    (scanLines source).Pairwise (fun d e =>
        d.firstLine < e.firstLine ∧ headerLast (scannedLines source) d.firstLine < e.firstLine) ∧
      (∀ d ∈ scanLines source, ∃ first, Covers (scannedLines source) first d) ∧
      List.Forall₂ (fun d f => f.lineNumber = d.firstLine ∧ f.endLine = d.lastLine ∧
        f.contextKeywords = policy.extract d.source) (scanLines source)
        (Extraction.scanned policy filePath contentHash source) := by
  refine ⟨?_, fun d hd => exists_covers hd, ?_⟩
  · refine (scanLines_pairwise source).imp_of_mem fun hd he hlt => ⟨hlt, headerLast_lt hd he hlt⟩
  · rw [Extraction.scanned, Extraction.recordsOf, List.forall₂_map_right_iff, List.forall₂_same]
    intro d hd
    obtain ⟨first, hcovers⟩ := exists_covers hd
    have hlast := hcovers.lastLine_le
    have hfirst := scanLines_le source d hd
    rw [scannedLines, List.length_map] at hlast
    refine ⟨Nat.min_eq_left ?_, Nat.min_eq_left ?_, rfl⟩
    · show d.firstLine ≤ 2 ^ 32 - 1
      omega
    · show d.lastLine ≤ 2 ^ 32 - 1
      omega

end Texts

namespace Sample

/-- A header of two lines in a class, one that is never closed, and one with its body behind it. -/
def layered : List Char :=
  ("class A:\n\tdef m(self,\n\t      x):\n\n\t\treturn x\n\n\ty = 2\n" ++
    "def lost(a,\n  b\n\n\ndef last(): return 1\n   \n").toList

end Sample

theorem scan_extents_layered :
    (lines Sample.layered).length < 2 ^ 32 ∧
      (scanLines Sample.layered).map (fun d => (d.firstLine, headerLast (scannedLines Sample.layered) d.firstLine, d.lastLine)) =
        [(2, 3, 5), (12, 12, 12)] ∧
      (scanLines Sample.layered).Pairwise (fun d e =>
        d.firstLine < e.firstLine ∧ headerLast (scannedLines Sample.layered) d.firstLine < e.firstLine) ∧
      ∀ d ∈ scanLines Sample.layered, ∃ first, Covers (scannedLines Sample.layered) first d := by
  have hlines : (lines Sample.layered).length < 2 ^ 32 := by decide
  obtain ⟨hpairs, hcovers, -⟩ := scan_extents hlines .off "a.py" ""
  exact ⟨hlines, by decide +kernel, hpairs, hcovers⟩

end Consolidation.Python
