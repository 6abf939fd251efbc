/-
# `Proofs.Python.Headers` — which headers the line scanner reports

A line that starts a header in time is passed over exactly if an earlier header reaches it: one that starts before and
ends on this line or behind it (`Reached`).  It does not matter whether the earlier header is reported itself: the first
of those that reach a line is (`Reached.exists_first`).  So the definitions that are found are those of the headers that
nothing reaches (`mem_scanFrom_iff`).

For a line that is a header by itself, closed on the same line, that is a matter of the three lines before it
(`openHeader`): going up from the line, does a header start before a line comes on which one ends?  If so, the line is
taken for the end of that header, and no definition is found on it (`reported_iff`).

## What is proved

For every source and every line of it that is a header by itself, that is, on which a header starts and ends: a definition
is found on this line if and only if no header is open before it; what is found there has the name on the line; and if a
header is open, there is an earlier line with a header, whose definition is found instead and goes on to this line.

## How it goes

The scanner goes on behind the last line of a header that it has found.  So a line is passed over if a header that was
found reaches it, and being found is what one would have to know of that header in turn.  `Reached` asks only whether some
header reaches the line, found or not: if one does, so does one that is found, namely the first (`Reached.exists_first`).
That makes the set of found definitions a condition on each line by itself.

Where a header ends the scanner looks at four lines at most (`continuation?_eq_findIdx?`); so to know whether a header is
open before a line it is enough to look at the three lines above it, and to stop at one on which a header ends
(`reached_iff_openHeader`).
-/
import Consolidation.Proofs.Python.LineScan
import Consolidation.Proofs.Python.Tabs

namespace Consolidation.Python

open Text

namespace Line

/-! ## The lines of one header -/

def startsHeader (line : Line) : Bool := (headerStart? line).isSome

theorem header?_eq_some_iff {first : Line} {rest : List Line} {start : HeaderStart} {more : Nat} :
    header? first rest = some (start, more) ↔
      headerStart? first = some start ∧ continuation? first rest = some more := by
  simp only [header?, Option.bind_eq_bind, Option.bind_eq_some_iff, Option.some.injEq, Prod.mk.injEq]
  constructor
  · rintro ⟨start', hstart, more', hmore, rfl, rfl⟩
    exact ⟨hstart, hmore⟩
  · rintro ⟨hstart, hmore⟩
    exact ⟨start, hstart, more, hmore, rfl, rfl⟩

/-- A header ends on the first line that closes one, its own first line included. -/
theorem continuation?_eq_findIdx? (first : Line) (rest : List Line) :
    continuation? first rest = ((first :: rest).take (maxContinuation + 1)).findIdx? closesHeader := by
  rw [continuation?, List.take_succ_cons, List.findIdx?_cons]

theorem continuation?_eq_some_iff {first : Line} {rest : List Line} {more : Nat} :
    continuation? first rest = some more ↔
      more ≤ maxContinuation ∧ (∃ last, (first :: rest)[more]? = some last ∧ closesHeader last = true) ∧
        ∀ j < more, ∀ line, (first :: rest)[j]? = some line → closesHeader line = false := by
  rw [continuation?_eq_findIdx?, List.findIdx?_eq_some_iff_getElem]
  generalize first :: rest = lines
  constructor
  · rintro ⟨hlt, hcloses, hopen⟩
    have hlt' := hlt
    rw [List.length_take] at hlt'
    refine ⟨by omega, ⟨lines[more], List.getElem?_eq_getElem (by omega), ?_⟩, ?_⟩
    · rwa [List.getElem_take] at hcloses
    · intro j hj line hline
      obtain ⟨hlength, rfl⟩ := List.getElem?_eq_some_iff.1 hline
      have hclosed := hopen j hj
      rw [List.getElem_take] at hclosed
      exact Bool.eq_false_iff.2 hclosed
  · rintro ⟨hle, ⟨last, hlast, hcloses⟩, hopen⟩
    obtain ⟨hlength, rfl⟩ := List.getElem?_eq_some_iff.1 hlast
    refine ⟨by rw [List.length_take]; omega, ?_, ?_⟩
    · rwa [List.getElem_take]
    · intro j hj
      rw [List.getElem_take, hopen j hj _ (List.getElem?_eq_getElem (by omega))]
      exact Bool.false_ne_true

variable {first opener : Line} {rest between behind : List Line} {start : HeaderStart} {more : Nat}

theorem closesHeader_of_lt (h : header? opener (between ++ behind) = some (start, more))
    (hmore : between.length < more) : ∀ line ∈ opener :: between, closesHeader line = false := by
  intro line hline
  obtain ⟨-, hcontinuation⟩ := header?_eq_some_iff.1 h
  obtain ⟨-, -, hopen⟩ := continuation?_eq_some_iff.1 hcontinuation
  obtain ⟨j, hj, heq⟩ := List.getElem_of_mem hline
  refine hopen j ?_ line ?_
  · rw [List.length_cons] at hj
    omega
  · rw [← List.cons_append, List.getElem?_append_left hj, List.getElem?_eq_getElem hj, heq]

theorem length_append_lt {further : List Line}
    (h : header? opener (between ++ (further ++ behind)) = some (start, more)) (hmore : between.length < more)
    (hfurther : ∀ line ∈ further, closesHeader line = false) : (between ++ further).length < more := by
  obtain ⟨-, hcontinuation⟩ := header?_eq_some_iff.1 h
  obtain ⟨-, ⟨last, hlast, hcloses⟩, -⟩ := continuation?_eq_some_iff.1 hcontinuation
  by_contra hle
  rw [List.length_append, Nat.not_lt] at hle
  have hmem : last ∈ further := by
    rw [← List.cons_append, List.getElem?_append_right (by rw [List.length_cons]; omega),
      List.getElem?_append_left (by rw [List.length_cons]; omega)] at hlast
    exact List.mem_of_getElem? hlast
  rw [hfurther last hmem] at hcloses
  cases hcloses

theorem exists_last (h : header? first rest = some (start, more)) :
    ∃ init last, first :: rest.take more = init ++ [last] ∧ closesHeader last = true := by
  obtain ⟨-, hcontinuation⟩ := header?_eq_some_iff.1 h
  obtain ⟨-, ⟨last, hlast, hcloses⟩, -⟩ := continuation?_eq_some_iff.1 hcontinuation
  refine ⟨(first :: rest).take more, last, ?_, hcloses⟩
  rw [← List.take_succ_cons, List.take_add_one, hlast]
  rfl

/-! ## Headers that reach further lines -/

/-- Does a header that starts on one of some lines end behind all of them? -/
def Reached (before behind : List Line) : Prop :=
  ∃ earlier opener between start more, before = earlier ++ opener :: between ∧
    header? opener (between ++ behind) = some (start, more) ∧ between.length < more

theorem not_reached_nil (behind : List Line) : ¬Reached [] behind := by
  rintro ⟨earlier, opener, between, start, more, heq, -, -⟩
  exact List.append_ne_nil_of_right_ne_nil earlier (List.cons_ne_nil opener between) heq.symm

theorem Reached.append_left {before : List Line} (h : Reached before behind) (earlier : List Line) :
    Reached (earlier ++ before) behind := by
  obtain ⟨earlier', opener, between, start, more, rfl, hheader, hmore⟩ := h
  exact ⟨earlier ++ earlier', opener, between, start, more, (List.append_assoc ..).symm, hheader, hmore⟩

/-- What reaches a line does so from behind the last line on which a header ends. -/
theorem Reached.of_append_closed {init before : List Line} {last : Line} (hlast : closesHeader last = true)
    (h : Reached (init ++ [last] ++ before) behind) : Reached before behind := by
  obtain ⟨earlier, opener, between, start, more, heq, hheader, hmore⟩ := h
  rcases List.append_eq_append_iff.1 heq with ⟨skipped, -, hbefore⟩ | ⟨own, hown, hrest⟩
  · exact ⟨skipped, opener, between, start, more, hbefore, hheader, hmore⟩
  · rcases List.eq_nil_or_concat own with rfl | ⟨own', line, rfl⟩
    · exact ⟨[], opener, between, start, more, hrest.symm, hheader, hmore⟩
    · -- a header that starts this early would have to go on behind `last`
      rw [List.concat_eq_append] at hown hrest
      rw [← List.append_assoc] at hown
      have hline : last = line := List.singleton_inj.1 (List.append_inj' hown rfl).2
      have hmem : last ∈ opener :: between := by
        rw [hrest, hline]
        exact List.mem_append_left _ (List.mem_append_right _ (List.mem_singleton_self line))
      rw [closesHeader_of_lt hheader hmore last hmem] at hlast
      cases hlast

theorem reached_cons_of_none {before : List Line} (h : header? first (before ++ behind) = none) :
    Reached (first :: before) behind ↔ Reached before behind := by
  constructor
  · rintro ⟨earlier, opener, between, start, more, hbefore, hopener, hmore⟩
    cases earlier with
    | nil =>
      obtain ⟨rfl, rfl⟩ := List.cons.inj hbefore
      rw [h] at hopener
      cases hopener
    | cons line earlier =>
      obtain ⟨-, rfl⟩ := List.cons.inj hbefore
      exact ⟨earlier, opener, between, start, more, rfl, hopener, hmore⟩
  · intro h
    exact h.append_left [first]

theorem reached_cons_of_some {before : List Line} (h : header? first (before ++ behind) = some (start, more)) :
    Reached (first :: before) behind ↔ before.length < more ∨ Reached (before.drop more) behind := by
  constructor
  · intro hreached
    by_cases hmore : before.length < more
    · exact .inl hmore
    · obtain ⟨init, last, hinit, hlast⟩ := exists_last h
      rw [List.take_append_of_le_length (Nat.not_lt.1 hmore)] at hinit
      have hsplit : first :: before = init ++ [last] ++ before.drop more := by
        rw [← hinit, List.cons_append, List.take_append_drop]
      rw [hsplit] at hreached
      exact .inr (hreached.of_append_closed hlast)
  · rintro (hmore | hreached)
    · exact ⟨[], first, before, start, more, rfl, h, hmore⟩
    · have hleft := hreached.append_left (first :: before.take more)
      rwa [List.cons_append, List.take_append_drop] at hleft

/-- The first of the headers that reach a line is reached by none. -/
theorem Reached.exists_first {before : List Line} (h : Reached before behind) :
    ∃ earlier opener between start more, before = earlier ++ opener :: between ∧
      header? opener (between ++ behind) = some (start, more) ∧ between.length < more ∧
      ¬Reached earlier (opener :: (between ++ behind)) := by
  obtain ⟨earlier, opener, between, start, more, rfl, hheader, hmore⟩ := h
  induction hlength : earlier.length using Nat.strong_induction_on generalizing earlier opener between start more with
  | _ n ih =>
    by_cases hreached : Reached earlier (opener :: (between ++ behind))
    · obtain ⟨earlier', opener', between', start', more', rfl, hheader', hmore'⟩ := hreached
      rw [← List.cons_append] at hheader'
      have hfar := length_append_lt hheader' hmore' (closesHeader_of_lt hheader hmore)
      rw [← List.append_assoc] at hheader'
      have hassoc : earlier' ++ opener' :: between' ++ opener :: between =
          earlier' ++ opener' :: (between' ++ opener :: between) := by
        rw [List.append_assoc, List.cons_append]
      rw [hassoc]
      refine ih earlier'.length ?_ earlier' opener' _ start' more' hheader' hfar rfl
      rw [← hlength, List.length_append, List.length_cons]
      omega
    · exact ⟨earlier, opener, between, start, more, rfl, hheader, hmore, hreached⟩

/-! ## The scan -/

/-- The definitions that are found are those of the headers that no other one reaches. -/
theorem mem_scanFrom_iff {number : Nat} {lines : List Line} {d : Definition} :
    d ∈ scanFrom number lines ↔
      ∃ before first rest start more, lines = before ++ first :: rest ∧
        header? first rest = some (start, more) ∧ ¬Reached before (first :: rest) ∧
        d = definition (number + before.length) start first rest more := by
  induction number, lines using scanFrom.induct with
  | case1 number =>
    rw [scanFrom]
    constructor
    · intro h
      cases h
    · rintro ⟨before, first, rest, start, more, hlines, -⟩
      cases List.append_ne_nil_of_right_ne_nil before (List.cons_ne_nil first rest) hlines.symm
  | case2 number line lines start more hheader ih =>
    rw [scanFrom, hheader, List.mem_cons, ih]
    constructor
    · rintro (rfl | ⟨before, first, rest, start', more', hlines, hfirst, hreached, rfl⟩)
      · exact ⟨[], line, lines, start, more, rfl, hheader, not_reached_nil _, rfl⟩
      · have hlength : (lines.take more).length = more := List.length_take_of_le (header?_le hheader)
        have hsplit : lines = lines.take more ++ before ++ first :: rest := by
          rw [List.append_assoc, ← hlines, List.take_append_drop]
        refine ⟨line :: (lines.take more ++ before), first, rest, start', more', ?_, hfirst, ?_, ?_⟩
        · rw [List.cons_append, ← hsplit]
        · rw [hsplit] at hheader
          rw [reached_cons_of_some hheader, List.length_append, List.drop_left' hlength, hlength]
          rintro (hmore | hleft)
          · omega
          · exact hreached hleft
        · congr 1
          rw [List.length_cons, List.length_append, hlength]
          omega
    · rintro ⟨before, first, rest, start', more', hlines, hfirst, hreached, rfl⟩
      cases before with
      | nil =>
        cases hlines
        rw [hheader] at hfirst
        cases hfirst
        exact .inl rfl
      | cons line' before =>
        obtain ⟨rfl, rfl⟩ := List.cons.inj hlines
        rw [reached_cons_of_some hheader, not_or, Nat.not_lt] at hreached
        obtain ⟨hmore, hreached⟩ := hreached
        refine .inr ⟨before.drop more, first, rest, start', more', List.drop_append_of_le_length hmore, hfirst,
          hreached, ?_⟩
        congr 1
        rw [List.length_drop, List.length_cons]
        omega
  | case3 number line lines hheader ih =>
    rw [scanFrom, hheader, ih]
    constructor
    · rintro ⟨before, first, rest, start, more, rfl, hfirst, hreached, rfl⟩
      rw [← reached_cons_of_none hheader] at hreached
      refine ⟨line :: before, first, rest, start, more, rfl, hfirst, hreached, ?_⟩
      congr 1
      rw [List.length_cons]
      omega
    · rintro ⟨before, first, rest, start, more, hlines, hfirst, hreached, rfl⟩
      cases before with
      | nil =>
        cases hlines
        rw [hheader] at hfirst
        cases hfirst
      | cons line' before =>
        obtain ⟨rfl, rfl⟩ := List.cons.inj hlines
        rw [reached_cons_of_none hheader] at hreached
        refine ⟨before, first, rest, start, more, rfl, hfirst, hreached, ?_⟩
        congr 1
        rw [List.length_cons]
        omega

/-! ## Headers on one line -/

/-- Going up from a line, does a header start before a line comes on which one ends?  Only so many lines are looked at. -/
def openHeader (before : List Line) : Bool :=
  ((before.reverse.take maxContinuation).takeWhile (fun line => !closesHeader line)).any startsHeader

theorem any_takeWhile_take_iff {p q : Line → Bool} {lines : List Line} {n : Nat} :
    ((lines.take n).takeWhile p).any q = true ↔
      ∃ near line far, lines = near ++ line :: far ∧ near.length < n ∧ q line = true ∧
        ∀ l ∈ line :: near, p l = true := by
  induction lines generalizing n with
  | nil => simp
  | cons a lines ih =>
    cases n with
    | zero => simp
    | succ n =>
      rw [List.take_succ_cons, List.takeWhile_cons]
      constructor
      · intro h
        split at h
        · next ha =>
          rw [List.any_cons, Bool.or_eq_true, ih] at h
          rcases h with hqa | ⟨near, line, far, rfl, hlength, hq, hp⟩
          · exact ⟨[], a, lines, rfl, Nat.zero_lt_succ n, hqa, List.forall_mem_singleton.2 ha⟩
          · refine ⟨a :: near, line, far, rfl, Nat.succ_lt_succ hlength, hq, ?_⟩
            obtain ⟨hline, hnear⟩ := List.forall_mem_cons.1 hp
            exact List.forall_mem_cons.2 ⟨hline, List.forall_mem_cons.2 ⟨ha, hnear⟩⟩
        · cases h
      · rintro ⟨near, line, far, hlines, hlength, hq, hp⟩
        cases near with
        | nil =>
          obtain ⟨rfl, rfl⟩ := List.cons.inj hlines
          rw [if_pos (hp a List.mem_cons_self), List.any_cons, hq]
          rfl
        | cons b near =>
          obtain ⟨rfl, rfl⟩ := List.cons.inj hlines
          obtain ⟨hline, hnear⟩ := List.forall_mem_cons.1 hp
          obtain ⟨ha, hnear⟩ := List.forall_mem_cons.1 hnear
          rw [if_pos ha, List.any_cons, Bool.or_eq_true, ih]
          exact .inr ⟨near, line, far, rfl, Nat.lt_of_succ_lt_succ hlength, hq,
            List.forall_mem_cons.2 ⟨hline, hnear⟩⟩

theorem openHeader_iff {before : List Line} :
    openHeader before = true ↔
      ∃ earlier opener between, before = earlier ++ opener :: between ∧ between.length < maxContinuation ∧
        startsHeader opener = true ∧ ∀ line ∈ opener :: between, closesHeader line = false := by
  rw [openHeader, any_takeWhile_take_iff]
  constructor
  · rintro ⟨near, opener, far, hbefore, hlength, hopener, hopen⟩
    refine ⟨far.reverse, opener, near.reverse, ?_, by rwa [List.length_reverse], hopener, ?_⟩
    · rw [← List.reverse_reverse before, hbefore, List.reverse_append, List.reverse_cons, List.append_assoc]
      rfl
    · intro line hline
      rw [List.mem_cons, List.mem_reverse] at hline
      exact Bool.not_eq_true' _ ▸ hopen line (List.mem_cons.2 hline)
  · rintro ⟨earlier, opener, between, rfl, hlength, hopener, hopen⟩
    refine ⟨between.reverse, opener, earlier.reverse, ?_, by rwa [List.length_reverse], hopener, ?_⟩
    · rw [List.reverse_append, List.reverse_cons, List.append_assoc]
      rfl
    · intro line hline
      rw [List.mem_cons, List.mem_reverse] at hline
      rw [hopen line (List.mem_cons.2 hline)]
      rfl

theorem header?_of_closes {opener line : Line} {between : List Line} {start : HeaderStart}
    (hopener : headerStart? opener = some start) (hlength : between.length < maxContinuation)
    (hopen : ∀ l ∈ opener :: between, closesHeader l = false) (hline : closesHeader line = true)
    (after : List Line) :
    header? opener (between ++ line :: after) = some (start, between.length + 1) := by
  refine header?_eq_some_iff.2 ⟨hopener, continuation?_eq_some_iff.2 ⟨hlength, ⟨line, ?_, hline⟩, ?_⟩⟩
  · rw [List.getElem?_cons_succ, List.getElem?_append_right (Nat.le_refl _), Nat.sub_self]
    rfl
  · intro j hj l hl
    rw [← List.cons_append, List.getElem?_append_left (by rwa [List.length_cons])] at hl
    exact hopen l (List.mem_of_getElem? hl)

/-- A line on which a header ends is reached exactly if a header is open before it. -/
theorem reached_iff_openHeader {line : Line} (hline : closesHeader line = true) (before after : List Line) :
    Reached before (line :: after) ↔ openHeader before = true := by
  rw [openHeader_iff]
  constructor
  · rintro ⟨earlier, opener, between, start, more, rfl, hheader, hmore⟩
    obtain ⟨hstart, hcontinuation⟩ := header?_eq_some_iff.1 hheader
    have hmax := (continuation?_eq_some_iff.1 hcontinuation).1
    refine ⟨earlier, opener, between, rfl, Nat.lt_of_lt_of_le hmore hmax, ?_, closesHeader_of_lt hheader hmore⟩
    rw [startsHeader, hstart]
    rfl
  · rintro ⟨earlier, opener, between, rfl, hlength, hopener, hopen⟩
    obtain ⟨start, hstart⟩ := Option.isSome_iff_exists.1 hopener
    exact ⟨earlier, opener, between, start, _, rfl, header?_of_closes hstart hlength hopen hline after,
      Nat.lt_succ_self _⟩

theorem startsHeader_expandTabs (line : Line) : startsHeader (expandTabs line) = startsHeader line := by
  have hname := congrArg Option.isSome (headerStart?_expandTabs line)
  rwa [Option.isSome_map, Option.isSome_map] at hname

theorem openHeader_map_expandTabs (before : List Line) :
    openHeader (before.map expandTabs) = openHeader before := by
  have hstarts : startsHeader ∘ expandTabs = startsHeader := funext startsHeader_expandTabs
  have hcloses : (fun line => !closesHeader line) ∘ expandTabs = fun line => !closesHeader line :=
    funext fun line => congrArg not (closesHeader_expandTabs line)
  rw [openHeader, openHeader, ← List.map_reverse, ← List.map_take, List.takeWhile_map, List.any_map, hstarts,
    hcloses]

end Line

/-! ## Texts -/

open Line

section Texts

variable {source : List Char} {before after : List Line} {line : Line}

theorem mem_scanLines_iff {d : Definition} :
    d ∈ scanLines source ↔
      ∃ before first rest start more, (lines source).map expandTabs = before ++ first :: rest ∧
        header? first rest = some (start, more) ∧ ¬Reached before (first :: rest) ∧
        d = definition (before.length + 1) start first rest more := by
  simp only [scanLines, mem_scanFrom_iff, Nat.add_comm 1]

theorem exists_header_of_firstLine {d : Definition} (hlines : lines source = before ++ line :: after)
    (hd : d ∈ scanLines source) (hfirst : d.firstLine = before.length + 1) :
    ∃ start more, header? (expandTabs line) (after.map expandTabs) = some (start, more) ∧
      ¬Reached (before.map expandTabs) (expandTabs line :: after.map expandTabs) ∧ d.name = start.name := by
  obtain ⟨before', first, rest, start, more, hlines', hheader, hreached, rfl⟩ := mem_scanLines_iff.1 hd
  rw [hlines, List.map_append, List.map_cons] at hlines'
  have hlength : (before.map expandTabs).length = before'.length := by
    rw [List.length_map]
    exact (Nat.succ.inj hfirst).symm
  obtain ⟨rfl, hrest⟩ := List.append_inj hlines' hlength
  obtain ⟨rfl, rfl⟩ := List.cons.inj hrest
  exact ⟨start, more, hheader, hreached, rfl⟩

/-- On a line that is a header by itself a definition is found exactly if no header is open before it. -/
theorem exists_firstLine_iff (hlines : lines source = before ++ line :: after)
    (hstart : startsHeader line = true) (hcloses : closesHeader line = true) :
    (∃ d ∈ scanLines source, d.firstLine = before.length + 1) ↔ openHeader before = false := by
  have hcloses' : closesHeader (expandTabs line) = true := by rwa [closesHeader_expandTabs]
  have hreached : Reached (before.map expandTabs) (expandTabs line :: after.map expandTabs) ↔
      openHeader before = true := by
    rw [reached_iff_openHeader hcloses', openHeader_map_expandTabs]
  rw [← Bool.not_eq_true, ← hreached]
  constructor
  · rintro ⟨d, hd, hfirst⟩
    obtain ⟨start, more, -, hnot, -⟩ := exists_header_of_firstLine hlines hd hfirst
    exact hnot
  · intro hnot
    rw [← startsHeader_expandTabs] at hstart
    obtain ⟨start, hstart⟩ := Option.isSome_iff_exists.1 hstart
    have hheader : header? (expandTabs line) (after.map expandTabs) = some (start, 0) := by
      refine header?_eq_some_iff.2 ⟨hstart, ?_⟩
      rw [continuation?, if_pos hcloses']
    refine ⟨_, mem_scanLines_iff.2 ⟨before.map expandTabs, _, _, start, 0, ?_, hheader, hnot, rfl⟩, ?_⟩
    · rw [hlines, List.map_append, List.map_cons]
    · exact congrArg (· + 1) (List.length_map ..)

/-- A line that is a header by itself gives a definition of its own, with its name, exactly if no header is open before
it.  Otherwise it is the last line of a header that is, and the definition of that one is found instead. -/
theorem reported_iff (hlines : lines source = before ++ line :: after)
    (hstart : startsHeader line = true) (hcloses : closesHeader line = true) :
    ((∃ d ∈ scanLines source, d.firstLine = before.length + 1) ↔ openHeader before = false) ∧
      (∀ d ∈ scanLines source, d.firstLine = before.length + 1 →
        some d.name = (headerStart? line).map (·.name)) ∧
      (openHeader before = true →
        ∃ earlier opener between start, before = earlier ++ opener :: between ∧
          headerStart? (expandTabs opener) = some start ∧
          definition (earlier.length + 1) start (expandTabs opener) ((between ++ line :: after).map expandTabs)
            (between.length + 1) ∈ scanLines source) := by
  refine ⟨exists_firstLine_iff hlines hstart hcloses, ?_, ?_⟩
  · intro d hd hfirst
    obtain ⟨start, more, hheader, -, hname⟩ := exists_header_of_firstLine hlines hd hfirst
    rw [← headerStart?_expandTabs, (header?_eq_some_iff.1 hheader).1, hname]
    rfl
  · intro hopen
    have hcloses' : closesHeader (expandTabs line) = true := by rwa [closesHeader_expandTabs]
    rw [← openHeader_map_expandTabs, ← reached_iff_openHeader hcloses' _ (after.map expandTabs)] at hopen
    obtain ⟨earlier', opener', between', start, more, hbefore, hheader, hmore, hfirst⟩ := hopen.exists_first
    obtain ⟨earlier, rest, rfl, rfl, hrest⟩ := List.map_eq_append_iff.1 hbefore
    obtain ⟨opener, between, rfl, rfl, rfl⟩ := List.map_eq_cons_iff.1 hrest
    obtain ⟨hopener, hcontinuation⟩ := header?_eq_some_iff.1 hheader
    have hlength := Nat.lt_of_lt_of_le hmore (continuation?_eq_some_iff.1 hcontinuation).1
    have hlast := header?_of_closes hopener hlength (closesHeader_of_lt hheader hmore) hcloses'
      (after.map expandTabs)
    refine ⟨earlier, opener, between, start, rfl, hopener, ?_⟩
    rw [List.length_map] at hlast
    refine mem_scanLines_iff.2 ⟨earlier.map expandTabs, expandTabs opener, _, start, _, ?_, hlast, hfirst, ?_⟩
    · rw [hlines, List.map_append, List.map_append, List.map_cons, List.map_cons, List.append_assoc,
        List.cons_append]
    · rw [List.map_append, List.map_cons, List.length_map]

end Texts

/-- A header that does not end on the three lines behind it hides nothing. -/
theorem reported_iff_behind_lost :
    ∃ before after, lines "def lost(a,\n  b,  # ):\n\tc,\n  d\n\tdef ok(x):\n".toList =
        before ++ "\tdef ok(x):".toList :: after ∧
      startsHeader "\tdef ok(x):".toList = true ∧ closesHeader "\tdef ok(x):".toList = true ∧
      ∃ d ∈ scanLines "def lost(a,\n  b,  # ):\n\tc,\n  d\n\tdef ok(x):\n".toList, d.firstLine = 5 := by
  have hlines : lines "def lost(a,\n  b,  # ):\n\tc,\n  d\n\tdef ok(x):\n".toList =
      ["def lost(a,".toList, "  b,  # ):".toList, "\tc,".toList, "  d".toList] ++ "\tdef ok(x):".toList :: [] := by
    decide
  have hstart : startsHeader "\tdef ok(x):".toList = true := by decide +kernel
  have hcloses : closesHeader "\tdef ok(x):".toList = true := by decide
  exact ⟨_, _, hlines, hstart, hcloses, (reported_iff hlines hstart hcloses).1.2 (by decide)⟩

/-- The line with `ok` is a header by itself, but is taken for the end of the header before it. -/
theorem open_header_hides :
    ¬∀ (source : List Char) (before after : List Line) (line : Line), lines source = before ++ line :: after →
      startsHeader line = true → closesHeader line = true →
      ∃ d ∈ scanLines source, d.firstLine = before.length + 1 := by
  intro h
  have hlines : lines "def broken(a,\ndef ok(x):\n    return x\n".toList =
      ["def broken(a,".toList] ++ "def ok(x):".toList :: ["    return x".toList] := by decide
  have hstart : startsHeader "def ok(x):".toList = true := by decide +kernel
  have hcloses : closesHeader "def ok(x):".toList = true := by decide
  have hopen : openHeader ["def broken(a,".toList] = true := by decide +kernel
  rw [(exists_firstLine_iff hlines hstart hcloses).1 (h _ _ _ _ hlines hstart hcloses)] at hopen
  cases hopen

end Consolidation.Python
