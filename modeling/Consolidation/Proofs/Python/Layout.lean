/-
# `Proofs.Python.Layout` — headers broken over several lines

A header on one line may be broken behind commas, indented anew and given comments (`BrokenHeader`).  The line scanner
joins the lines again, and but for blanks behind commas it gets the header on one line back (`Continued.respaced`), so the
parameters are the same.

There are two conditions.  What stands before a break has to be code for the scanner, that is, the quotes in it have to
match when backslashes are ignored (`IsCode`).  And no line before the last one may look like the end of the header, as
one does that ends a group of brackets right before a colon: the scanner does not count brackets there, takes the header
to end on the first line that looks so, and does not see the parameters behind it (`broken_header_reported`).

## What is proved

For every source with a definition that is found on a line which holds its whole header, and every source that differs
from it in that this header is broken over lines as `BrokenHeader` says, if the last of these lines can end a header: a
definition is found on the first of them, with the same name.  Its parameters are those of the lines up to the first one
that looks like the end of a header; and if only the last one does, they are those of the header on one line.

## How it goes

Joining the broken lines gives a text that differs from the one line in its blanks (`Continued.respaced`), and the
parameters do not depend on these (`Proofs.Python.Respacing`).  For each part of a line there are two readings to be
compared, that of the part alone and that within the line; what stands before the break is code, so the rest of the line
is read as if it stood alone (`IsCode.codeLength_append`).  The name stands on the first line in either case
(`BrokenHeader.exists_start`).
-/
import Mathlib.Data.List.DropRight
import Consolidation.Proofs.Python.Headers
import Consolidation.Proofs.Python.Respacing
import Consolidation.Proofs.Text.Lines

namespace Consolidation.Python

open Text

namespace Line

/-! ## Code -/

/-- Does a text have no comment in it, and no quote that is not closed? -/
def IsCode (s : Line) : Prop := codeLength s.length s = s.length

instance (s : Line) : Decidable (IsCode s) := inferInstanceAs (Decidable (codeLength s.length s = s.length))

section Code

variable {s t : Line}

theorem codeLength_of_le {m n : Nat} (hm : s.length ≤ m) (hn : s.length ≤ n) : codeLength m s = codeLength n s := by
  induction m generalizing n s with
  | zero =>
    obtain rfl := List.length_eq_zero_iff.1 (Nat.le_zero.1 hm)
    rw [codeLength_nil, codeLength_nil]
  | succ m ih =>
    cases s with
    | nil => rw [codeLength_nil, codeLength_nil]
    | cons c s =>
      obtain ⟨n, rfl⟩ : ∃ k, n = k + 1 := ⟨n - 1, by rw [List.length_cons] at hn; omega⟩
      have hm' := Nat.le_of_succ_le_succ hm
      have hn' := Nat.le_of_succ_le_succ hn
      by_cases hhash : c = '#'
      · subst hhash
        rw [codeLength_hash, codeLength_hash]
      · cases hquote : isQuote c with
        | false => rw [codeLength_plain hhash hquote, codeLength_plain hhash hquote, ih hm' hn']
        | true =>
          cases hafter : afterQuote? c s with
          | none => rw [codeLength_open hquote hafter, codeLength_open hquote hafter]
          | some rest =>
            have hlength := length_lt_of_afterQuote? hafter
            have hrest : codeLength m rest = codeLength n rest := ih (by omega) (by omega)
            rw [codeLength_literal hquote hafter, codeLength_literal hquote hafter, hrest]

theorem afterQuote?_append_right {quote : Char} {rest : Line} (h : afterQuote? quote s = some rest) (t : Line) :
    afterQuote? quote (s ++ t) = some (rest ++ t) := by
  induction s with
  | nil => cases h
  | cons c s ih =>
    rw [afterQuote?] at h
    rw [List.cons_append, afterQuote?]
    split at h
    · next hc =>
      cases h
      rw [if_pos hc]
    · next hc => rw [if_neg hc, ih h]

/-- Behind code the rest of a line is read as if it stood alone. -/
theorem IsCode.codeLength_append (h : IsCode s) {n : Nat} (hn : (s ++ t).length ≤ n) :
    codeLength n (s ++ t) = s.length + codeLength n t := by
  induction hlength : s.length using Nat.strong_induction_on generalizing s n with
  | _ k ih =>
    subst hlength
    cases s with
    | nil => rw [List.nil_append, List.length_nil, Nat.zero_add]
    | cons c s =>
      obtain ⟨n, rfl⟩ : ∃ k, n = k + 1 :=
        ⟨n - 1, by rw [List.cons_append, List.length_cons] at hn; omega⟩
      rw [List.cons_append, List.length_cons] at hn
      have hn' := Nat.le_of_succ_le_succ hn
      have ht : codeLength (n + 1) t = codeLength n t := by
        rw [List.length_append] at hn'
        exact codeLength_of_le (by omega) (by omega)
      rw [IsCode, List.length_cons] at h
      rw [List.cons_append, List.length_cons, ht]
      by_cases hhash : c = '#'
      · subst hhash
        cases h
      · cases hquote : isQuote c with
        | false =>
          rw [codeLength_plain hhash hquote] at h
          have hs : IsCode s := by
            rw [IsCode]
            omega
          rw [codeLength_plain hhash hquote, ih s.length (Nat.lt_succ_self _) hs hn' rfl]
          omega
        | true =>
          cases hafter : afterQuote? c s with
          | none =>
            rw [codeLength_open hquote hafter] at h
            cases h
          | some rest =>
            have hlength := length_lt_of_afterQuote? hafter
            rw [codeLength_literal hquote hafter] at h
            have hrest : IsCode rest := by
              have hfuel : codeLength s.length rest = codeLength rest.length rest :=
                codeLength_of_le (Nat.le_of_lt hlength) (Nat.le_refl _)
              rw [IsCode]
              omega
            have hn'' : (rest ++ t).length ≤ n := by
              rw [List.length_append] at hn' ⊢
              omega
            rw [codeLength_literal hquote (afterQuote?_append_right hafter t),
              ih rest.length (Nat.lt_succ_of_lt hlength) hrest hn'' rfl, List.length_append, List.length_append]
            omega

theorem IsCode.append (hs : IsCode s) (ht : IsCode t) : IsCode (s ++ t) := by
  have hfuel : codeLength (s ++ t).length t = codeLength t.length t :=
    codeLength_of_le (by rw [List.length_append]; omega) (Nat.le_refl _)
  rw [IsCode, hs.codeLength_append (Nat.le_refl _), hfuel, ht, List.length_append]

theorem isCode_singleton {c : Char} (hhash : c ≠ '#') (hquote : isQuote c = false) : IsCode [c] := by
  rw [IsCode, List.length_singleton, codeLength_plain hhash hquote, codeLength_nil]

theorem isCode_of_allBlank (h : AllBlank s) : IsCode s := by
  induction s with
  | nil => rfl
  | cons c s ih =>
    obtain ⟨hc, hs⟩ := List.forall_mem_cons.1 h
    have hhash : c ≠ '#' := by
      rintro rfl
      cases hc
    exact (isCode_singleton hhash (isQuote_of_blank hc)).append (ih hs)

theorem IsCode.withoutComment_append (h : IsCode s) (t : Line) :
    withoutComment (s ++ t) = s ++ withoutComment t := by
  have hfuel : codeLength (s ++ t).length t = codeLength t.length t :=
    codeLength_of_le (by rw [List.length_append]; omega) (Nat.le_refl _)
  simp only [withoutComment, h.codeLength_append (Nat.le_refl _), hfuel, List.drop_length_add_append,
    List.take_length_add_append]
  split <;> rfl

theorem IsCode.expandTabs (h : IsCode s) : IsCode (expandTabs s) := by
  rw [IsCode, codeLength_expandTabs (Nat.le_refl _) (Nat.le_refl _), h, List.take_length]

/-- What may stand behind a comma at the end of a line: blanks, and perhaps a comment. -/
def IsTail (s : Line) : Prop := ∃ gap, AllBlank gap ∧ (s = gap ∨ ∃ comment, s = gap ++ '#' :: comment)

theorem IsTail.withoutComment (h : IsTail s) : AllBlank (withoutComment s) := by
  obtain ⟨gap, hgap, rfl | ⟨comment, rfl⟩⟩ := h
  · have hempty := (isCode_of_allBlank hgap).withoutComment_append []
    rw [List.append_nil] at hempty
    rw [hempty]
    simpa [Line.withoutComment] using hgap
  · have hcomment : Line.withoutComment ('#' :: comment) = [] := rfl
    rw [(isCode_of_allBlank hgap).withoutComment_append, hcomment, List.append_nil]
    exact hgap

end Code

/-! ## Trimming -/

section Trim

variable {s : List Char}

theorem trimEnd_append_cons {c : Char} (hc : isBlank c = false) (a s : List Char) :
    trimEnd (a ++ c :: s) = a ++ c :: trimEnd s := by
  have hstop : (c :: a.reverse).dropWhile isBlank = c :: a.reverse :=
    List.dropWhile_cons_of_neg (by rw [hc]; exact Bool.false_ne_true)
  rw [trimEnd, trimEnd, dropEndWhile, dropEndWhile, List.reverse_append, List.reverse_cons, List.append_assoc,
    List.singleton_append, List.dropWhile_append, hstop]
  split
  · next hempty =>
    rw [List.isEmpty_iff] at hempty
    rw [hempty, List.reverse_cons, List.reverse_reverse]
    rfl
  · rw [List.reverse_append, List.reverse_cons, List.reverse_reverse, List.append_assoc]
    rfl

theorem trimEnd_of_allBlank (h : AllBlank s) : trimEnd s = [] := by
  have hall : s.reverse.dropWhile isBlank = [] :=
    List.dropWhile_eq_nil_iff.2 fun c hc => h c (List.mem_reverse.1 hc)
  rw [trimEnd, dropEndWhile, hall, List.reverse_nil]

theorem takeWhile_allBlank (s : List Char) : AllBlank (s.takeWhile isBlank) :=
  fun _ hc => List.mem_takeWhile_imp hc

theorem blanks_append_trimStart (s : List Char) : s.takeWhile isBlank ++ trimStart s = s :=
  List.takeWhile_append_dropWhile

theorem trim_append_blanks {v : List Char} (hv : AllBlank v) (s : List Char) : trim (v ++ s) = trim s := by
  rw [trim, trim, trimStart_append_blanks hv]

theorem trimStart_cons_of_ink {c : Char} (hc : isBlank c = false) (s : List Char) : trimStart (c :: s) = c :: s :=
  List.dropWhile_cons_of_neg (by rw [hc]; exact Bool.false_ne_true)

theorem trimStart_append_cons {c : Char} (hc : isBlank c = false) (a s : List Char) :
    trimStart (a ++ c :: s) = trimStart a ++ c :: s := by
  rw [trimStart, List.dropWhile_append]
  split
  · next hempty =>
    rw [List.isEmpty_iff] at hempty
    rw [trimStart, hempty]
    exact trimStart_cons_of_ink hc s
  · rfl

theorem exists_trimEnd_eq (s : List Char) : ∃ v, AllBlank v ∧ trimEnd s = v ++ trim s := by
  rw [trim]
  cases htrim : trimStart s with
  | nil =>
    have hall : AllBlank s := by
      rw [← blanks_append_trimStart s, htrim, List.append_nil]
      exact takeWhile_allBlank s
    exact ⟨[], List.forall_mem_nil _, trimEnd_of_allBlank hall⟩
  | cons c rest =>
    have hc : isBlank c = false := not_blank_of_trimStart (by rw [htrim]; rfl)
    have hrest := trimEnd_append_cons hc [] rest
    rw [List.nil_append, List.nil_append] at hrest
    refine ⟨s.takeWhile isBlank, takeWhile_allBlank s, ?_⟩
    rw [hrest, ← trimEnd_append_cons hc, ← htrim, blanks_append_trimStart]

end Trim

/-! ## Broken headers -/

/-- A text that goes on over lines, broken behind commas. -/
inductive Continued : Line → List Line → Prop
  | last {gap pad : Line} (hgap : AllBlank gap) (hpad : AllBlank pad) (text : Line) :
      Continued (gap ++ text) [pad ++ text]
  | cut {gap pad part tail rest : Line} {lines : List Line} (hgap : AllBlank gap) (hpad : AllBlank pad)
      (hpart : IsCode part) (htail : IsTail tail) (hrest : Continued rest lines) :
      Continued (gap ++ (part ++ ',' :: rest)) ((pad ++ (part ++ ',' :: tail)) :: lines)

/-- A header on one line, and the lines that it becomes when it is broken behind commas: up to four of them, with any
indentation, and with comments behind the commas. -/
inductive BrokenHeader : Line → List Line → Prop
  | intro {part tail rest : Line} {lines : List Line} (hpart : IsCode part)
      (hstart : startsHeader part = true) (htail : IsTail tail) (hrest : Continued rest lines)
      (hlength : lines.length ≤ maxContinuation) :
      BrokenHeader (part ++ ',' :: rest) ((part ++ ',' :: tail) :: lines)

def headerText (header : List Line) : Line := joinWith [' '] (header.map (fun line => trim (withoutComment line)))

theorem headerText_cons_cons (first second : Line) (more : List Line) :
    headerText (first :: second :: more) = trim (withoutComment first) ++ ' ' :: headerText (second :: more) := by
  rw [headerText, List.map_cons, List.map_cons, joinWith]
  · rw [List.append_assoc]
    rfl
  · exact List.cons_ne_nil _ _

theorem Continued.ne_nil {rest : Line} {lines : List Line} (h : Continued rest lines) :
    ∃ second more, lines = second :: more := by
  cases h with
  | last => exact ⟨_, [], rfl⟩
  | cut => exact ⟨_, _, rfl⟩

theorem isCode_comma : IsCode [','] := isCode_singleton (by decide) rfl

theorem withoutComment_part {part : Line} (h : IsCode part) (rest : Line) :
    withoutComment (part ++ ',' :: rest) = part ++ ',' :: withoutComment rest := by
  have hcomma : withoutComment ([','] ++ rest) = [','] ++ withoutComment rest := isCode_comma.withoutComment_append rest
  rw [h.withoutComment_append, ← List.singleton_append, hcomma]
  rfl

theorem trim_part {part tail : Line} (hpart : IsCode part) (htail : IsTail tail) :
    trim (withoutComment (part ++ ',' :: tail)) = trimStart part ++ [','] := by
  have hcomma : isBlank ',' = false := rfl
  rw [withoutComment_part hpart, trim, trimStart_append_cons hcomma, trimEnd_append_cons hcomma,
    trimEnd_of_allBlank htail.withoutComment]

theorem Continued.respaced {rest : Line} {lines : List Line} (h : Continued rest lines) :
    Respaced (',' :: trimEnd (withoutComment rest)) (',' :: ' ' :: headerText lines) := by
  have hspace : AllBlank [' '] := fun c hc => by
    obtain rfl := List.mem_singleton.1 hc
    rfl
  induction h with
  | last hgap hpad text =>
    obtain ⟨v, hv, htrim⟩ := exists_trimEnd_eq (withoutComment (_ ++ text))
    rw [htrim, (isCode_of_allBlank hgap).withoutComment_append, trim_append_blanks hgap, headerText, List.map_singleton,
      (isCode_of_allBlank hpad).withoutComment_append, trim_append_blanks hpad]
    exact .comma hv hspace (.refl _)
  | @cut gap pad part tail rest lines hgap hpad hpart htail hrest ih =>
    obtain ⟨second, more, rfl⟩ := hrest.ne_nil
    have hcomma : isBlank ',' = false := rfl
    have hleft : trimEnd (withoutComment (gap ++ (part ++ ',' :: rest))) =
        (gap ++ part.takeWhile isBlank) ++ (trimStart part ++ ',' :: trimEnd (withoutComment rest)) := by
      rw [(isCode_of_allBlank hgap).withoutComment_append, withoutComment_part hpart, ← List.append_assoc,
        trimEnd_append_cons hcomma, List.append_assoc, List.append_assoc, ← List.append_assoc (part.takeWhile isBlank),
        blanks_append_trimStart]
    have hright : headerText ((pad ++ (part ++ ',' :: tail)) :: second :: more) =
        trimStart part ++ ',' :: ' ' :: headerText (second :: more) := by
      rw [headerText_cons_cons, (isCode_of_allBlank hpad).withoutComment_append, trim_append_blanks hpad,
        trim_part hpart htail, List.append_assoc]
      rfl
    have hblank : AllBlank (gap ++ part.takeWhile isBlank) := fun c hc =>
      (List.mem_append.1 hc).elim (hgap c) (takeWhile_allBlank part c)
    rw [hleft, hright]
    exact .comma hblank hspace (ih.append_left _)

theorem not_indented {p : Line} (hp : p.dropWhile isBlank = p) (s : Line) :
    (p ++ ',' :: s).dropWhile (fun c => c == ' ' || c == '\t') = p ++ ',' :: s := by
  cases p with
  | nil => rfl
  | cons c p =>
    have hc : isBlank c = false := not_blank_of_trimStart (s := c :: p) (by rw [trimStart, hp]; rfl)
    refine List.dropWhile_cons_of_neg ?_
    rw [Bool.or_eq_true, beq_iff_eq, beq_iff_eq]
    rintro (rfl | rfl)
    · cases hc
    · cases hc

/-- A header has the same parameters on one line as on several. -/
theorem BrokenHeader.parameterNames_eq {line : Line} {broken : List Line} (h : BrokenHeader line broken) :
    parameterNames (headerText broken) = parameterNames (headerText [line]) := by
  obtain ⟨hpart, -, htail, hrest, -⟩ := h
  next part tail rest lines =>
  obtain ⟨second, more, rfl⟩ := hrest.ne_nil
  have hcomma : isBlank ',' = false := rfl
  have hone : headerText [part ++ ',' :: rest] = trimStart part ++ ',' :: trimEnd (withoutComment rest) := by
    rw [headerText, List.map_singleton, withoutComment_part hpart, joinWith, trim, trimStart_append_cons hcomma,
      trimEnd_append_cons hcomma]
  have hmany : headerText ((part ++ ',' :: tail) :: second :: more) =
      trimStart part ++ ',' :: ' ' :: headerText (second :: more) := by
    rw [headerText_cons_cons, trim_part hpart htail, List.append_assoc]
    rfl
  have hp : (trimStart part).dropWhile isBlank = trimStart part :=
    List.dropWhile_idempotent isBlank part
  rw [hone, hmany]
  exact (parameterNames_respaced (hrest.respaced.append_left _) (not_indented hp _) (not_indented hp _)).symm

/-! ## The start of a header -/

section Start

variable {s rest : List Char}

theorem dropWhile_append_of_ne_nil {p : Char → Bool} (h : s.dropWhile p ≠ []) (t : List Char) :
    (s ++ t).dropWhile p = s.dropWhile p ++ t ∧ (s ++ t).takeWhile p = s.takeWhile p := by
  have hsplit := List.takeWhile_append_dropWhile (p := p) (l := s)
  have hempty : ¬(s.dropWhile p).isEmpty = true := by rwa [List.isEmpty_iff]
  have hdrop : (s ++ t).dropWhile p = s.dropWhile p ++ t := by rw [List.dropWhile_append, if_neg hempty]
  refine ⟨hdrop, ?_⟩
  have hwhole := List.takeWhile_append_dropWhile (p := p) (l := s ++ t)
  have heq : (s ++ t).takeWhile p ++ (s.dropWhile p ++ t) = s.takeWhile p ++ (s.dropWhile p ++ t) := by
    rw [← hdrop, hwhole, hdrop, ← List.append_assoc, hsplit]
  exact List.append_cancel_right heq

theorem stripStart?_append {p : List Char} (h : stripStart? p s = some rest) (t : List Char) :
    stripStart? p (s ++ t) = some (rest ++ t) := by
  rw [stripStart?_eq_some_iff] at h ⊢
  rw [h, List.append_assoc]

theorem ne_nil_of_stripStart? {p : List Char} (hp : p ≠ []) (h : stripStart? p s = some rest) : s ≠ [] := by
  rw [stripStart?_eq_some_iff.1 h]
  exact List.append_ne_nil_of_left_ne_nil hp rest

theorem dropBlanks?_append (h : dropBlanks? s = some rest) (hne : rest ≠ []) (t : List Char) :
    dropBlanks? (s ++ t) = some (rest ++ t) := by
  cases s with
  | nil => cases h
  | cons c s =>
    rw [dropBlanks?_cons] at h
    rw [List.cons_append, dropBlanks?_cons]
    split at h
    · next hc =>
      cases h
      rw [if_pos hc, ← List.cons_append]
      exact congrArg some (dropWhile_append_of_ne_nil hne t).1
    · cases h

theorem leadingName?_append {name : List Char} (h : leadingName? s = some (name, rest)) (hne : rest ≠ [])
    (t : List Char) : leadingName? (s ++ t) = some (name, rest ++ t) := by
  cases s with
  | nil => cases h
  | cons c s =>
    rw [leadingName?_cons] at h
    rw [List.cons_append, leadingName?_cons]
    split at h
    · next hc =>
      obtain ⟨rfl, rfl⟩ := Prod.mk.inj (Option.some.inj h)
      obtain ⟨hdrop, htake⟩ := dropWhile_append_of_ne_nil hne t
      rw [List.cons_append] at hdrop htake
      rw [if_pos hc, hdrop, htake]
    · cases h

theorem afterAsync_append (h : stripStart? "def".toList (afterAsync s) = some rest) (t : List Char) :
    afterAsync (s ++ t) = afterAsync s ++ t := by
  have hdef : "def".toList ≠ [] := by decide
  rw [afterAsync] at h
  cases hasync : stripStart? "async".toList s with
  | none =>
    rw [hasync] at h
    have hd : ∃ tail, s = 'd' :: tail := by
      cases s with
      | nil => cases h
      | cons c s =>
        rw [Option.bind_none, Option.getD_none] at h
        by_cases hc : c = 'd'
        · exact ⟨s, by rw [hc]⟩
        · have hnone : stripStart? "def".toList (c :: s) = none := if_neg (Ne.symm hc)
          rw [hnone] at h
          cases h
    obtain ⟨tail, rfl⟩ := hd
    rfl
  | some after =>
    rw [hasync, Option.bind_some] at h
    cases hblanks : dropBlanks? after with
    | none =>
      -- a text that starts with `async` does not start with `def`
      rw [hblanks, Option.getD_none] at h
      cases s with
      | nil => cases hasync
      | cons c s =>
        by_cases hc : c = 'd'
        · subst hc
          cases hasync
        · have hnone : stripStart? "def".toList (c :: s) = none := if_neg (Ne.symm hc)
          rw [hnone] at h
          cases h
    | some front =>
      rw [hblanks, Option.getD_some] at h
      have hne := ne_nil_of_stripStart? hdef h
      rw [afterAsync, afterAsync, stripStart?_append hasync, hasync, Option.bind_some, Option.bind_some, hblanks,
        dropBlanks?_append hblanks hne]
      rfl

theorem headerStart?_append {part : Line} {start : HeaderStart} (h : headerStart? part = some start) (t : Line) :
    headerStart? (part ++ t) = some { start with rest := start.rest ++ t } := by
  have hdef : "def".toList ≠ [] := by decide
  have hbracket : ['('] ≠ [] := by decide
  simp only [headerStart?_eq, Option.bind_eq_some_iff] at h
  obtain ⟨afterDef, hafter, front, hfront, ⟨name, behind⟩, hname, rest, hrest, hstart⟩ := h
  cases hstart
  have hbehind : trimStart behind ≠ [] := ne_nil_of_stripStart? hbracket hrest
  have hbehind' : behind ≠ [] := by
    rintro rfl
    exact hbehind rfl
  have hfront' : front ≠ [] := by
    rintro rfl
    cases hname
  have hdefs := ne_nil_of_stripStart? hdef hafter
  have hbody : part.dropWhile (fun c => c == ' ' || c == '\t') ≠ [] := by
    intro hnil
    rw [hnil] at hafter
    cases hafter
  obtain ⟨hdrop, htake⟩ := dropWhile_append_of_ne_nil hbody t
  rw [headerStart?_eq, hdrop, htake, afterAsync_append hafter, stripStart?_append hafter, Option.bind_some,
    dropBlanks?_append hfront hfront', Option.bind_some, leadingName?_append hname hbehind', Option.bind_some]
  have htrim : trimStart (behind ++ t) = trimStart behind ++ t := (dropWhile_append_of_ne_nil hbehind t).1
  simp only [htrim, stripStart?_append hrest, Option.bind_some]

end Start

/-! ## Tabs -/

theorem allBlank_expandTabs {s : List Char} (h : AllBlank s) : AllBlank (expandTabs s) := by
  intro c hc
  obtain ⟨d, hd, hc⟩ := List.mem_flatMap.1 hc
  split at hc
  · simp only [List.mem_cons, List.not_mem_nil, or_false, or_self] at hc
    subst hc
    rfl
  · obtain rfl := List.mem_singleton.1 hc
    exact h c hd

theorem IsTail.expandTabs {s : Line} (h : IsTail s) : IsTail (expandTabs s) := by
  obtain ⟨gap, hgap, rfl | ⟨comment, rfl⟩⟩ := h
  · exact ⟨_, allBlank_expandTabs hgap, .inl rfl⟩
  · refine ⟨_, allBlank_expandTabs hgap, .inr ⟨Line.expandTabs comment, ?_⟩⟩
    rw [expandTabs_append, expandTabs_cons_of_ne (by decide)]

theorem expandTabs_part (part rest : Line) :
    expandTabs (part ++ ',' :: rest) = expandTabs part ++ ',' :: expandTabs rest := by
  rw [expandTabs_append, expandTabs_cons_of_ne (by decide)]

theorem Continued.expandTabs {rest : Line} {lines : List Line} (h : Continued rest lines) :
    Continued (expandTabs rest) (lines.map expandTabs) := by
  induction h with
  | last hgap hpad text =>
    rw [expandTabs_append, List.map_singleton, expandTabs_append]
    exact .last (allBlank_expandTabs hgap) (allBlank_expandTabs hpad) _
  | cut hgap hpad hpart htail hrest ih =>
    rw [expandTabs_append, expandTabs_part, List.map_cons, expandTabs_append, expandTabs_part]
    exact .cut (allBlank_expandTabs hgap) (allBlank_expandTabs hpad) hpart.expandTabs htail.expandTabs ih

theorem BrokenHeader.expandTabs {line : Line} {broken : List Line} (h : BrokenHeader line broken) :
    BrokenHeader (expandTabs line) (broken.map expandTabs) := by
  obtain ⟨hpart, hstart, htail, hrest, hlength⟩ := h
  rw [expandTabs_part, List.map_cons, expandTabs_part]
  exact .intro hpart.expandTabs (by rwa [startsHeader_expandTabs]) htail.expandTabs hrest.expandTabs
    (by rwa [List.length_map])

theorem BrokenHeader.exists_start {line : Line} {broken : List Line} (h : BrokenHeader line broken) :
    ∃ first more start start', broken = first :: more ∧ more.length ≤ maxContinuation ∧
      headerStart? line = some start ∧ headerStart? first = some start' ∧ start'.name = start.name := by
  obtain ⟨hpart, hstart, htail, hrest, hlength⟩ := h
  obtain ⟨start, hstart⟩ := Option.isSome_iff_exists.1 hstart
  exact ⟨_, _, _, _, rfl, hlength, headerStart?_append hstart _, headerStart?_append hstart _, rfl⟩

end Line

/-! ## Texts -/

open Line

section Texts

variable {source source' : List Char} {before after : List Line} {line : Line}

theorem exists_definition_of_firstLine {d : Definition} (hlines : lines source = before ++ line :: after)
    (hd : d ∈ scanLines source) (hfirst : d.firstLine = before.length + 1) :
    ∃ start more, header? (expandTabs line) (after.map expandTabs) = some (start, more) ∧
      ¬Reached (before.map expandTabs) (expandTabs line :: after.map expandTabs) ∧
      d = definition (before.length + 1) start (expandTabs line) (after.map expandTabs) more := by
  obtain ⟨before', first, rest, start, more, hlines', hheader, hreached, rfl⟩ := mem_scanLines_iff.1 hd
  rw [hlines, List.map_append, List.map_cons] at hlines'
  have hlength : (before.map expandTabs).length = before'.length := by
    rw [List.length_map]
    exact (Nat.succ.inj hfirst).symm
  obtain ⟨rfl, hrest⟩ := List.append_inj hlines' hlength
  obtain ⟨rfl, rfl⟩ := List.cons.inj hrest
  refine ⟨start, more, hheader, hreached, ?_⟩
  rw [List.length_map]

/-- Do some lines make up a header, in that a header ends on the last of them and not before? -/
def EndsHeader (header : List Line) : Prop :=
  ∃ init last, header = init ++ [last] ∧ closesHeader last = true ∧ ∀ l ∈ init, closesHeader l = false

theorem exists_endsHeader {lines : List Line} (h : ∃ l ∈ lines, closesHeader l = true) :
    ∃ header behind, lines = header ++ behind ∧ EndsHeader header := by
  induction lines with
  | nil =>
    obtain ⟨l, hl, -⟩ := h
    cases hl
  | cons first lines ih =>
    cases hfirst : closesHeader first with
    | true => exact ⟨[first], lines, rfl, [], first, rfl, hfirst, List.forall_mem_nil _⟩
    | false =>
      obtain ⟨l, hl, hcloses⟩ := h
      rcases List.mem_cons.1 hl with rfl | hl
      · rw [hfirst] at hcloses
        cases hcloses
      · obtain ⟨header, behind, rfl, init, last, rfl, hlast, hinit⟩ := ih ⟨l, hl, hcloses⟩
        exact ⟨first :: (init ++ [last]), behind, rfl, first :: init, last, rfl, hlast,
          List.forall_mem_cons.2 ⟨hfirst, hinit⟩⟩

theorem EndsHeader.map_expandTabs {header : List Line} (h : EndsHeader header) :
    EndsHeader (header.map expandTabs) := by
  obtain ⟨init, last, rfl, hlast, hinit⟩ := h
  refine ⟨init.map expandTabs, expandTabs last, ?_, ?_, ?_⟩
  · rw [List.map_append, List.map_singleton]
  · rwa [closesHeader_expandTabs]
  · intro l' hl'
    obtain ⟨l, hl, rfl⟩ := List.mem_map.1 hl'
    rw [closesHeader_expandTabs]
    exact hinit l hl

theorem continuation?_of_endsHeader {first : Line} {header : List Line} (h : EndsHeader (first :: header))
    (hlength : header.length ≤ maxContinuation) (after : List Line) :
    continuation? first (header ++ after) = some header.length := by
  obtain ⟨init, last, hsplit, hlast, hinit⟩ := h
  have hcount : header.length = init.length := by
    have hlengths := congrArg List.length hsplit
    rw [List.length_cons, List.length_append, List.length_singleton] at hlengths
    exact Nat.succ.inj hlengths
  have hlines : first :: (header ++ after) = init ++ last :: after := by
    rw [← List.cons_append, hsplit, List.append_assoc]
    rfl
  refine continuation?_eq_some_iff.2 ⟨hlength, ⟨last, ?_, hlast⟩, fun j hj l hl => hinit l ?_⟩
  · rw [hlines, hcount, List.getElem?_append_right (Nat.le_refl _), Nat.sub_self]
    rfl
  · rw [hcount] at hj
    rw [hlines, List.getElem?_append_left hj] at hl
    exact List.mem_of_getElem? hl

theorem openHeader_of_reached {before behind : List Line} (h : Reached before behind) :
    openHeader before = true := by
  obtain ⟨earlier, opener, between, start, more, rfl, hheader, hmore⟩ := h
  obtain ⟨hstart, hcontinuation⟩ := header?_eq_some_iff.1 hheader
  have hmax := (continuation?_eq_some_iff.1 hcontinuation).1
  refine openHeader_iff.2 ⟨earlier, opener, between, rfl, Nat.lt_of_lt_of_le hmore hmax, ?_,
    closesHeader_of_lt hheader hmore⟩
  rw [startsHeader, hstart]
  rfl

/-- A header on one line that is broken over several is found on the same line with the same name.  Its parameters are
those on the lines up to the first one on which a header seems to end.  So they are the same if that is the last of its
lines. -/
theorem broken_header_reported {broken : List Line} {d : Definition} (hlines : lines source = before ++ line :: after)
    (hlines' : lines source' = before ++ (broken ++ after)) (hbroken : BrokenHeader line broken)
    (hone : closesHeader line = true) (hlast : ∃ last, broken.getLast? = some last ∧ closesHeader last = true)
    (hd : d ∈ scanLines source) (hfirst : d.firstLine = before.length + 1) :
    ∃ e ∈ scanLines source', e.firstLine = d.firstLine ∧ e.name = d.name ∧
      (∃ header behind, broken = header ++ behind ∧ EndsHeader header ∧
        e.args = parameterNames (headerText (header.map expandTabs))) ∧
      ((∀ l ∈ broken.dropLast, closesHeader l = false) → e.args = d.args) := by
  -- the header on one line
  obtain ⟨start, more, hheader, hreached, rfl⟩ := exists_definition_of_firstLine hlines hd hfirst
  obtain ⟨hstart, hcontinuation⟩ := header?_eq_some_iff.1 hheader
  have hone' : closesHeader (expandTabs line) = true := by rwa [closesHeader_expandTabs]
  rw [continuation?, if_pos hone'] at hcontinuation
  cases hcontinuation
  rw [reached_iff_openHeader hone'] at hreached
  -- the lines of the broken header
  obtain ⟨last, hgetLast, hcloses⟩ := hlast
  obtain ⟨header, behind, rfl, hends⟩ := exists_endsHeader ⟨last, List.mem_of_getLast? hgetLast, hcloses⟩
  obtain ⟨first, rest, lineStart, firstStart, hsplit, hlength, hlineStart, hfirstStart, hname⟩ :=
    hbroken.exists_start
  obtain ⟨first', header, rfl⟩ : ∃ first' header', header = first' :: header' := by
    obtain ⟨init, last, rfl, -, -⟩ := hends
    exact List.exists_cons_of_ne_nil (List.append_ne_nil_of_right_ne_nil init (List.cons_ne_nil last []))
  rw [List.cons_append] at hsplit
  obtain ⟨rfl, rfl⟩ := List.cons.inj hsplit
  have hcount : (header.map expandTabs).length ≤ maxContinuation := by
    rw [List.length_append] at hlength
    rw [List.length_map]
    omega
  have hends' := hends.map_expandTabs
  rw [List.map_cons] at hends'
  obtain ⟨start', hstart'⟩ : ∃ start', headerStart? (expandTabs first') = some start' := by
    rw [← Option.isSome_iff_exists, ← startsHeader, startsHeader_expandTabs, startsHeader, hfirstStart]
    rfl
  have hheader' : header? (expandTabs first') (header.map expandTabs ++ (behind ++ after).map expandTabs) =
      some (start', (header.map expandTabs).length) :=
    header?_eq_some_iff.2 ⟨hstart', continuation?_of_endsHeader hends' hcount _⟩
  -- both have the name that is read from the line as it stands
  have hnames : start'.name = start.name := by
    have hsome (l : Line) := headerStart?_expandTabs l
    have hfirstName := hsome first'
    have hlineName := hsome line
    rw [hstart', hfirstStart] at hfirstName
    rw [hstart, hlineStart] at hlineName
    calc start'.name = firstStart.name := Option.some.inj hfirstName
      _ = lineStart.name := hname
      _ = start.name := (Option.some.inj hlineName).symm
  refine ⟨_, mem_scanLines_iff.2 ⟨before.map expandTabs, _, _, start', _, ?_, hheader', ?_, rfl⟩, ?_, hnames,
    ⟨first' :: header, behind, rfl, hends, ?_⟩, ?_⟩
  · rw [hlines', List.map_append, List.cons_append, List.cons_append, List.map_cons, List.append_assoc, List.map_append]
  · exact fun h => hreached (openHeader_of_reached h)
  · exact congrArg (· + 1) (List.length_map ..)
  · simp only [definition, List.take_left]
    rfl
  · intro hopen
    have hnil : behind = [] := by
      by_contra hne
      obtain ⟨init, last, hheader, hcloses, -⟩ := hends
      have hmem : last ∈ (first' :: header ++ behind).dropLast := by
        rw [List.dropLast_append_of_ne_nil hne, hheader]
        exact List.mem_append_left _ (List.mem_append_right _ (List.mem_singleton_self last))
      rw [hopen last hmem] at hcloses
      cases hcloses
    rw [hnil, List.append_nil] at hbroken
    simp only [definition, List.take_left, List.take_zero]
    exact hbroken.expandTabs.parameterNames_eq

end Texts

/-- Breaks behind commas inside and outside brackets, with a comment, a tab and a string that holds a quote. -/
theorem broken_header_reported_sample :
    ∃ e ∈ scanLines "def f(a,  # one\n\tb=\x7b1: (2,\n  3)\x7d, c='\"'):\n".toList,
      e.firstLine = 1 ∧ e.name = "f".toList ∧ e.args = ["a".toList, "b".toList, "c".toList] := by
  have hlines : lines "def f(a, b=\x7b1: (2, 3)\x7d, c='\"'):\n".toList =
      [] ++ "def f(a, b=\x7b1: (2, 3)\x7d, c='\"'):".toList :: [] := by decide
  have hlines' : lines "def f(a,  # one\n\tb=\x7b1: (2,\n  3)\x7d, c='\"'):\n".toList =
      [] ++ (["def f(a,  # one".toList, "\tb=\x7b1: (2,".toList, "  3)\x7d, c='\"'):".toList] ++ []) := by decide
  have hthird : Continued " 3)\x7d, c='\"'):".toList ["  3)\x7d, c='\"'):".toList] :=
    @Continued.last [' '] [' ', ' '] (by decide) (by decide) "3)\x7d, c='\"'):".toList
  have hsecond : Continued " b=\x7b1: (2, 3)\x7d, c='\"'):".toList ["\tb=\x7b1: (2,".toList, "  3)\x7d, c='\"'):".toList] :=
    @Continued.cut [' '] ['\t'] "b=\x7b1: (2".toList [] _ _ (by decide) (by decide) (by decide)
      ⟨[], by decide, .inl rfl⟩ hthird
  have hbroken : BrokenHeader "def f(a, b=\x7b1: (2, 3)\x7d, c='\"'):".toList
      ["def f(a,  # one".toList, "\tb=\x7b1: (2,".toList, "  3)\x7d, c='\"'):".toList] :=
    @BrokenHeader.intro "def f(a".toList "  # one".toList _ _ (by decide) (by decide +kernel)
      ⟨[' ', ' '], by decide, .inr ⟨" one".toList, rfl⟩⟩ hsecond (by decide)
  obtain ⟨d, hd, hfirst, hname, hargs⟩ : ∃ d ∈ scanLines "def f(a, b=\x7b1: (2, 3)\x7d, c='\"'):\n".toList,
      d.firstLine = 1 ∧ d.name = "f".toList ∧ d.args = ["a".toList, "b".toList, "c".toList] := by decide +kernel
  obtain ⟨e, he, hline, hname', -, hsame⟩ := broken_header_reported hlines hlines' hbroken (by decide)
    ⟨_, rfl, by decide⟩ hd hfirst
  exact ⟨e, he, hline.trans hfirst, hname'.trans hname, (hsame (by decide)).trans hargs⟩

end Consolidation.Python
