/-
# `Proofs.Python.Tabs` — headers do not depend on tabs

Before lines are scanned, each tab becomes four spaces (`Line.expandTabs`).  A header is the same with tabs and without
them: the name (`headerStart?_expandTabs`), and whether the header ends on the line (`closesHeader_expandTabs`).  So what
is said of the headers of a text can be said of its lines as they stand.

Every step in reading a header looks at classes of characters that have tabs and spaces in common, or at single characters
that are neither of them.  So there is one lemma for each step, and each says that the step and the expansion can be
exchanged.

| class of characters | tabs and spaces |
| :-- | :-- |
| blanks, ink | both or none (`AlikeOnTabs`) |
| letters and digits of names | none |
| quotes, brackets, commas, colons | none |

Where a comment starts is found by going over literals (`codeLength_literal`), in which tabs may stand as well; there the
lengths differ on the two sides, and the lemma says so (`codeLength_expandTabs`).
-/
import Mathlib.Data.List.TakeWhile
import Consolidation.Python.LineScan

namespace Consolidation.Python.Line

open Text

/-! ## The expansion -/

def expandTab (c : Char) : List Char := if c == '\t' then [' ', ' ', ' ', ' '] else [c]

theorem expandTabs_cons (c : Char) (s : List Char) : expandTabs (c :: s) = expandTab c ++ expandTabs s :=
  rfl

theorem expandTabs_append (a b : List Char) : expandTabs (a ++ b) = expandTabs a ++ expandTabs b :=
  List.flatMap_append

theorem expandTab_of_ne {c : Char} (h : c ≠ '\t') : expandTab c = [c] := if_neg (by simpa using h)

theorem expandTabs_cons_of_ne {c : Char} (h : c ≠ '\t') (s : List Char) :
    expandTabs (c :: s) = c :: expandTabs s := by
  rw [expandTabs_cons, expandTab_of_ne h]
  rfl

theorem expandTabs_tab (s : List Char) :
    expandTabs ('\t' :: s) = ' ' :: ' ' :: ' ' :: ' ' :: expandTabs s :=
  rfl

theorem expandTabs_eq_self {s : List Char} (h : ∀ c ∈ s, c ≠ '\t') : expandTabs s = s := by
  induction s with
  | nil => rfl
  | cons c s ih =>
    obtain ⟨hc, hs⟩ := List.forall_mem_cons.1 h
    rw [expandTabs_cons_of_ne hc, ih hs]

/-- A class that has tabs and spaces in common, or none of them. -/
def AlikeOnTabs (p : Char → Bool) : Prop := p '\t' = p ' '

theorem dropWhile_expandTabs {p : Char → Bool} (hp : AlikeOnTabs p) (s : List Char) :
    (expandTabs s).dropWhile p = expandTabs (s.dropWhile p) := by
  induction s with
  | nil => rfl
  | cons c s ih =>
    by_cases hc : c = '\t'
    · subst hc
      rw [expandTabs_tab]
      cases hspace : p ' ' with
      | true => simp only [List.dropWhile_cons, hspace, hp.trans hspace, if_true, ih]
      | false =>
        simp only [List.dropWhile_cons, hspace, hp.trans hspace, Bool.false_eq_true, if_false]
        exact (expandTabs_tab s).symm
    · rw [expandTabs_cons_of_ne hc, List.dropWhile_cons, List.dropWhile_cons]
      split
      · exact ih
      · exact (expandTabs_cons_of_ne hc s).symm

theorem takeWhile_expandTabs {p : Char → Bool} (hp : AlikeOnTabs p) (s : List Char) :
    (expandTabs s).takeWhile p = expandTabs (s.takeWhile p) := by
  have hsplit : (expandTabs s).takeWhile p ++ expandTabs (s.dropWhile p) =
      expandTabs (s.takeWhile p) ++ expandTabs (s.dropWhile p) := by
    rw [← dropWhile_expandTabs hp, List.takeWhile_append_dropWhile, dropWhile_expandTabs hp,
      ← expandTabs_append, List.takeWhile_append_dropWhile]
  exact List.append_cancel_right hsplit

theorem alike_isBlank : AlikeOnTabs isBlank := rfl

theorem trimStart_expandTabs (s : List Char) : trimStart (expandTabs s) = expandTabs (trimStart s) :=
  dropWhile_expandTabs alike_isBlank s

theorem head?_expandTabs {p : Char → Bool} (hp : AlikeOnTabs p) (s : List Char) :
    (expandTabs s).head?.map p = s.head?.map p := by
  cases s with
  | nil => rfl
  | cons c s =>
    by_cases hc : c = '\t'
    · subst hc
      exact congrArg some hp.symm
    · rw [expandTabs_cons_of_ne hc]
      rfl

def isInk (c : Char) : Bool := c != '\t' && c != ' '

theorem stripStart?_expandTabs {p : List Char} (hp : p.all isInk = true) (s : List Char) :
    stripStart? p (expandTabs s) = (stripStart? p s).map expandTabs := by
  induction p generalizing s with
  | nil => rfl
  | cons q p ih =>
    rw [List.all_cons, Bool.and_eq_true, isInk, Bool.and_eq_true, bne_iff_ne, bne_iff_ne] at hp
    obtain ⟨⟨htab, hspace⟩, hp⟩ := hp
    cases s with
    | nil => rfl
    | cons c s =>
      by_cases hc : c = '\t'
      · subst hc
        rw [expandTabs_tab, stripStart?, stripStart?, if_neg hspace, if_neg htab]
        rfl
      · rw [expandTabs_cons_of_ne hc, stripStart?, stripStart?]
        split
        · exact ih hp s
        · rfl

/-! ## Where a header starts -/

theorem dropBlanks?_expandTabs (s : List Char) :
    dropBlanks? (expandTabs s) = (dropBlanks? s).map expandTabs := by
  rw [dropBlanks?, dropBlanks?, head?_expandTabs alike_isBlank, trimStart_expandTabs]
  split <;> rfl

theorem afterAsync_expandTabs (s : List Char) : afterAsync (expandTabs s) = expandTabs (afterAsync s) := by
  have hword : "async".toList.all isInk = true := rfl
  rw [afterAsync, afterAsync, stripStart?_expandTabs hword]
  cases stripStart? "async".toList s with
  | none => rfl
  | some rest =>
    rw [Option.map_some, Option.bind_some, Option.bind_some, dropBlanks?_expandTabs]
    cases dropBlanks? rest <;> rfl

theorem alike_isWordChar : AlikeOnTabs isWordChar := by
  have htab : isWordChar '\t' = false := by decide +kernel
  have hspace : isWordChar ' ' = false := by decide +kernel
  rw [AlikeOnTabs, htab, hspace]

theorem leadingName?_expandTabs (s : List Char) :
    leadingName? (expandTabs s) = (leadingName? s).map (fun found => (found.1, expandTabs found.2)) := by
  have htab : isWordChar '\t' = false := by decide +kernel
  have hspace : isWordChar ' ' = false := alike_isWordChar.symm.trans htab
  cases s with
  | nil => rfl
  | cons c s =>
    have hname : expandTabs ((c :: s).takeWhile isWordChar) = (c :: s).takeWhile isWordChar := by
      refine expandTabs_eq_self fun d hd heq => ?_
      rw [heq] at hd
      have hword := List.mem_takeWhile_imp hd
      rw [htab] at hword
      cases hword
    by_cases hc : c = '\t'
    · subst hc
      simp only [expandTabs_tab, leadingName?, htab, hspace, Bool.false_and, Bool.false_eq_true, if_false,
        Option.map_none]
    · have hdrop := dropWhile_expandTabs alike_isWordChar (c :: s)
      have htake := takeWhile_expandTabs alike_isWordChar (c :: s)
      rw [expandTabs_cons_of_ne hc] at hdrop htake ⊢
      simp only [leadingName?, hdrop, htake, hname]
      cases isWordChar c && !isDecimalDigit c with
      | true => simp only [if_true, Option.map_some]
      | false => simp only [Bool.false_eq_true, if_false, Option.map_none]

/-- The name of a header does not depend on tabs. -/
theorem headerStart?_expandTabs (line : Line) :
    (headerStart? (expandTabs line)).map (·.name) = (headerStart? line).map (·.name) := by
  have hdef : "def".toList.all isInk = true := rfl
  have hopen : ['('].all isInk = true := rfl
  have hindent : AlikeOnTabs (fun c => c == ' ' || c == '\t') := rfl
  simp only [headerStart?, dropWhile_expandTabs hindent, afterAsync_expandTabs, stripStart?_expandTabs hdef,
    Option.bind_eq_bind]
  cases stripStart? "def".toList (afterAsync (line.dropWhile (fun c => c == ' ' || c == '\t'))) with
  | none => rfl
  | some afterDef =>
    simp only [Option.map_some, Option.bind_some, dropBlanks?_expandTabs]
    cases dropBlanks? afterDef with
    | none => rfl
    | some blanks =>
      simp only [Option.map_some, Option.bind_some, leadingName?_expandTabs]
      cases leadingName? blanks with
      | none => rfl
      | some found =>
        simp only [Option.map_some, Option.bind_some, trimStart_expandTabs, stripStart?_expandTabs hopen]
        cases stripStart? ['('] (trimStart found.2) <;> rfl

/-! ## Where a header ends -/

theorem afterClose?_expandTabs (s : List Char) :
    afterClose? (expandTabs s) = (afterClose? s).map expandTabs := by
  have harrow : "->".toList.all isInk = true := rfl
  have hcolon : [':'].all isInk = true := rfl
  have hresult : AlikeOnTabs (· != ':') := rfl
  simp only [afterClose?, trimStart_expandTabs, stripStart?_expandTabs harrow]
  cases stripStart? "->".toList (trimStart s) with
  | none => exact stripStart?_expandTabs hcolon _
  | some result =>
    simp only [Option.map_some, dropWhile_expandTabs hresult]
    exact stripStart?_expandTabs hcolon _

theorem headerEnd?_cons_of_ne {c : Char} (h : c ≠ ')') (s : List Char) :
    headerEnd? (c :: s) = headerEnd? s := by
  rw [headerEnd?, if_neg (by simpa using h)]

theorem headerEnd?_expandTabs (s : List Char) :
    headerEnd? (expandTabs s) = (headerEnd? s).map expandTabs := by
  induction s with
  | nil => rfl
  | cons c s ih =>
    by_cases hc : c = '\t'
    · subst hc
      have hspace : (' ' : Char) ≠ ')' := by decide
      have htab : ('\t' : Char) ≠ ')' := by decide
      simp only [expandTabs_tab, headerEnd?_cons_of_ne hspace, headerEnd?_cons_of_ne htab, ih]
    · rw [expandTabs_cons_of_ne hc]
      by_cases hclose : c = ')'
      · subst hclose
        rw [headerEnd?, headerEnd?, if_pos (beq_self_eq_true _), if_pos (beq_self_eq_true _),
          afterClose?_expandTabs]
        cases afterClose? s with
        | none => exact ih
        | some behind => rfl
      · rw [headerEnd?_cons_of_ne hclose, headerEnd?_cons_of_ne hclose, ih]

/-! ## Comments -/

theorem afterQuote?_expandTabs {quote : Char} (hquote : quote ≠ '\t' ∧ quote ≠ ' ') (s : List Char) :
    afterQuote? quote (expandTabs s) = (afterQuote? quote s).map expandTabs := by
  induction s with
  | nil => rfl
  | cons c s ih =>
    by_cases hc : c = '\t'
    · subst hc
      have hspace : (' ' == quote) = false := by simpa using hquote.2.symm
      have htab : ('\t' == quote) = false := by simpa using hquote.1.symm
      simp only [expandTabs_tab, afterQuote?, hspace, htab, Bool.false_eq_true, if_false, ih]
    · rw [expandTabs_cons_of_ne hc, afterQuote?, afterQuote?]
      split
      · rfl
      · exact ih

theorem eq_append_of_afterQuote? {quote : Char} {s rest : List Char} (h : afterQuote? quote s = some rest) :
    ∃ inside, s = inside ++ rest := by
  induction s with
  | nil => cases h
  | cons c s ih =>
    rw [afterQuote?] at h
    split at h
    · cases h
      exact ⟨[c], rfl⟩
    · obtain ⟨inside, rfl⟩ := ih h
      exact ⟨c :: inside, rfl⟩

theorem codeLength_nil (fuel : Nat) : codeLength fuel [] = 0 := by
  cases fuel <;> rfl

section CodeLength

variable {c : Char} {s rest : Line}

theorem codeLength_hash (fuel : Nat) (s : Line) : codeLength (fuel + 1) ('#' :: s) = 0 := rfl

theorem codeLength_plain (hhash : c ≠ '#') (hquote : isQuote c = false) (fuel : Nat) (s : Line) :
    codeLength (fuel + 1) (c :: s) = 1 + codeLength fuel s := by
  rw [codeLength, if_neg (by simpa using hhash), hquote, if_neg Bool.false_ne_true]

theorem ne_hash_of_isQuote (h : isQuote c = true) : (c == '#') = false := by
  rw [beq_eq_false_iff_ne]
  rintro rfl
  cases h

theorem codeLength_literal (hquote : isQuote c = true) (hrest : afterQuote? c s = some rest) (fuel : Nat) :
    codeLength (fuel + 1) (c :: s) = 1 + s.length - rest.length + codeLength fuel rest := by
  simp only [codeLength, ne_hash_of_isQuote hquote, hquote, hrest, Bool.false_eq_true, if_false, if_true]

theorem codeLength_open (hquote : isQuote c = true) (hrest : afterQuote? c s = none) (fuel : Nat) :
    codeLength (fuel + 1) (c :: s) = 0 := by
  simp only [codeLength, ne_hash_of_isQuote hquote, hquote, hrest, Bool.false_eq_true, if_false, if_true]

end CodeLength

/-- The code of a line takes up what its characters take up with spaces for tabs. -/
theorem codeLength_expandTabs {fuel fuel' : Nat} {line : Line} (h : line.length ≤ fuel)
    (h' : (expandTabs line).length ≤ fuel') :
    codeLength fuel' (expandTabs line) = (expandTabs (line.take (codeLength fuel line))).length := by
  induction fuel generalizing line fuel' with
  | zero =>
    obtain rfl := List.length_eq_zero_iff.1 (Nat.le_zero.1 h)
    exact codeLength_nil fuel'
  | succ fuel ih =>
    cases line with
    | nil =>
      rw [codeLength_nil]
      exact codeLength_nil fuel'
    | cons c s =>
      have hs : s.length ≤ fuel := Nat.le_of_succ_le_succ h
      by_cases htab : c = '\t'
      · subst htab
        have hspace : (' ' : Char) ≠ '#' := by decide
        have htab : ('\t' : Char) ≠ '#' := by decide
        simp only [expandTabs_tab, List.length_cons] at h'
        obtain ⟨rest, rfl⟩ : ∃ rest, fuel' = rest + 1 + 1 + 1 + 1 := ⟨fuel' - 4, by omega⟩
        rw [expandTabs_tab, codeLength_plain hspace rfl, codeLength_plain hspace rfl,
          codeLength_plain hspace rfl, codeLength_plain hspace rfl, codeLength_plain htab rfl,
          Nat.add_comm 1 (codeLength fuel s), List.take_succ_cons, expandTabs_tab, ih hs (by omega)]
        simp only [List.length_cons]
        omega
      · rw [expandTabs_cons_of_ne htab, List.length_cons] at h'
        obtain ⟨rest, rfl⟩ : ∃ rest, fuel' = rest + 1 := ⟨fuel' - 1, by omega⟩
        have hs' : (expandTabs s).length ≤ rest := Nat.le_of_succ_le_succ h'
        rw [expandTabs_cons_of_ne htab]
        cases hquote : isQuote c with
        | false =>
          by_cases hhash : c = '#'
          · subst hhash
            rfl
          · rw [codeLength_plain hhash hquote, codeLength_plain hhash hquote, ih hs hs',
              Nat.add_comm 1 (codeLength fuel s), List.take_succ_cons, expandTabs_cons_of_ne htab,
              List.length_cons, Nat.add_comm]
        | true =>
          have hclass : c ≠ '\t' ∧ c ≠ ' ' := by
            refine ⟨htab, ?_⟩
            rintro rfl
            cases hquote
          have hafter' := afterQuote?_expandTabs hclass s
          cases hafter : afterQuote? c s with
          | none =>
            rw [hafter, Option.map_none] at hafter'
            rw [codeLength_open hquote hafter', codeLength_open hquote hafter]
            rfl
          | some behind =>
            -- what follows the literal is scanned on its own
            rw [hafter, Option.map_some] at hafter'
            rw [codeLength_literal hquote hafter', codeLength_literal hquote hafter]
            obtain ⟨inside, rfl⟩ := eq_append_of_afterQuote? hafter
            rw [List.length_append] at hs
            rw [expandTabs_append, List.length_append] at hs'
            have hcount : 1 + (inside ++ behind).length - behind.length = (c :: inside).length := by
              simp only [List.length_append, List.length_cons]
              omega
            rw [hcount, ← List.cons_append, List.take_length_add_append, expandTabs_append,
              expandTabs_append, expandTabs_cons_of_ne htab, ih (by omega) (by omega)]
            simp only [List.length_append, List.length_cons]
            omega

theorem startsComment_expandTabs (s : Line) :
    ((expandTabs s).head? == some '#') = (s.head? == some '#') := by
  have halike : AlikeOnTabs (· == '#') := rfl
  have hmap : ∀ o : Option Char, (o == some '#') = (o.map (· == '#')).getD false := fun o => by
    cases o <;> rfl
  rw [hmap, hmap, head?_expandTabs halike]

theorem withoutComment_expandTabs (line : Line) :
    withoutComment (expandTabs line) = expandTabs (withoutComment line) := by
  have hlength := codeLength_expandTabs (Nat.le_refl line.length) (Nat.le_refl (expandTabs line).length)
  simp only [withoutComment, hlength]
  generalize codeLength line.length line = n
  have hsplit : expandTabs line = expandTabs (line.take n) ++ expandTabs (line.drop n) := by
    rw [← expandTabs_append, List.take_append_drop]
  rw [hsplit, List.drop_left, List.take_left, startsComment_expandTabs, ← hsplit]
  split <;> rfl

/-- Whether a header ends on a line does not depend on tabs. -/
theorem closesHeader_expandTabs (line : Line) : closesHeader (expandTabs line) = closesHeader line := by
  rw [closesHeader, withoutComment_expandTabs, headerEnd?_expandTabs, Option.isSome_map]
  rfl

end Consolidation.Python.Line
