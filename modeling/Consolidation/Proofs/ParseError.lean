/-
# `Proofs.ParseError` — the text of a parse error is read back

Reading takes the path up to the first colon with a space behind it, and what stands behind the last colon of the path as
a line, if it is a number (`located_splitLocation`).  So an error comes back as it was exactly if its path is there, has
no colon with a space behind it and, where no line follows, does not end in what reads as one (`ofText_display_iff`,
`survives_iff`).  What is read from some text has such a path, so it comes back as well (`survives_of_ofText`).  A path
without colons always comes back (`Readable.survives`).

## What is proved

For every error: reading its text gives the error back if and only if its path is not empty, has no colon with a space
behind it, and the error has a line that is a number of four bytes, or has none and its path does not end in what reads as
one.  And for every text that can be read at all: the error that it is read as is such an error.

Texts are not told apart by their errors: a line may be spelled with a sign or with zeros in front, and is written
without.
-/
import Consolidation.ParseError
import Consolidation.Proofs.Text.Lines

namespace Consolidation

/-! ## Numbers in texts -/

theorem digitsValue_eq {digits : List Char} (h : ∀ c ∈ digits, c.isDigit = true) (acc : Nat) :
    digitsValue acc digits = some (Nat.ofDigitChars 10 digits acc) := by
  induction digits generalizing acc with
  | nil => simp [digitsValue]
  | cons c digits ih =>
    rw [digitsValue, if_pos (h c List.mem_cons_self),
      ih (fun d hd => h d (List.mem_cons_of_mem _ hd)), Nat.ofDigitChars_cons, Nat.mul_comm]

theorem isDigit_of_mem_toDigits_ten {n : Nat} {c : Char} (h : c ∈ Nat.toDigits 10 n) :
    c.isDigit = true :=
  Nat.isDigit_of_mem_toDigits (by decide) (by decide) h

theorem not_mem_toDigits_ten {c : Char} (h : c.isDigit = false) (n : Nat) :
    c ∉ Nat.toDigits 10 n := by
  intro hc
  rw [isDigit_of_mem_toDigits_ten hc] at h
  cases h

theorem toDigits_ten_inj {m n : Nat} : Nat.toDigits 10 m = Nat.toDigits 10 n ↔ m = n := by
  refine ⟨fun h => ?_, congrArg _⟩
  rw [← Nat.ofDigitChars_ten_toDigits (n := m), h, Nat.ofDigitChars_ten_toDigits]

theorem readNatUpTo?_toDigits {limit n : Nat} (h : n ≤ limit) :
    readNatUpTo? limit (Nat.toDigits 10 n) = some n := by
  obtain ⟨c, digits, heq⟩ := List.exists_cons_of_ne_nil (Nat.toDigits_ne_nil (b := 10) (n := n))
  have hplus : c ≠ '+' := by
    rintro rfl
    exact not_mem_toDigits_ten (by decide) n (heq ▸ List.mem_cons_self)
  have hvalue : digitsValue 0 (c :: digits) = some n := by
    rw [← heq, digitsValue_eq (fun _ => isDigit_of_mem_toDigits_ten), Nat.ofDigitChars_ten_toDigits]
  rw [heq]
  simp [readNatUpTo?, hplus, hvalue, h]

theorem isDigit_of_digitsValue {digits : List Char} {acc n : Nat}
    (h : digitsValue acc digits = some n) : ∀ c ∈ digits, c.isDigit = true := by
  induction digits generalizing acc with
  | nil => simp
  | cons c digits ih =>
    rw [digitsValue] at h
    split at h
    · next hc => exact List.forall_mem_cons.2 ⟨hc, ih h⟩
    · cases h

/-- A number that is read is not too large, and digits write it, behind a sign perhaps. -/
theorem readNatUpTo?_eq_some {limit n : Nat} {s : List Char} (h : readNatUpTo? limit s = some n) :
    n ≤ limit ∧ ∃ digits, (s = digits ∨ s = '+' :: digits) ∧ digitsValue 0 digits = some n := by
  have hread : ∀ digits : List Char,
      (if digits.isEmpty then none else (digitsValue 0 digits).filter (· ≤ limit)) = some n →
      n ≤ limit ∧ digitsValue 0 digits = some n := by
    intro digits hdigits
    split at hdigits
    · cases hdigits
    · obtain ⟨hvalue, hle⟩ := Option.filter_eq_some_iff.1 hdigits
      exact ⟨of_decide_eq_true hle, hvalue⟩
  unfold readNatUpTo? at h
  simp only at h
  split at h
  · next digits =>
    obtain ⟨hle, hvalue⟩ := hread digits h
    exact ⟨hle, digits, .inr rfl, hvalue⟩
  · obtain ⟨hle, hvalue⟩ := hread s h
    exact ⟨hle, s, .inl rfl, hvalue⟩

/-- Does a text write a number up to `limit`: in digits, perhaps behind a plus sign? -/
def WritesUpTo (limit : Nat) (s : List Char) : Prop :=
  ∃ digits, (s = digits ∨ s = '+' :: digits) ∧ digits ≠ [] ∧ (∀ c ∈ digits, c.isDigit = true) ∧
    Nat.ofDigitChars 10 digits 0 ≤ limit

theorem readNatUpTo?_eq_none_iff {limit : Nat} {s : List Char} : readNatUpTo? limit s = none ↔ ¬WritesUpTo limit s := by
  constructor
  · rintro hnone ⟨digits, hs, hne, hdigits, hle⟩
    obtain ⟨c, rest, rfl⟩ := List.exists_cons_of_ne_nil hne
    have hplus : c ≠ '+' := by
      rintro rfl
      exact absurd (hdigits '+' List.mem_cons_self) (by decide)
    rcases hs with rfl | rfl <;> simp [readNatUpTo?, hplus, digitsValue_eq hdigits] at hnone <;> omega
  · refine fun hnot => Option.eq_none_iff_forall_ne_some.2 fun n hn => hnot ?_
    obtain ⟨hle, digits, hs, hvalue⟩ := readNatUpTo?_eq_some hn
    have hdigits := isDigit_of_digitsValue hvalue
    rw [digitsValue_eq hdigits, Option.some.injEq] at hvalue
    refine ⟨digits, hs, ?_, hdigits, hvalue ▸ hle⟩
    rintro rfl
    rcases hs with rfl | rfl <;> cases hn

theorem readNatUpTo?_colon {s : List Char} (h : ':' ∈ s) (limit : Nat) :
    readNatUpTo? limit s = none := by
  refine Option.eq_none_iff_forall_ne_some.2 fun n hn => ?_
  obtain ⟨-, digits, hs, hvalue⟩ := readNatUpTo?_eq_some hn
  have hmem : ':' ∈ digits := by
    rcases hs with rfl | rfl
    · exact h
    · simpa using h
  exact absurd (isDigit_of_digitsValue hvalue _ hmem) (by decide)

namespace ParseError

/-! ## The text of an error -/

/-- Does the end of a path read as a line: a colon behind something, and a number behind the colon? -/
def EndsInLine (path : List Char) : Prop :=
  ∃ before digits, path = before ++ ':' :: digits ∧ before ≠ [] ∧ WritesUpTo maxWord digits

/-- What precedes a message: a path that does not end in a line, or a path and a line. -/
inductive Located : List Char → List Char → Option Nat → Prop
  | path {path : List Char} (h : ¬EndsInLine path) : Located path path none
  | line {path digits : List Char} {line : Nat} (hne : path ≠ []) (hread : readNatUpTo? maxWord digits = some line) :
    Located (path ++ ':' :: digits) path (some line)

theorem located_splitLocation (head : List Char) : Located head (splitLocation head).1 (splitLocation head).2 := by
  -- a number behind a colon stands behind the last one
  have hlast {before digits : List Char} (hhead : head = before ++ ':' :: digits) (hwrites : WritesUpTo maxWord digits) :
      Text.splitLast? ':' head = some (before, digits) := by
    rw [hhead]
    refine Text.splitLast?_append before fun hcolon => ?_
    exact readNatUpTo?_eq_none_iff.1 (readNatUpTo?_colon hcolon maxWord) hwrites
  rw [splitLocation]
  cases hsplit : Text.splitLast? ':' head with
  | none =>
    refine .path ?_
    rintro ⟨before, digits, hhead, -, hwrites⟩
    rw [hlast hhead hwrites] at hsplit
    cases hsplit
  | some parts =>
    obtain ⟨path, digits⟩ := parts
    have honly {before digits' : List Char} (h : head = before ++ ':' :: digits') (hwrites : WritesUpTo maxWord digits') :
        before = path ∧ digits' = digits := by
      have heq := (hlast h hwrites).symm.trans hsplit
      rwa [Option.some.injEq, Prod.mk.injEq] at heq
    simp only
    split
    · next hempty =>
      refine .path ?_
      rintro ⟨before, digits', h, hne, hwrites⟩
      exact hne ((honly h hwrites).1.trans (List.isEmpty_iff.1 hempty))
    · next hempty =>
      cases hread : readNatUpTo? maxWord digits with
      | some line =>
        rw [(Text.splitLast?_eq_some hsplit).1]
        exact .line (fun hnil => hempty (List.isEmpty_iff.2 hnil)) hread
      | none =>
        refine .path ?_
        rintro ⟨before, digits', h, -, hwrites⟩
        rw [(honly h hwrites).2] at hwrites
        exact readNatUpTo?_eq_none_iff.1 hread hwrites

theorem splitLocation_line {path : List Char} (hne : path ≠ []) {line : Nat} (hline : line ≤ maxWord) :
    splitLocation (path ++ ':' :: Nat.toDigits 10 line) = (path, some line) := by
  have hempty : path.isEmpty = false := by simpa using hne
  rw [splitLocation, Text.splitLast?_append _ (not_mem_toDigits_ten (by decide) line)]
  simp [hempty, readNatUpTo?_toDigits hline]

theorem not_infix_line {path : List Char} (h : ¬[':', ' '] <:+: path) (line : Nat) :
    ¬[':', ' '] <:+: path ++ ':' :: Nat.toDigits 10 line := by
  rintro ⟨a, b, hab⟩
  have hcolon : ':' ∉ Nat.toDigits 10 line := not_mem_toDigits_ten (by decide) line
  have hspace : ' ' ∉ Nat.toDigits 10 line := not_mem_toDigits_ten (by decide) line
  rw [List.append_assoc, List.append_eq_append_iff] at hab
  rcases hab with ⟨c, hpath, htail⟩ | ⟨c, ha, htail⟩
  · -- the colon stands in the path, and so does the space, or it would be the colon before the line
    match c with
    | [] =>
      simp only [List.cons_append, List.nil_append, List.cons.injEq, true_and] at htail
      exact hspace (htail ▸ List.mem_cons_self)
    | [d] =>
      simp only [List.cons_append, List.nil_append, List.cons.injEq] at htail
      exact absurd htail.2.1 (by decide)
    | d :: d' :: c =>
      simp only [List.cons_append, List.nil_append, List.cons.injEq] at htail
      exact h ⟨a, c, by simp [hpath, ← htail.1, ← htail.2.1]⟩
  · cases c with
    | nil =>
      simp only [List.cons_append, List.nil_append, List.cons.injEq, true_and] at htail
      exact hspace (htail ▸ List.mem_cons_self)
    | cons d c =>
      simp only [List.cons_append, List.cons.injEq] at htail
      exact hcolon (by simp [htail.2])

def head (e : ParseError) : List Char :=
  match e.lineNumber with
  | some line => e.filePath.toList ++ ':' :: Nat.toDigits 10 line
  | none => e.filePath.toList

theorem toList_display (e : ParseError) :
    e.display.toList = e.head ++ ':' :: ' ' :: e.message.toList := by
  obtain ⟨path, message, _ | line⟩ := e <;> simp [display, head]

/-- Can the path of an error be told from what follows it in its text? -/
structure Separable (e : ParseError) : Prop where
  no_space : ¬[':', ' '] <:+: e.filePath.toList
  /-- Where no line follows, the end of the path does not read as one. -/
  no_line : e.lineNumber = none → ∀ before digits, e.filePath.toList = before ++ ':' :: digits →
    before ≠ [] → readNatUpTo? maxWord digits = none

/-- An error whose text names its path, its line and its message again. -/
structure Survives (e : ParseError) : Prop where
  path_ne : e.filePath ≠ ""
  separable : e.Separable
  line_le : ∀ line ∈ e.lineNumber, line ≤ maxWord

theorem survives_iff {e : ParseError} :
    e.Survives ↔ e.filePath ≠ "" ∧ ¬[':', ' '] <:+: e.filePath.toList ∧
      ((∃ line ≤ maxWord, e.lineNumber = some line) ∨ (e.lineNumber = none ∧ ¬EndsInLine e.filePath.toList)) := by
  constructor
  · rintro ⟨hne, ⟨hspace, hline⟩, hle⟩
    refine ⟨hne, hspace, ?_⟩
    cases hnumber : e.lineNumber with
    | some line => exact .inl ⟨line, hle line hnumber, rfl⟩
    | none =>
      refine .inr ⟨rfl, ?_⟩
      rintro ⟨before, digits, hpath, hbefore, hwrites⟩
      exact readNatUpTo?_eq_none_iff.1 (hline hnumber before digits hpath hbefore) hwrites
  · rintro ⟨hne, hspace, ⟨line, hle, hnumber⟩ | ⟨hnumber, hends⟩⟩
    · refine ⟨hne, ⟨hspace, fun hnone => ?_⟩, fun line' hline' => ?_⟩
      · rw [hnumber] at hnone
        cases hnone
      · rw [hnumber] at hline'
        cases hline'
        exact hle
    · refine ⟨hne, ⟨hspace, fun _ before digits hpath hbefore => ?_⟩, fun line hline => ?_⟩
      · exact readNatUpTo?_eq_none_iff.2 fun hwrites => hends ⟨before, digits, hpath, hbefore, hwrites⟩
      · rw [hnumber] at hline
        cases hline

theorem Survives.splitLocation_head {e : ParseError} (h : e.Survives) :
    splitLocation e.head = (e.filePath.toList, e.lineNumber) := by
  obtain ⟨path, message, lineNumber⟩ := e
  cases lineNumber with
  | some line => exact splitLocation_line (by simpa using h.path_ne) (h.line_le line rfl)
  | none =>
    show splitLocation path.toList = (path.toList, none)
    rw [splitLocation]
    split
    · next before digits hsplit =>
      obtain ⟨heq, -⟩ := Text.splitLast?_eq_some hsplit
      split
      · rfl
      · next hne => rw [h.separable.no_line rfl before digits heq (by simpa using hne)]
    · rfl

theorem Survives.ofText_display {e : ParseError} (h : e.Survives) : ofText e.display = .ok e := by
  have hin : ¬[':', ' '] <:+: e.head := by
    unfold head
    split
    · exact not_infix_line h.separable.no_space _
    · exact h.separable.no_space
  have hempty : e.filePath.toList.isEmpty = false := by simpa using h.path_ne
  rw [ofText, toList_display, Text.splitOnce?_colon hin]
  simp [h.splitLocation_head, hempty]

/-- What a text is read as survives: no message begins in its path, and a path without a line does not end in one. -/
theorem survives_of_ofText {raw : String} {e : ParseError} (h : ofText raw = .ok e) : e.Survives := by
  rw [ofText] at h
  split at h
  · cases h
  · next head message hsplit =>
    have hspace := Text.not_infix_of_splitOnce? (List.cons_ne_nil _ _) hsplit
    have hloc := located_splitLocation head
    simp only at h
    split at h
    · cases h
    · next hne =>
      cases h
      refine survives_iff.2 ⟨by simpa using hne, ?_⟩
      simp only [String.toList_ofList]
      generalize (splitLocation head).1 = path, (splitLocation head).2 = line at hloc
      cases hloc with
      | path hends => exact ⟨hspace, .inr ⟨rfl, hends⟩⟩
      | @line path digits line _ hread =>
        refine ⟨fun hin => hspace (hin.trans (List.prefix_append path _).isInfix), .inl ⟨line, ?_, rfl⟩⟩
        exact (readNatUpTo?_eq_some hread).1

/-- **The texts that are read back**: an error comes back as it was exactly if it survives. -/
theorem ofText_display_iff {e : ParseError} : ofText e.display = .ok e ↔ e.Survives :=
  ⟨survives_of_ofText, Survives.ofText_display⟩

/-- **What the text of an error gives back.**  The error itself, if and only if its path is there, has no colon with a space
behind it and, in an error without a line, does not end in one.  What any text is read as is such an error. -/
theorem ofText_display_exact :
    (∀ e : ParseError, ofText e.display = .ok e ↔
      e.filePath ≠ "" ∧ ¬[':', ' '] <:+: e.filePath.toList ∧
        ((∃ line ≤ maxWord, e.lineNumber = some line) ∨ (e.lineNumber = none ∧ ¬EndsInLine e.filePath.toList))) ∧
    ∀ (raw : String) (e : ParseError), ofText raw = .ok e → ofText e.display = .ok e :=
  ⟨fun _ => ofText_display_iff.trans survives_iff, fun _ _ h => (survives_of_ofText h).ofText_display⟩

/-- A text that spells its line in another way than the error does. -/
theorem ofText_display_exact_sign :
    ofText "a:1:+07: b: c" = .ok ⟨"a:1", "b: c", some 7⟩ ∧
      ofText (display ⟨"a:1", "b: c", some 7⟩) = .ok ⟨"a:1", "b: c", some 7⟩ := by
  have hread : ofText "a:1:+07: b: c" = .ok ⟨"a:1", "b: c", some 7⟩ := by rfl
  exact ⟨hread, ofText_display_exact.2 _ _ hread⟩

/-- A path that ends in a line is cut there. -/
example : ofText (display ⟨"notes:12", "IO error", none⟩) = .ok ⟨"notes", "IO error", some 12⟩ := by rfl

/-- An error whose path has no colons, and whose line is a number of four bytes. -/
structure Readable (e : ParseError) : Prop where
  path_ne : e.filePath ≠ ""
  path_plain : ':' ∉ e.filePath.toList
  line_le : ∀ line ∈ e.lineNumber, line ≤ maxWord

theorem Readable.survives {e : ParseError} (h : e.Readable) : e.Survives where
  path_ne := h.path_ne
  separable := {
    no_space := fun hin => h.path_plain (hin.subset List.mem_cons_self)
    no_line := fun _ before digits hpath _ => absurd (by simp [hpath]) h.path_plain }
  line_le := h.line_le

end ParseError

end Consolidation
