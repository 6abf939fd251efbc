/-
# `Proofs.Python.HeaderText` — what the line scanner reads on a line with a whole header

A header on one line has a lead, a name, parameters between brackets, perhaps a result, and a colon at its end
(`OneLineHeader`).  What the parameters have to be like is said by what is left of them when strings are empty and groups
of brackets are dropped (`Declares`).  On a line that starts with such a header, after spaces and tabs, the line scanner
finds the start of the header and its end and reads the parameters, whatever stands behind the colon
(`OneLineHeader.headerStart?`, `OneLineHeader.closesHeader`, `OneLineHeader.parameterNames`).

The four readings of the scanner on such a line are independent of each other:

* where the header starts and what its name is, for which only the words before the bracket matter;
* what stands up to the colon, the comment behind it being cut off, if quotes match;
* whether a header ends on the line;
* the parameters, which are the pieces between commas once groups are dropped, each with a name at its front
  (`name_of_detail`).

Each is a lemma on `OneLineHeader`, and none looks at what the scanner does with the lines around.
-/
import Consolidation.Proofs.Python.Wording

namespace Consolidation.Python.Line

open Text

/-! ## Words -/

section Words

variable {name rest gap gap' : List Char}

def IsWord (name : List Char) : Prop := leadingName? name = some (name, [])

instance (name : List Char) : Decidable (IsWord name) := inferInstanceAs (Decidable (_ = _))

/-- May a text follow a name? -/
def Separates (rest : List Char) : Prop := ∀ c ∈ rest.head?, isWordChar c = false

theorem not_word_of_blank {c : Char} (h : isBlank c = true) : isWordChar c = false := by
  cases hc : isWordChar c with
  | false => rfl
  | true =>
    rw [(word_ink c hc).1] at h
    cases h

theorem separates_append (hgap : AllBlank gap) (h : Separates rest) : Separates (gap ++ rest) := by
  cases gap with
  | nil => exact h
  | cons c gap =>
    intro d hd
    obtain rfl := Option.some.inj hd
    exact not_word_of_blank (hgap _ List.mem_cons_self)

theorem separates_of_allBlank (hgap : AllBlank gap) : Separates gap := by
  rw [← List.append_nil gap]
  exact separates_append hgap fun c hc => by cases hc

theorem IsWord.exists_cons (h : IsWord name) :
    ∃ c tail, name = c :: tail ∧ (isWordChar c && !isDecimalDigit c) = true ∧ ∀ d ∈ name, isWordChar d = true := by
  cases name with
  | nil => cases h
  | cons c tail =>
    rw [IsWord, leadingName?_cons] at h
    split at h
    · next hc =>
      obtain ⟨htake, -⟩ := Prod.mk.inj (Option.some.inj h)
      exact ⟨c, tail, rfl, hc, List.takeWhile_eq_self_iff.1 htake⟩
    · cases h

theorem IsWord.leadingName?_append (h : IsWord name) (hrest : Separates rest) :
    leadingName? (name ++ rest) = some (name, rest) := by
  obtain ⟨c, tail, rfl, hc, hall⟩ := h.exists_cons
  have hstop : rest.takeWhile isWordChar = [] ∧ rest.dropWhile isWordChar = rest := by
    cases rest with
    | nil => exact ⟨rfl, rfl⟩
    | cons d rest =>
      have hd : ¬isWordChar d = true := by
        rw [hrest d rfl]
        exact Bool.false_ne_true
      exact ⟨List.takeWhile_cons_of_neg hd, List.dropWhile_cons_of_neg hd⟩
  rw [List.cons_append, leadingName?_cons, if_pos hc, ← List.cons_append, List.takeWhile_append_of_pos hall,
    List.dropWhile_append_of_pos hall, hstop.1, hstop.2, List.append_nil]

theorem IsWord.ink (h : IsWord name) : ∃ c tail, name = c :: tail ∧ isBlank c = false ∧ c ≠ '*' := by
  obtain ⟨c, tail, rfl, -, hall⟩ := h.exists_cons
  have hc := hall c List.mem_cons_self
  have hstar : isWordChar '*' = false := by decide +kernel
  refine ⟨c, tail, rfl, (word_ink c hc).1, ?_⟩
  rintro rfl
  rw [hstar] at hc
  cases hc

theorem trimStart_append_ink {c : Char} {tail : List Char} (hgap : AllBlank gap) (hc : isBlank c = false) :
    trimStart (gap ++ c :: tail) = c :: tail := by
  rw [trimStart_append_blanks hgap, trimStart_cons_of_ink hc]

theorem trimStart_append_word (hgap : AllBlank gap) (hname : IsWord name) (rest : List Char) :
    trimStart (gap ++ (name ++ rest)) = name ++ rest := by
  obtain ⟨c, tail, rfl, hc, -⟩ := hname.ink
  exact trimStart_append_ink hgap hc

theorem trimStart_of_allBlank (h : AllBlank gap) : trimStart gap = [] := List.dropWhile_eq_nil_iff.2 h

end Words

/-! ## Parameters -/

section Parameters

variable {name rest gap gap' stars : List Char}

/-- What may stand behind the name of a parameter: nothing, an annotation or a default. -/
def IsDetail (rest : List Char) : Prop :=
  AllBlank rest ∨ ∃ gap c more, AllBlank gap ∧ (c = ':' ∨ c = '=') ∧ rest = gap ++ c :: more

theorem IsDetail.append (h : IsDetail rest) (hgap : AllBlank gap) : IsDetail (rest ++ gap) := by
  rcases h with h | ⟨v, c, more, hv, hc, rfl⟩
  · exact .inl (List.forall_mem_append.2 ⟨h, hgap⟩)
  · exact .inr ⟨v, c, more ++ gap, hv, hc, by rw [List.append_assoc, List.cons_append]⟩

theorem IsDetail.separates (h : IsDetail rest) : Separates rest := by
  have hmarks : isWordChar ':' = false ∧ isWordChar '=' = false := by decide +kernel
  rcases h with h | ⟨v, c, more, hv, hc, rfl⟩
  · exact separates_of_allBlank h
  · refine separates_append hv fun d hd => ?_
    obtain rfl := Option.some.inj hd
    rcases hc with rfl | rfl
    · exact hmarks.1
    · exact hmarks.2

/-- The name of a parameter, whatever stands behind it. -/
theorem name_of_detail (hname : IsWord name) (hrest : IsDetail rest) :
    ((leadingName? (name ++ rest)).bind fun found =>
      match trimStart found.2 with
      | [] => some found.1
      | c :: _ => if c == ':' || c == '=' then some found.1 else none) = some name := by
  rw [hname.leadingName?_append hrest.separates, Option.bind_some]
  rcases hrest with h | ⟨v, c, more, hv, hc, rfl⟩
  · rw [trimStart_of_allBlank h]
  · have hink : isBlank c = false := by rcases hc with rfl | rfl <;> rfl
    have hmark : (c == ':' || c == '=') = true := by rcases hc with rfl | rfl <;> rfl
    rw [trimStart_append_ink hv hink]
    exact if_pos hmark

theorem parameterName?_plain (hgap : AllBlank gap) (hname : IsWord name) (hrest : IsDetail rest) :
    parameterName? (gap ++ (name ++ rest)) = some name := by
  obtain ⟨c, tail, htail, hc, hstar⟩ := hname.ink
  have hstars : (name ++ rest).takeWhile (· == '*') = [] := by
    rw [htail]
    exact List.takeWhile_cons_of_neg (by simpa using hstar)
  have htrim := trimStart_append_word (List.forall_mem_nil _) hname rest
  rw [List.nil_append] at htrim
  rw [parameterName?_eq, trimStart_append_word hgap hname]
  simp only [hstars, List.take_nil, List.length_nil, List.drop_zero, htrim]
  exact name_of_detail hname hrest

theorem parameterName?_starred (hgap : AllBlank gap) (hstars : stars = ['*'] ∨ stars = ['*', '*']) (hgap' : AllBlank gap')
    (hname : IsWord name) (hrest : IsDetail rest) :
    parameterName? (gap ++ (stars ++ (gap' ++ (name ++ rest)))) = some name := by
  have hbehind : (gap' ++ (name ++ rest)).takeWhile (· == '*') = [] := by
    obtain ⟨c, tail, rfl, hc, hstar⟩ := hname.ink
    cases gap' with
    | nil => exact List.takeWhile_cons_of_neg (by simpa using hstar)
    | cons d gap' =>
      refine List.takeWhile_cons_of_neg ?_
      rw [beq_iff_eq]
      rintro rfl
      cases hgap' _ List.mem_cons_self
  have hall : ∀ c ∈ stars, (c == '*') = true := by
    rcases hstars with rfl | rfl <;> decide
  have htake : (stars ++ (gap' ++ (name ++ rest))).takeWhile (· == '*') = stars := by
    rw [List.takeWhile_append_of_pos hall, hbehind, List.append_nil]
  have hlength : (stars.take 2).length = stars.length := by
    rcases hstars with rfl | rfl <;> rfl
  have hfront : trimStart (gap ++ (stars ++ (gap' ++ (name ++ rest)))) = stars ++ (gap' ++ (name ++ rest)) := by
    rcases hstars with rfl | rfl
    · exact trimStart_append_ink hgap rfl
    · exact trimStart_append_ink hgap rfl
  rw [parameterName?_eq, hfront]
  simp only [htake, hlength, List.drop_left, trimStart_append_word hgap' hname]
  exact name_of_detail hname hrest

theorem parameterName?_separator {c : Char} (hgap : AllBlank gap) (hc : c = '*' ∨ c = '/') (hgap' : AllBlank gap') :
    parameterName? (gap ++ c :: gap') = none := by
  have hink : isBlank c = false := by rcases hc with rfl | rfl <;> rfl
  have hstop : gap'.takeWhile (· == '*') = [] := by
    cases gap' with
    | nil => rfl
    | cons d gap' =>
      refine List.takeWhile_cons_of_neg ?_
      rw [beq_iff_eq]
      rintro rfl
      cases hgap' _ List.mem_cons_self
  rw [parameterName?_eq, trimStart_append_ink hgap hink]
  rcases hc with rfl | rfl
  · simp only [List.takeWhile_cons, hstop, beq_self_eq_true, if_true, List.take_succ_cons, List.take_nil, List.length_cons,
      List.length_nil, List.drop_succ_cons, List.drop_zero, trimStart_of_allBlank hgap']
    rfl
  · have hslash : leadingName? ('/' :: gap') = none := leadingName?_of_not_word (by decide +kernel) gap'
    have hstart : trimStart ('/' :: gap') = '/' :: gap' := trimStart_cons_of_ink rfl gap'
    show (leadingName? (trimStart ('/' :: gap'))).bind _ = none
    rw [hstart, hslash]
    rfl

theorem splitOn_of_not_mem {sep : Char} {s : List Char} (h : sep ∉ s) : splitOn sep s = [s] := by
  have hnil : splitOn sep [] = [[]] := rfl
  have hsplit := splitOn_append h hnil
  rwa [List.append_nil] at hsplit

theorem splitOn_append_cons {sep : Char} {s : List Char} (h : sep ∉ s) (t : List Char) :
    splitOn sep (s ++ sep :: t) = s :: splitOn sep t := by
  obtain ⟨piece, later, ht, hcons⟩ := splitOn_cons sep sep t
  rw [if_pos rfl] at hcons
  rw [splitOn_append h hcons, List.append_nil, ht]

/-- What is written between two commas, and the name that it declares, if it does. -/
def IsPiece (text : List Char) (name : Option (List Char)) : Prop :=
  IsCode text ∧ ∃ left, Grouped (emptied text) left ∧ ',' ∉ left ∧
    ∀ gap, AllBlank gap → parameterName? (left ++ gap) = name

def IsDetailText (text : List Char) : Prop :=
  IsCode text ∧ ∃ left, Grouped (emptied text) left ∧ ',' ∉ left ∧ IsDetail left

/-- A text between brackets in which some parameters are declared. -/
def Declares (text : List Char) (names : List (List Char)) : Prop :=
  IsCode text ∧ ∃ left, Grouped (emptied text) left ∧
    ∀ gap, AllBlank gap → (splitOn ',' (left ++ gap)).filterMap parameterName? = names

theorem isPiece_separator {c : Char} (hgap : AllBlank gap) (hc : c = '*' ∨ c = '/') : IsPiece (gap ++ [c]) none := by
  have hink : isQuote c = false ∧ c ≠ '#' ∧ isBracket c = false ∧ c ≠ ',' := by
    rcases hc with rfl | rfl <;> decide
  refine ⟨(isCode_of_allBlank hgap).append (isCode_singleton hink.2.1 hink.1), gap ++ [c], ?_, ?_, fun v hv => ?_⟩
  · rw [emptied_append_blanks hgap, emptied_cons_of_ne hink.1]
    exact (grouped_of_allBlank hgap).append (.plain hink.2.2.1 .nil)
  · rw [List.mem_append, List.mem_singleton]
    rintro (hin | hin)
    · exact comma_not_mem_of_allBlank hgap hin
    · exact hink.2.2.2 hin.symm
  · rw [List.append_assoc]
    exact parameterName?_separator hgap hc hv

theorem word_marks {c : Char} (h : isWordChar c = true) : isQuote c = false ∧ c ≠ '#' ∧ isBracket c = false ∧ c ≠ ',' := by
  have hmarks : ∀ d ∈ ['"', '\'', '#', '(', ')', '[', ']', '\x7b', '\x7d', ','], isWordChar d = false := by decide +kernel
  have hne {d : Char} (hd : d ∈ ['"', '\'', '#', '(', ')', '[', ']', '\x7b', '\x7d', ',']) : c ≠ d := by
    rintro rfl
    rw [hmarks c hd] at h
    cases h
  have hbracket : isBracket c = false := by
    cases hc : isBracket c with
    | false => rfl
    | true =>
      have hall : ∀ d ∈ ['(', ')', '[', ']', '\x7b', '\x7d'],
          d ∈ ['"', '\'', '#', '(', ')', '[', ']', '\x7b', '\x7d', ','] := by decide
      exact absurd rfl (hne (hall c (List.contains_iff_mem.1 hc)))
  refine ⟨?_, hne (by decide), hbracket, hne (by decide)⟩
  rw [isQuote, Bool.or_eq_false_iff, beq_eq_false_iff_ne, beq_eq_false_iff_ne]
  exact ⟨hne (by decide), hne (by decide)⟩

theorem IsWord.marks (h : IsWord name) : ∀ c ∈ name, isQuote c = false ∧ c ≠ '#' ∧ isBracket c = false ∧ c ≠ ',' := by
  obtain ⟨c, tail, -, -, hall⟩ := h.exists_cons
  exact fun d hd => word_marks (hall d hd)

theorem IsWord.isCode (h : IsWord name) : IsCode name :=
  isCode_of_plainChars fun c hc => ⟨(h.marks c hc).1, (h.marks c hc).2.1⟩

theorem isPiece_named {detail : List Char} (hgap : AllBlank gap) (hstars : stars = [] ∨ stars = ['*'] ∨ stars = ['*', '*'])
    (hgap' : AllBlank gap') (hname : IsWord name) (hdetail : IsDetailText detail) :
    IsPiece (gap ++ (stars ++ (gap' ++ (name ++ detail)))) (some name) := by
  obtain ⟨hcode, left, hleft, hcomma, hrest⟩ := hdetail
  have hink : ∀ c ∈ stars, isQuote c = false ∧ c ≠ '#' ∧ isBracket c = false ∧ c ≠ ',' := by
    rcases hstars with rfl | rfl | rfl <;> decide
  have hstarCode : IsCode stars := isCode_of_plainChars fun c hc => ⟨(hink c hc).1, (hink c hc).2.1⟩
  refine ⟨?_, gap ++ (stars ++ (gap' ++ (name ++ left))), ?_, ?_, fun v hv => ?_⟩
  · exact (isCode_of_allBlank hgap).append
      (hstarCode.append ((isCode_of_allBlank hgap').append (hname.isCode.append hcode)))
  · rw [emptied_append_blanks hgap, hstarCode.emptied_append, emptied_append_blanks hgap', hname.isCode.emptied_append,
      emptied_of_not_quote fun c hc => (hink c hc).1, emptied_of_not_quote fun c hc => (hname.marks c hc).1]
    have hstarGroup := grouped_of_plain fun c hc => (hink c hc).2.2.1
    have hnameGroup := grouped_of_plain fun c hc => (hname.marks c hc).2.2.1
    exact (grouped_of_allBlank hgap).append
      (hstarGroup.append ((grouped_of_allBlank hgap').append (hnameGroup.append hleft)))
  · simp only [List.mem_append, not_or]
    exact ⟨comma_not_mem_of_allBlank hgap, fun hin => (hink _ hin).2.2.2 rfl, comma_not_mem_of_allBlank hgap',
      fun hin => (hname.marks _ hin).2.2.2 rfl, hcomma⟩
  · simp only [List.append_assoc]
    rcases hstars with rfl | hstars
    · rw [List.nil_append, ← List.append_assoc]
      exact parameterName?_plain (List.forall_mem_append.2 ⟨hgap, hgap'⟩) hname (hrest.append hv)
    · exact parameterName?_starred hgap hstars hgap' hname (hrest.append hv)

theorem declares_nil : Declares [] [] := by
  refine ⟨rfl, [], .nil, fun gap hgap => ?_⟩
  have hblank : parameterName? gap = none := by
    rw [parameterName?_eq, trimStart_of_allBlank hgap]
    rfl
  rw [List.nil_append, splitOn_of_not_mem (comma_not_mem_of_allBlank hgap), List.filterMap_cons_none hblank]
  rfl

section Lists

variable {text more : List Char} {name? : Option (List Char)} {names : List (List Char)}

theorem filterMap_cons_toList {α β : Type} (f : α → Option β) (a : α) (l : List α) :
    (a :: l).filterMap f = (f a).toList ++ l.filterMap f := by
  rw [List.filterMap_cons]
  cases f a <;> rfl

theorem IsPiece.declares (h : IsPiece text name?) : Declares text name?.toList := by
  obtain ⟨hcode, left, hleft, hcomma, hpiece⟩ := h
  refine ⟨hcode, left, hleft, fun gap hgap => ?_⟩
  have hfree : ',' ∉ left ++ gap := by
    rw [List.mem_append, not_or]
    exact ⟨hcomma, comma_not_mem_of_allBlank hgap⟩
  rw [splitOn_of_not_mem hfree, filterMap_cons_toList, hpiece gap hgap]
  exact List.append_nil _

theorem Declares.cons (h : IsPiece text name?) (hgap : AllBlank gap) (hmore : Declares more names) :
    Declares (text ++ (gap ++ ',' :: more)) (name?.toList ++ names) := by
  obtain ⟨hcode, left, hleft, hcomma, hpiece⟩ := h
  obtain ⟨hcode', left', hleft', hnames⟩ := hmore
  refine ⟨hcode.append ((isCode_of_allBlank hgap).append (isCode_comma.append hcode')), left ++ (gap ++ ',' :: left'), ?_,
    fun v hv => ?_⟩
  · rw [hcode.emptied_append, emptied_append_blanks hgap, emptied_cons_of_ne rfl]
    exact hleft.append ((grouped_of_allBlank hgap).append (.plain rfl hleft'))
  · have hfree : ',' ∉ left ++ gap := by
      rw [List.mem_append, not_or]
      exact ⟨hcomma, comma_not_mem_of_allBlank hgap⟩
    rw [← List.append_assoc, List.append_assoc, List.cons_append, splitOn_append_cons hfree, filterMap_cons_toList,
      hpiece gap hgap, hnames v hv]

end Lists

end Parameters

/-! ## Headers -/

/-- The words before the name of a header, with the blanks behind them. -/
inductive IsLeadText : List Char → Prop
  | plain {gap : List Char} (hgap : AllBlank gap) (hne : gap ≠ []) : IsLeadText ("def".toList ++ gap)
  | async {gap gap' : List Char} (hgap : AllBlank gap) (hne : gap ≠ []) (hgap' : AllBlank gap') (hne' : gap' ≠ []) :
      IsLeadText ("async".toList ++ (gap ++ ("def".toList ++ gap')))

def IsResultText (text : List Char) : Prop :=
  IsCode text ∧ (text = [] ∨ ∃ gap more, AllBlank gap ∧ text = gap ++ '-' :: '>' :: more)

/-- What follows the parameters in a header. -/
inductive IsClosing : List Char → Prop
  | intro {gap result gap' : List Char} (hgap : AllBlank gap) (hresult : IsResultText result) (hgap' : AllBlank gap') :
      IsClosing (gap ++ ')' :: (result ++ (gap' ++ [':'])))

/-- What follows the name in a header, with the names of the parameters. -/
inductive IsSignature : List Char → List (List Char) → Prop
  | intro {gap params closing : List Char} {names : List (List Char)} (hgap : AllBlank gap) (hparams : Declares params names)
      (hclosing : IsClosing closing) : IsSignature (gap ++ '(' :: (params ++ closing)) names

/-- A header on one line, with the name and the names of the parameters. -/
inductive OneLineHeader : List Char → List Char → List (List Char) → Prop
  | intro {lead name signature : List Char} {names : List (List Char)} (hlead : IsLeadText lead) (hname : IsWord name)
      (hsignature : IsSignature signature names) : OneLineHeader (lead ++ (name ++ signature)) name names

section Headers

variable {indent lead name gap params gap' result text rest : List Char} {names : List (List Char)}

theorem dropBlanks?_append_blanks (hgap : AllBlank gap) (hne : gap ≠ []) {c : Char} (hc : isBlank c = false)
    (s : List Char) : dropBlanks? (gap ++ c :: s) = some (c :: s) := by
  cases gap with
  | nil => exact absurd rfl hne
  | cons d gap =>
    rw [List.cons_append, dropBlanks?_cons, if_pos (hgap d List.mem_cons_self), ← List.cons_append,
      trimStart_append_ink hgap hc]

theorem IsLeadText.afterAsync (h : IsLeadText lead) (s : List Char) :
    ∃ gap, AllBlank gap ∧ gap ≠ [] ∧ afterAsync (lead ++ s) = "def".toList ++ (gap ++ s) := by
  cases h with
  | plain hgap hne =>
    refine ⟨_, hgap, hne, ?_⟩
    rw [List.append_assoc]
    rfl
  | @async gap gap' hgap hne hgap' hne' =>
    refine ⟨gap', hgap', hne', ?_⟩
    rw [afterAsync, List.append_assoc, List.append_assoc, List.append_assoc, stripStart?_append_self, Option.bind_some]
    have hblanks : dropBlanks? (gap ++ ("def".toList ++ (gap' ++ s))) = some ("def".toList ++ (gap' ++ s)) :=
      dropBlanks?_append_blanks hgap hne rfl _
    rw [hblanks]
    rfl

theorem IsLeadText.front (h : IsLeadText lead) : ∃ c tail, lead = c :: tail ∧ isBlank c = false := by
  cases h with
  | plain => exact ⟨'d', _, rfl, rfl⟩
  | async => exact ⟨'a', _, rfl, rfl⟩

theorem headerStart?_of_parts (hindent : ∀ c ∈ indent, c = ' ' ∨ c = '\t') (hlead : IsLeadText lead) (hname : IsWord name)
    (hgap : AllBlank gap) (rest : List Char) :
    headerStart? (indent ++ (lead ++ (name ++ (gap ++ '(' :: rest)))) = some ⟨indent.length, name, rest⟩ := by
  have hall : ∀ c ∈ indent, (c == ' ' || c == '\t') = true := by
    intro c hc
    rcases hindent c hc with rfl | rfl <;> rfl
  have hink : ∀ s, (lead ++ s).takeWhile (fun c => c == ' ' || c == '\t') = [] ∧
      (lead ++ s).dropWhile (fun c => c == ' ' || c == '\t') = lead ++ s := by
    intro s
    obtain ⟨c, tail, rfl, hc⟩ := hlead.front
    have hnot : ¬(c == ' ' || c == '\t') = true := by
      rw [Bool.or_eq_true, beq_iff_eq, beq_iff_eq]
      rintro (rfl | rfl)
      · cases hc
      · cases hc
    exact ⟨List.takeWhile_cons_of_neg hnot, List.dropWhile_cons_of_neg hnot⟩
  have hbracket : isWordChar '(' = false := by decide +kernel
  obtain ⟨v, hv, hv', hafter⟩ := hlead.afterAsync (name ++ (gap ++ '(' :: rest))
  obtain ⟨c, tail, htail, hc, -⟩ := hname.ink
  have hfront : dropBlanks? (v ++ (name ++ (gap ++ '(' :: rest))) = some (name ++ (gap ++ '(' :: rest)) := by
    rw [htail]
    exact dropBlanks?_append_blanks hv hv' hc _
  have hseparates : Separates (gap ++ '(' :: rest) := separates_append hgap fun d hd => by
    obtain rfl := Option.some.inj hd
    exact hbracket
  rw [headerStart?_eq, List.dropWhile_append_of_pos hall, List.takeWhile_append_of_pos hall, (hink _).1, (hink _).2, hafter,
    stripStart?_append_self, Option.bind_some, hfront, Option.bind_some,
    hname.leadingName?_append hseparates, Option.bind_some, trimStart_append_ink hgap rfl, List.append_nil]
  rfl

/-! ### The end of a header -/

theorem headerEnd?_append (a : List Char) {b : List Char} (h : (afterClose? b).isSome = true) :
    (headerEnd? (a ++ ')' :: b)).isSome = true := by
  induction a with
  | nil =>
    obtain ⟨behind, hbehind⟩ := Option.isSome_iff_exists.1 h
    rw [List.nil_append, headerEnd?, if_pos (beq_self_eq_true _), hbehind]
    rfl
  | cons c a ih =>
    rw [List.cons_append, headerEnd?]
    split
    · rfl
    · exact ih

theorem dropWhile_not_colon {s : List Char} (h : ':' ∈ s) : ∃ behind, s.dropWhile (· != ':') = ':' :: behind := by
  induction s with
  | nil => cases h
  | cons c s ih =>
    by_cases hc : c = ':'
    · subst hc
      exact ⟨s, List.dropWhile_cons_of_neg (by decide)⟩
    · rw [List.dropWhile_cons_of_pos (by simpa using hc)]
      exact ih ((List.mem_cons.1 h).resolve_left (Ne.symm hc))

theorem afterClose?_of_result (hresult : IsResultText result) (hgap : AllBlank gap) (tail : List Char) :
    (afterClose? (result ++ (gap ++ ':' :: tail))).isSome = true := by
  rcases hresult.2 with rfl | ⟨v, more, hv, rfl⟩
  · rw [List.nil_append, afterClose?, trimStart_append_ink hgap rfl]
    rfl
  · have hcolon : ':' ∈ more ++ (gap ++ ':' :: tail) :=
      List.mem_append_right _ (List.mem_append_right _ List.mem_cons_self)
    obtain ⟨behind, hbehind⟩ := dropWhile_not_colon hcolon
    have harrow : stripStart? "->".toList ('-' :: '>' :: (more ++ (gap ++ ':' :: tail))) =
        some (more ++ (gap ++ ':' :: tail)) := rfl
    have hstrip : stripStart? [':'] (':' :: behind) = some behind := rfl
    rw [afterClose?, List.append_assoc, List.cons_append, List.cons_append, trimStart_append_ink hv rfl]
    simp only [harrow, hbehind, hstrip]
    rfl

/-! ### Whole headers -/

theorem IsLeadText.isCode (h : IsLeadText lead) : IsCode lead := by
  have hdef : IsCode "def".toList := by decide
  have hasync : IsCode "async".toList := by decide
  cases h with
  | plain hgap => exact hdef.append (isCode_of_allBlank hgap)
  | async hgap _ hgap' _ =>
    exact hasync.append ((isCode_of_allBlank hgap).append (hdef.append (isCode_of_allBlank hgap')))

theorem IsSignature.isCode {signature : List Char} (h : IsSignature signature names) : IsCode signature := by
  have hmarks : IsCode ['('] ∧ IsCode [')'] ∧ IsCode [':'] := by decide
  obtain ⟨hgap, hparams, ⟨hgap', hresult, hgap''⟩⟩ := h
  have hend := hresult.1.append ((isCode_of_allBlank hgap'').append hmarks.2.2)
  have hbehind := hparams.1.append ((isCode_of_allBlank hgap').append (hmarks.2.1.append hend))
  exact (isCode_of_allBlank hgap).append (hmarks.1.append hbehind)

theorem OneLineHeader.isCode (h : OneLineHeader text name names) : IsCode text := by
  obtain ⟨hlead, hname, hsignature⟩ := h
  exact hlead.isCode.append (hname.isCode.append hsignature.isCode)

theorem allBlank_indent (hindent : ∀ c ∈ indent, c = ' ' ∨ c = '\t') : AllBlank indent := by
  intro c hc
  rcases hindent c hc with rfl | rfl <;> rfl

/-- The header ends on its line. -/
theorem OneLineHeader.closesHeader (h : OneLineHeader text name names) (hindent : ∀ c ∈ indent, c = ' ' ∨ c = '\t')
    (tail : List Char) : closesHeader (indent ++ (text ++ tail)) = true := by
  have hcode := (isCode_of_allBlank (allBlank_indent hindent)).append h.isCode
  rw [Line.closesHeader, ← List.append_assoc, hcode.withoutComment_append]
  obtain @⟨lead, name, _, names, -, -, @⟨gap, params, _, _, -, -, @⟨gap', result, gap'', -, hresult, hgap''⟩⟩⟩ := h
  have hend := headerEnd?_append (indent ++ (lead ++ (name ++ (gap ++ '(' :: (params ++ gap')))))
    (afterClose?_of_result hresult hgap'' (withoutComment tail))
  simpa only [List.append_assoc, List.cons_append, List.nil_append] using hend

/-- The header starts on its line. -/
theorem OneLineHeader.headerStart? (h : OneLineHeader text name names) (hindent : ∀ c ∈ indent, c = ' ' ∨ c = '\t')
    (tail : List Char) :
    ∃ rest, headerStart? (indent ++ (text ++ tail)) = some ⟨indent.length, name, rest⟩ ∧ namesBehind rest = names := by
  obtain @⟨lead, name, _, names, hlead, hname, @⟨gap, params, _, _, hgap, hparams, @⟨gap', result, gap'', hgap', -, -⟩⟩⟩ := h
  refine ⟨params ++ (gap' ++ ')' :: (result ++ (gap'' ++ ':' :: tail))), ?_, ?_⟩
  · have hstart := headerStart?_of_parts hindent hlead hname hgap (params ++ (gap' ++ ')' :: (result ++ (gap'' ++ ':' :: tail))))
    simpa only [List.append_assoc, List.cons_append, List.nil_append] using hstart
  · obtain ⟨hcode, left, hleft, hnames⟩ := hparams
    rw [namesBehind, hcode.emptied_append, emptied_append_blanks hgap', emptied_cons_of_ne rfl, ← List.append_assoc,
      takeWhile_flattenGroups (hleft.append (grouped_of_allBlank hgap')), hnames gap' hgap']

theorem OneLineHeader.ends (h : OneLineHeader text name names) :
    ∃ c between, text = (c :: between) ++ [':'] ∧ isBlank c = false := by
  obtain @⟨lead, name, _, names, hlead, -, @⟨gap, params, _, _, -, -, @⟨gap', result, gap'', -, -, -⟩⟩⟩ := h
  obtain ⟨c, tail, rfl, hc⟩ := hlead.front
  refine ⟨c, tail ++ (name ++ (gap ++ '(' :: (params ++ (gap' ++ ')' :: (result ++ gap''))))), ?_, hc⟩
  simp only [List.append_assoc, List.cons_append]

/-- The parameters are those of the header, whatever stands behind it. -/
theorem OneLineHeader.parameterNames (h : OneLineHeader text name names) (hindent : ∀ c ∈ indent, c = ' ' ∨ c = '\t')
    (tail : List Char) : parameterNames (trim (withoutComment (indent ++ (text ++ tail)))) = names := by
  have hcode := (isCode_of_allBlank (allBlank_indent hindent)).append h.isCode
  have htrim : trim (indent ++ (text ++ withoutComment tail)) = text ++ trimEnd (withoutComment tail) := by
    obtain ⟨c, between, rfl, hc⟩ := h.ends
    have hcolon : isBlank ':' = false := rfl
    rw [trim_append_blanks (allBlank_indent hindent), trim, List.append_assoc, List.append_assoc, List.cons_append,
      trimStart_cons_of_ink hc, ← List.cons_append, List.singleton_append, trimEnd_append_cons hcolon,
      List.singleton_append]
  rw [← List.append_assoc, hcode.withoutComment_append, List.append_assoc, htrim]
  have hfirst := h.headerStart? (List.forall_mem_nil _) (trimEnd (withoutComment tail))
  rw [List.nil_append] at hfirst
  obtain ⟨rest, hstart, hnames⟩ := hfirst
  rw [parameterNames_of_start hstart, hnames]

end Headers

end Consolidation.Python.Line
