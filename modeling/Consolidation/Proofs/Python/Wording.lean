/-
# `Proofs.Python.Wording` — code on one line as the line scanner reads it

The line scanner does not know tokens.  It takes a quote for the start of a string that goes up to the next quote of the
same kind, and what stands between brackets it drops.  Where string literals are plain, that is, hold none of the quotes
that enclose them, this fits the tokens (`Written`): the text is code (`Written.isCode`), and when strings are empty and
groups are dropped, a comma is left only if one of the tokens is a comma outside brackets (`Written.exists_grouped`).

`Writes` says of some tokens what their text is like wherever they stand in a source, and is put together the way the
tokens are (`Writes.append`).  Tokens in which brackets match write such a text (`writes_nested`).

## How a literal is read

The scanner empties literals by going from a quote to the next one of its kind.  For a literal in quotes for one line that
is the literal.  For one in three quotes it is three: an empty one, one with the text, and an empty one; so it needs only
that the text has no quote of the kind (`IsPlain.exists_quoted`).  Prefix letters stay, and are no comma and no bracket.

## How brackets are read

The tokens in which brackets match are a row of single ones, groups and formatted strings (`Proofs.Python.Nesting`), and
for each of these there is one lemma on what it writes (`writes_token`, `writes_group`, `writes_formatted`).  Holes do not
open in code (`writes_hole`), so a formatted string is read as one literal.
-/
import Consolidation.Proofs.Python.Flattening
import Consolidation.Proofs.Python.Layout
import Consolidation.Proofs.Python.Nesting

namespace Consolidation.Python

open Text

namespace Line

variable {s t : List Char}

/-! ## Strings -/

theorem IsCode.emptied_append (h : IsCode s) (t : List Char) : emptied (s ++ t) = emptied s ++ emptied t := by
  induction hlength : s.length using Nat.strong_induction_on generalizing s with
  | _ n ih =>
    subst hlength
    cases s with
    | nil => rfl
    | cons c s =>
      rw [IsCode, List.length_cons] at h
      by_cases hhash : c = '#'
      · subst hhash
        cases h
      · cases hquote : isQuote c with
        | false =>
          rw [codeLength_plain hhash hquote] at h
          have hs : IsCode s := by
            rw [IsCode]
            omega
          rw [List.cons_append, emptied_cons_of_ne hquote, emptied_cons_of_ne hquote, ih _ (Nat.lt_succ_self _) hs rfl,
            List.cons_append]
        | true =>
          cases hafter : afterQuote? c s with
          | none =>
            rw [codeLength_open hquote hafter] at h
            cases h
          | some rest =>
            have hlength := length_lt_of_afterQuote? hafter
            rw [codeLength_literal hquote hafter] at h
            have hrest : IsCode rest := by
              have hfuel : codeLength s.length rest = codeLength rest.length rest :=
                codeLength_of_le (Nat.le_of_lt hlength) (Nat.le_refl _)
              rw [IsCode]
              omega
            rw [List.cons_append, emptied_cons, emptied_cons, hquote, if_pos rfl, if_pos rfl, hafter,
              afterQuote?_append_right hafter]
            simp only
            rw [ih _ (Nat.lt_succ_of_lt hlength) hrest rfl]
            rfl

theorem emptied_of_not_quote (h : ∀ c ∈ s, isQuote c = false) : emptied s = s := by
  induction s with
  | nil => rfl
  | cons c s ih =>
    obtain ⟨hc, hs⟩ := List.forall_mem_cons.1 h
    rw [emptied_cons_of_ne hc, ih hs]

/-- Something between two quotes that are the only ones of their kind. -/
def quoted (quote : Char) (inner : List Char) : List Char := quote :: (inner ++ [quote])

theorem afterQuote?_quoted {quote : Char} {inner : List Char} (h : quote ∉ inner) :
    afterQuote? quote (inner ++ [quote]) = some [] := by
  rw [afterQuote?_append h, afterQuote?, if_pos (beq_self_eq_true _)]

theorem isCode_quoted {quote : Char} {inner : List Char} (hquote : isQuote quote = true) (h : quote ∉ inner) :
    IsCode (quoted quote inner) := by
  rw [IsCode, quoted, List.length_cons, codeLength_literal hquote (afterQuote?_quoted h), codeLength_nil, List.length_nil]
  omega

theorem emptied_quoted {quote : Char} {inner : List Char} (hquote : isQuote quote = true) (h : quote ∉ inner) :
    emptied (quoted quote inner) = ['"', '"'] := by
  rw [quoted, emptied_cons, hquote, if_pos rfl, afterQuote?_quoted h]
  rfl

/-- A string literal that holds none of the quotes that enclose it. -/
def IsPlain (literal : List Char) : Prop :=
  ∃ letters quote triple inner, letters.all Lexer.isPrefixLetter = true ∧ isQuote quote = true ∧ quote ∉ inner ∧
    literal = letters ++ (Lexer.quotesOf quote triple ++ (inner ++ Lexer.quotesOf quote triple))

/-- A plain literal is a row of quoted texts behind some letters. -/
theorem IsPlain.exists_quoted (h : IsPlain s) :
    ∃ letters quote before inner after, letters.all Lexer.isPrefixLetter = true ∧ isQuote quote = true ∧
      (before = [] ∨ before = quoted quote []) ∧ quote ∉ inner ∧ (after = [] ∨ after = quoted quote []) ∧
        s = letters ++ (before ++ (quoted quote inner ++ after)) := by
  obtain ⟨letters, quote, triple, inner, hletters, hquote, hinner, rfl⟩ := h
  refine ⟨letters, quote, ?_⟩
  cases triple with
  | false => exact ⟨[], inner, [], hletters, hquote, .inl rfl, hinner, .inl rfl, by simp [Lexer.quotesOf, quoted]⟩
  | true =>
    exact ⟨quoted quote [], inner, quoted quote [], hletters, hquote, .inr rfl, hinner, .inr rfl,
      by simp [Lexer.quotesOf, quoted]⟩

theorem isPrefixLetter_ink {c : Char} (h : Lexer.isPrefixLetter c = true) :
    isQuote c = false ∧ c ≠ '#' ∧ isBracket c = false ∧ c ≠ ',' ∧ c ≠ '\t' := by
  have hall : ∀ d ∈ "fFrRbBuU".toList,
      isQuote d = false ∧ d ≠ '#' ∧ isBracket d = false ∧ d ≠ ',' ∧ d ≠ '\t' := by decide
  exact hall c (List.contains_iff_mem.1 h)

theorem isCode_of_plainChars (h : ∀ c ∈ s, isQuote c = false ∧ c ≠ '#') : IsCode s := by
  induction s with
  | nil => rfl
  | cons c s ih =>
    obtain ⟨hc, hs⟩ := List.forall_mem_cons.1 h
    exact (isCode_singleton hc.2 hc.1).append (ih hs)

theorem isCode_letters {letters : List Char} (h : letters.all Lexer.isPrefixLetter = true) : IsCode letters :=
  isCode_of_plainChars fun c hc =>
    have hink := isPrefixLetter_ink (List.all_eq_true.1 h c hc)
    ⟨hink.1, hink.2.1⟩

theorem IsPlain.isCode (h : IsPlain s) : IsCode s := by
  obtain ⟨letters, quote, before, inner, after, hletters, hquote, hbefore, hinner, hafter, rfl⟩ := h.exists_quoted
  have hempty {v : List Char} (hv : v = [] ∨ v = quoted quote []) : IsCode v := by
    rcases hv with rfl | rfl
    · rfl
    · exact isCode_quoted hquote List.not_mem_nil
  exact (isCode_letters hletters).append ((hempty hbefore).append ((isCode_quoted hquote hinner).append (hempty hafter)))

theorem IsPlain.emptied_ink (h : IsPlain s) : ∀ c ∈ emptied s, isBracket c = false ∧ c ≠ ',' := by
  obtain ⟨letters, quote, before, inner, after, hletters, hquote, hbefore, hinner, hafter, rfl⟩ := h.exists_quoted
  have hpair : ∀ c ∈ ['"', '"'], isBracket c = false ∧ c ≠ ',' := by decide
  have hempty {v : List Char} (hv : v = [] ∨ v = quoted quote []) :
      IsCode v ∧ ∀ c ∈ emptied v, isBracket c = false ∧ c ≠ ',' := by
    rcases hv with rfl | rfl
    · exact ⟨rfl, List.forall_mem_nil _⟩
    · refine ⟨isCode_quoted hquote List.not_mem_nil, ?_⟩
      rw [emptied_quoted hquote List.not_mem_nil]
      exact hpair
  have hink (c : Char) (hc : c ∈ letters) := isPrefixLetter_ink (List.all_eq_true.1 hletters c hc)
  rw [(isCode_letters hletters).emptied_append, (hempty hbefore).1.emptied_append,
    (isCode_quoted hquote hinner).emptied_append, emptied_quoted hquote hinner,
    emptied_of_not_quote fun c hc => (hink c hc).1]
  refine List.forall_mem_append.2 ⟨fun c hc => ⟨(hink c hc).2.2.1, (hink c hc).2.2.2.1⟩, ?_⟩
  exact List.forall_mem_append.2 ⟨(hempty hbefore).2, List.forall_mem_append.2 ⟨hpair, (hempty hafter).2⟩⟩

theorem not_mem_expandTabs {c : Char} (hc : c ≠ ' ') (h : c ∉ s) : c ∉ expandTabs s := by
  induction s with
  | nil => exact h
  | cons d s ih =>
    rw [List.mem_cons, not_or] at h
    rw [expandTabs_cons, List.mem_append, not_or]
    refine ⟨?_, ih h.2⟩
    unfold expandTab
    split
    · simp [hc]
    · rw [List.mem_singleton]
      exact h.1

theorem IsPlain.expandTabs (h : IsPlain s) : IsPlain (expandTabs s) := by
  obtain ⟨letters, quote, triple, inner, hletters, hquote, hinner, rfl⟩ := h
  have hspace : quote ≠ ' ' := by
    rintro rfl
    cases hquote
  have htab : quote ≠ '\t' := by
    rintro rfl
    cases hquote
  have hquotes : Line.expandTabs (Lexer.quotesOf quote triple) = Lexer.quotesOf quote triple := by
    refine expandTabs_eq_self fun c hc => ?_
    obtain rfl : c = quote := by
      unfold Lexer.quotesOf at hc
      split at hc
      · simpa using hc
      · simpa using hc
    exact htab
  have hprefix : Line.expandTabs letters = letters :=
    expandTabs_eq_self fun c hc => (isPrefixLetter_ink (List.all_eq_true.1 hletters c hc)).2.2.2.2
  refine ⟨letters, quote, triple, Line.expandTabs inner, hletters, hquote, not_mem_expandTabs hspace hinner, ?_⟩
  rw [expandTabs_append, expandTabs_append, expandTabs_append, hquotes, hprefix]

/-! ## Texts of tokens -/

def isPlainInk (c : Char) : Bool := !isBlank c && !isBracket c && !isQuote c && c != '#'

theorem isPlainInk_iff {c : Char} :
    isPlainInk c = true ↔ isBlank c = false ∧ isBracket c = false ∧ isQuote c = false ∧ c ≠ '#' := by
  simp only [isPlainInk, Bool.and_eq_true, Bool.not_eq_true', bne_iff_ne, and_assoc]

/-- Is no comma among some tokens outside of brackets? -/
def CommaFree (tokens : List Token) : Prop :=
  ∀ front t back, tokens = front ++ t :: back → t.isSign "," = true → ¬Nested front

instance (tokens : List Token) : Decidable (CommaFree tokens) :=
  decidable_of_iff (∀ i (h : i < tokens.length), tokens[i].isSign "," = true → ¬Nested (tokens.take i)) <| by
    constructor
    · rintro h front t back rfl ht
      have hlt : front.length < (front ++ t :: back).length := by simp
      simpa [ht] using h front.length hlt
    · intro h i hi ht
      exact h (tokens.take i) tokens[i] (tokens.drop (i + 1)) (by simp) ht

theorem CommaFree.tail {front tokens : List Token} (h : CommaFree (front ++ tokens)) (hfront : Nested front) :
    CommaFree tokens := by
  intro before t back htokens ht hbefore
  refine h (front ++ before) t back ?_ ht (hfront.append hbefore)
  rw [htokens, List.append_assoc]

/-- A text on one line that some tokens write, with blanks before each of them: brackets match, and string literals are
plain. -/
inductive Written : List Token → List Char → Prop
  | nil : Written [] []
  | token {t : Token} {tokens : List Token} {gap text : List Char} (hgap : AllBlank gap) (ht : t.edge = .inside)
      (hink : ∀ c ∈ t.text.toList, isPlainInk c = true) (hcomma : ',' ∈ t.text.toList → t.isSign "," = true)
      (h : Written tokens text) : Written (t :: tokens) (gap ++ (t.text.toList ++ text))
  | literal {span tokens : List Token} {gap literal text : List Char} (hgap : AllBlank gap) (hspan : Nested span)
      (hliteral : IsPlain literal) (h : Written tokens text) : Written (span ++ tokens) (gap ++ (literal ++ text))
  | group {b : Bracket} {opener closer : Token} {inner tokens : List Token} {gap gap' inside text : List Char} {o c : Char}
      (hgap : AllBlank gap) (hgap' : AllBlank gap') (hopen : opener.edge = .opens b) (hclose : closer.edge = .closes b)
      (hbracket : closer? o = some c) (hinner : Written inner inside) (h : Written tokens text) :
      Written (opener :: (inner ++ closer :: tokens)) (gap ++ o :: (inside ++ (gap' ++ c :: text)))

section Written

variable {tokens : List Token} {text : List Char}

theorem Written.nested (h : Written tokens text) : Nested tokens := by
  induction h with
  | nil => exact .nil
  | token _ ht _ _ _ ih => exact .inside ht ih
  | literal _ hspan _ _ ih => exact hspan.append ih
  | group _ _ hopen hclose _ _ _ ihinner ih => exact .group hopen hclose ihinner ih

theorem isCode_bracket {o : Char} (ho : isBracket o = true) : IsCode [o] := by
  have hall : ∀ c ∈ ['(', ')', '[', ']', '\x7b', '\x7d'], IsCode [c] := by decide
  exact hall o (List.contains_iff_mem.1 ho)

theorem not_quote_of_bracket {o : Char} (ho : isBracket o = true) : isQuote o = false := by
  have hall : ∀ c ∈ ['(', ')', '[', ']', '\x7b', '\x7d'], isQuote c = false := by decide
  exact hall o (List.contains_iff_mem.1 ho)

theorem Written.isCode (h : Written tokens text) : IsCode text := by
  induction h with
  | nil => rfl
  | token hgap _ hink _ _ ih =>
    refine (isCode_of_allBlank hgap).append (.append (isCode_of_plainChars fun c hc => ?_) ih)
    exact (isPlainInk_iff.1 (hink c hc)).2.2
  | literal hgap _ hliteral _ ih => exact (isCode_of_allBlank hgap).append (hliteral.isCode.append ih)
  | group hgap hgap' _ _ hbracket _ _ ihinner ih =>
    obtain ⟨ho, hc⟩ := isBracket_of_closer? hbracket
    have hclosed := (isCode_of_allBlank hgap').append ((isCode_bracket hc).append ih)
    exact (isCode_of_allBlank hgap).append ((isCode_bracket ho).append (ihinner.append hclosed))

theorem grouped_of_allBlank {gap : List Char} (h : AllBlank gap) : Grouped gap gap := by
  refine grouped_of_plain fun c hc => ?_
  cases hbracket : isBracket c with
  | false => rfl
  | true =>
    have hblank := (bracket_ink c hbracket).1
    rw [h c hc] at hblank
    cases hblank

theorem comma_not_mem_of_allBlank {gap : List Char} (h : AllBlank gap) : ',' ∉ gap := not_mem_of_allBlank rfl h

/-- With strings empty and groups dropped, there is a comma only where a token outside brackets is one. -/
theorem Written.exists_grouped (h : Written tokens text) :
    ∃ left, Grouped (emptied text) left ∧ (CommaFree tokens → ',' ∉ left) := by
  induction h with
  | nil => exact ⟨[], .nil, fun _ => List.not_mem_nil⟩
  | @token t tokens gap text hgap ht hink hcomma h ih =>
    obtain ⟨left, hleft, hfree⟩ := ih
    have hchars (c : Char) (hc : c ∈ t.text.toList) := isPlainInk_iff.1 (hink c hc)
    have hcode : IsCode t.text.toList := isCode_of_plainChars fun c hc => (hchars c hc).2.2
    refine ⟨gap ++ (t.text.toList ++ left), ?_, fun hall => ?_⟩
    · rw [emptied_append_blanks hgap, hcode.emptied_append, emptied_of_not_quote fun c hc => (hchars c hc).2.2.1]
      exact (grouped_of_allBlank hgap).append ((grouped_of_plain fun c hc => (hchars c hc).2.1).append hleft)
    · have htext : ',' ∉ t.text.toList := fun hin => hall [] t tokens rfl (hcomma hin) .nil
      rw [List.mem_append, List.mem_append]
      rintro (hin | hin | hin)
      · exact comma_not_mem_of_allBlank hgap hin
      · exact htext hin
      · exact hfree (@CommaFree.tail [t] tokens hall (.inside ht .nil)) hin
  | @literal span tokens gap literal text hgap hspan hliteral h ih =>
    obtain ⟨left, hleft, hfree⟩ := ih
    refine ⟨gap ++ (emptied literal ++ left), ?_, fun hall => ?_⟩
    · rw [emptied_append_blanks hgap, hliteral.isCode.emptied_append]
      exact (grouped_of_allBlank hgap).append
        ((grouped_of_plain fun c hc => (hliteral.emptied_ink c hc).1).append hleft)
    · rw [List.mem_append, List.mem_append]
      rintro (hin | hin | hin)
      · exact comma_not_mem_of_allBlank hgap hin
      · exact (hliteral.emptied_ink _ hin).2 rfl
      · exact hfree (hall.tail hspan) hin
  | @group b opener closer inner tokens gap gap' inside text o c hgap hgap' hopen hclose hbracket hinner h ihinner ih =>
    obtain ⟨left, hleft, hfree⟩ := ih
    obtain ⟨within, hwithin, -⟩ := ihinner
    obtain ⟨ho, hc⟩ := isBracket_of_closer? hbracket
    refine ⟨gap ++ left, ?_, fun hall => ?_⟩
    · have hinside : emptied (gap ++ o :: (inside ++ (gap' ++ c :: text))) =
          gap ++ o :: ((emptied inside ++ gap') ++ c :: emptied text) := by
        rw [emptied_append_blanks hgap, emptied_cons_of_ne (not_quote_of_bracket ho), hinner.isCode.emptied_append,
          emptied_append_blanks hgap', emptied_cons_of_ne (not_quote_of_bracket hc), List.append_assoc]
      rw [hinside]
      exact (grouped_of_allBlank hgap).append (.group hbracket (hwithin.append (grouped_of_allBlank hgap')) hleft)
    · rw [List.mem_append]
      rintro (hin | hin)
      · exact comma_not_mem_of_allBlank hgap hin
      · refine hfree (@CommaFree.tail (opener :: (inner ++ [closer])) tokens ?_ ?_) hin
        · rwa [List.cons_append, List.append_assoc]
        · exact .group hopen hclose hinner.nested .nil

/-- With spaces for tabs the same tokens are written. -/
theorem Written.expandTabs (h : Written tokens text) : Written tokens (expandTabs text) := by
  induction h with
  | nil => exact .nil
  | token hgap ht hink hcomma _ ih =>
    have hsame := expandTabs_eq_self (s := Token.text _ |>.toList) fun c hc => by
      rintro rfl
      have hblank := (isPlainInk_iff.1 (hink _ hc)).1
      cases hblank
    rw [expandTabs_append, expandTabs_append, hsame]
    exact .token (allBlank_expandTabs hgap) ht hink hcomma ih
  | literal hgap hspan hliteral _ ih =>
    rw [expandTabs_append, expandTabs_append]
    exact .literal (allBlank_expandTabs hgap) hspan hliteral.expandTabs ih
  | group hgap hgap' hopen hclose hbracket _ _ ihinner ih =>
    have hne {d : Char} (hd : isBracket d = true) : d ≠ '\t' := by
      rintro rfl
      cases hd
    obtain ⟨ho, hc⟩ := isBracket_of_closer? hbracket
    rw [expandTabs_append, expandTabs_cons_of_ne (hne ho), expandTabs_append, expandTabs_append,
      expandTabs_cons_of_ne (hne hc)]
    exact .group (allBlank_expandTabs hgap) (allBlank_expandTabs hgap') hopen hclose hbracket ihinner ih

end Written

end Line

/-! ## Texts of a source -/

def extentOf (tokens : List Token) : Extent :=
  ⟨(tokens.head?.map Token.start).getD .start, (tokens.getLast?.map Token.stop).getD .start⟩

theorem extentOf_concat (first last : Token) (between : List Token) :
    extentOf (first :: (between ++ [last])) = ⟨first.start, last.stop⟩ := by
  rw [extentOf, ← List.cons_append, List.getLast?_concat]
  rfl

inductive IsString : List Token → Prop
  | plain {t : Token} (ht : t.kind = .string) : IsString [t]
  | formatted {opener closer : Token} {inner : List Token} (hopen : opener.kind = .formatOpen) (hinner : Nested inner)
      (hclose : closer.kind = .formatClose) : IsString (opener :: (inner ++ [closer]))

/-- Are all string literals among some tokens of a source plain? -/
def PlainStrings (source : List Char) (tokens : List Token) : Prop :=
  ∀ span, span <:+: tokens → IsString span → Line.IsPlain ((extentOf span).text source)

theorem PlainStrings.part {source : List Char} {tokens part : List Token} (h : PlainStrings source tokens)
    (hpart : part <:+: tokens) : PlainStrings source part :=
  fun span hspan => h span (hspan.trans hpart)

theorem plainStrings_of_forall {source : List Char} {tokens : List Token} (h : ∀ t ∈ tokens, t.kind ≠ .formatOpen ∧
    (t.kind = .string → Line.IsPlain (Extent.text ⟨t.start, t.stop⟩ source))) : PlainStrings source tokens := by
  intro span hspan hstring
  cases hstring with
  | @plain t ht => exact (h t (hspan.subset (List.mem_singleton_self t))).2 ht
  | @formatted opener closer inner hopen => exact absurd hopen (h opener (hspan.subset List.mem_cons_self)).1

/-- Blanks for the lexer that are none for the line scanner. -/
def isZeroWidth (c : Char) : Bool := c == '\ufeff' || c == '\u2060' || c == '\u200b'

/-- Does a text stand on one line, without blanks that the line scanner does not know? -/
def Tidy (s : List Char) : Prop := ∀ c ∈ s, c ≠ '\n' ∧ isZeroWidth c = false

theorem text_of_drop {source gap text rest : List Char} {place : Place} (h : source.drop place.offset = gap ++ (text ++ rest)) :
    Extent.text ⟨place.after gap, (place.after gap).after text⟩ source = text := by
  have hdrop : source.drop (place.offset + gap.length) = text ++ rest := by
    rw [← List.drop_drop, h, List.drop_left]
  simp only [Extent.text, Place.offset_after, hdrop, Nat.add_sub_cancel_left, List.take_left]

theorem drop_after {source front behind : List Char} {place : Place} (h : source.drop place.offset = front ++ behind) :
    source.drop (place.after front).offset = behind := by
  rw [Place.offset_after, ← List.drop_drop, h, List.drop_left]

namespace Lexer

open Line

section Texts

variable {source : List Char} {depth : Nat} {place : Place} {text : List Char} {t : Token} {tokens rest : List Token}

theorem isBlank_of_gapBlank {c : Char} (h : isGapBlank c = true) (hwidth : isZeroWidth c = false) : isBlank c = true := by
  simp only [isZeroWidth, Bool.or_eq_false_iff] at hwidth
  simp only [isGapBlank, blankIndent?, hwidth, Bool.or_false] at h
  split at h
  · next hc =>
    obtain rfl := beq_iff_eq.1 hc
    rfl
  · split at h
    · next hc =>
      obtain rfl := beq_iff_eq.1 hc
      rfl
    · split at h
      · next hc =>
        rw [Bool.or_eq_true, beq_iff_eq, beq_iff_eq] at hc
        rcases hc with rfl | rfl <;> rfl
      · split at h
        · next hc =>
          obtain rfl := beq_iff_eq.1 hc
          rfl
        · cases h

theorem Found.allBlank {gap behind : List Char} {modes' : List Mode} (h : Found [.code depth] place gap t behind modes')
    (hgap : Tidy gap) : AllBlank gap := by
  have hblank := h.gap_blank ⟨depth, [], rfl⟩ fun hin => (hgap _ hin).1 rfl
  exact fun c hc => isBlank_of_gapBlank (hblank c hc) (hgap c hc).2

/-- The code points of the characters that the line scanner looks for. -/
def markCodes : List Nat := blankCodes ++ [0x22, 0x23, 0x27, 0x28, 0x29, 0x2C, 0x5B, 0x5D, 0x7B, 0x7D]

theorem toNat_mem_markCodes {c : Char} (h : isPlainInk c = false ∨ c = ',') : c.toNat ∈ markCodes := by
  by_cases hblank : isBlank c = true
  · exact List.mem_append_left _ (toNat_mem_blankCodes hblank)
  · refine List.mem_append_right _ ?_
    simp only [Bool.not_eq_true] at hblank
    simp only [isPlainInk, hblank, Bool.not_false, Bool.true_and, Bool.and_eq_false_iff, Bool.not_eq_false', bne_eq_false_iff_eq,
      isQuote, Bool.or_eq_true, beq_iff_eq] at h
    rcases h with ((h | h | h) | h) | h
    · have hall : ∀ d ∈ ['(', ')', '[', ']', '\x7b', '\x7d'],
          d.toNat ∈ [0x22, 0x23, 0x27, 0x28, 0x29, 0x2C, 0x5B, 0x5D, 0x7B, 0x7D] := by decide
      exact hall c (List.contains_iff_mem.1 h)
    all_goals
      subst h
      decide

theorem plainInk_of {p : Char → Bool} (hp : ∀ n ∈ markCodes, p (Char.ofNat n) = false) {c : Char} (hc : p c = true) :
    isPlainInk c = true ∧ c ≠ ',' := by
  by_contra h
  rw [not_and_or, not_not, Bool.not_eq_true] at h
  have hnot := hp _ (toNat_mem_markCodes h)
  rw [Char.ofNat_toNat, hc] at hnot
  cases hnot

theorem plainInk_of_isIdentChar {c : Char} (hc : isIdentChar c = true) : isPlainInk c = true ∧ c ≠ ',' :=
  plainInk_of (by decide +kernel) hc

theorem plainInk_of_isNumberChar {c : Char} (hc : isNumberChar c = true) : isPlainInk c = true ∧ c ≠ ',' :=
  plainInk_of (by decide) hc

theorem plainInk_of_sign {sign : String} (h : sign ∈ signs) (hedge : signEdge sign = .inside) :
    (∀ c ∈ sign.toList, isPlainInk c = true) ∧ (',' ∈ sign.toList → sign = ",") := by
  have hall : ∀ sign ∈ signs, signEdge sign = .inside →
      (∀ c ∈ sign.toList, isPlainInk c = true) ∧ (',' ∈ sign.toList → sign = ",") := by decide
  exact hall sign h hedge

/-- The token at the front of code, if it is no bracket: a string literal, or one without anything that the line scanner looks
for. -/
theorem Lexeme.plainInk {behind : List Char} {modes' : List Mode}
    (h : Lexeme [.code depth] t.kind t.text.toList behind modes') (ht : t.edge = .inside) :
    t.kind = .string ∨
      (∀ c ∈ t.text.toList, isPlainInk c = true) ∧ (',' ∈ t.text.toList → t.isSign "," = true) := by
  have hclass {p : Char → Bool} (hp : ∀ {c}, p c = true → isPlainInk c = true ∧ c ≠ ',')
      (hall : t.text.toList.all p = true) :
      (∀ c ∈ t.text.toList, isPlainInk c = true) ∧ (',' ∈ t.text.toList → t.isSign "," = true) := by
    rw [List.all_eq_true] at hall
    exact ⟨fun c hc => (hp (hall c hc)).1, fun hin => absurd rfl (hp (hall _ hin)).2⟩
  generalize hkind : t.kind = kind at h
  generalize htext : t.text.toList = text at h
  cases h with
  | name hall => exact .inr (htext ▸ hclass plainInk_of_isIdentChar (htext ▸ hall))
  | number hall => exact .inr (htext ▸ hclass plainInk_of_isNumberChar (htext ▸ hall))
  | string => exact .inl rfl
  | @sign _ _ sign _ hsign =>
    have hedge := edge_of_sign hkind htext
    rw [ht] at hedge
    obtain ⟨hink, hcomma⟩ := plainInk_of_sign hsign hedge.symm
    refine .inr ⟨hink, fun hin => ?_⟩
    obtain rfl := hcomma hin
    rw [Token.isSign, hkind, String.toList_injective htext]
    rfl
  | conversion houter => exact absurd rfl houter
  | holeColon houter => exact absurd rfl houter
  | formatOpen | holeOpen | holeClose | invalid =>
    rw [Token.edge, hkind] at ht
    cases ht

def bracketOf? : Edge → Option Char
  | .opens .round => some '('
  | .opens .square => some '['
  | .opens .curly => some '\x7b'
  | .closes .round => some ')'
  | .closes .square => some ']'
  | .closes .curly => some '\x7d'
  | _ => none

theorem closer?_of_bracketOf? {b : Bracket} {o c : Char} (ho : bracketOf? (.opens b) = some o)
    (hc : bracketOf? (.closes b) = some c) : closer? o = some c := by
  cases b with
  | round | square | curly =>
    cases ho
    cases hc
    rfl
  | format | hole => cases ho

theorem bracketOf?_of_sign (hkind : t.kind = .sign) (ht : t.edge ≠ .inside) :
    (bracketOf? t.edge).map (fun c => [c]) = some t.text.toList := by
  have hall : ∀ text ∈ ["(", ")", "[", "]", "\x7b", "\x7d"],
      (bracketOf? (signEdge text)).map (fun c => [c]) = some text.toList := by decide
  have hedge : t.edge = signEdge t.text := by rw [Token.edge, hkind]
  rw [hedge] at ht ⊢
  refine hall t.text ?_
  by_contra hmem
  simp only [List.mem_cons, List.not_mem_nil, or_false, not_or] at hmem
  refine ht ?_
  simp only [signEdge, beq_eq_false_iff_ne.2, hmem, ne_eq, not_false_eq_true, Bool.false_eq_true, if_false]

theorem not_format_of_sign (hkind : t.kind = .sign) : t.edge ≠ .opens .format ∧ t.edge ≠ .closes .format := by
  constructor <;>
  · intro hedge
    have hnone := bracketOf?_of_sign hkind (by rw [hedge]; exact Edge.noConfusion)
    rw [hedge] at hnone
    cases hnone

theorem sign_of_opens {b : Bracket} (h : t.edge = .opens b) (hformat : b ≠ .format) (hhole : b ≠ .hole) : t.kind = .sign := by
  cases hkind : t.kind with
  | sign => rfl
  | formatOpen =>
    rw [Token.edge, hkind] at h
    cases h
    exact absurd rfl hformat
  | holeOpen =>
    rw [Token.edge, hkind] at h
    cases h
    exact absurd rfl hhole
  | name | number | string | formatClose | holeClose | conversion | lineEnd | invalid | finish =>
    rw [Token.edge, hkind] at h
    cases h

theorem sign_of_closes {b : Bracket} (h : t.edge = .closes b) (hformat : b ≠ .format) (hhole : b ≠ .hole) :
    t.kind = .sign := by
  cases hkind : t.kind with
  | sign => rfl
  | formatClose =>
    rw [Token.edge, hkind] at h
    cases h
    exact absurd rfl hformat
  | holeClose =>
    rw [Token.edge, hkind] at h
    cases h
    exact absurd rfl hhole
  | name | number | string | formatOpen | holeOpen | conversion | lineEnd | invalid | finish =>
    rw [Token.edge, hkind] at h
    cases h

theorem kind_of_format : (t.edge = .opens .format → t.kind = .formatOpen) ∧ (t.edge = .closes .format → t.kind = .formatClose) := by
  cases hkind : t.kind with
  | sign =>
    obtain ⟨hopens, hcloses⟩ := not_format_of_sign hkind
    exact ⟨fun h => absurd h hopens, fun h => absurd h hcloses⟩
  | formatOpen =>
    refine ⟨fun _ => rfl, fun h => ?_⟩
    rw [Token.edge, hkind] at h
    cases h
  | formatClose =>
    refine ⟨fun h => ?_, fun _ => rfl⟩
    rw [Token.edge, hkind] at h
    cases h
  | name | number | string | holeOpen | holeClose | conversion | lineEnd | invalid | finish =>
    constructor <;>
    · intro h
      rw [Token.edge, hkind] at h
      cases h

theorem tidy_append {s t : List Char} : Tidy (s ++ t) ↔ Tidy s ∧ Tidy t := List.forall_mem_append

theorem Found.extent_text {modes modes' : List Mode} {gap behind : List Char} (h : Found modes place gap t behind modes')
    (hsource : source.drop place.offset = gap ++ (t.text.toList ++ behind)) :
    Extent.text ⟨t.start, t.stop⟩ source = t.text.toList := by
  rw [h.stop, h.start]
  exact text_of_drop hsource

theorem exists_found_of_mem (ht : t ∈ Python.tokens source) (hne : t.text ≠ "") :
    ∃ modes place gap behind modes', source.drop place.offset = gap ++ (t.text.toList ++ behind) ∧
      Found modes place gap t behind modes' := by
  have hsome {modes : List Mode} {place : Place} {text : List Char} {tokens : List Token}
      (h : Spelled modes place text tokens) (hsource : source.drop place.offset = text) (ht : t ∈ tokens) :
      ∃ modes place gap behind modes', source.drop place.offset = gap ++ (t.text.toList ++ behind) ∧
        Found modes place gap t behind modes' := by
    induction h with
    | finish hends =>
      rcases List.mem_append.1 ht with ht | ht
      · rcases hends with rfl | ⟨e, rfl, -, he, -⟩
        · cases ht
        · obtain rfl := List.mem_singleton.1 ht
          exact absurd he hne
      · obtain rfl := List.mem_singleton.1 ht
        exact absurd rfl hne
    | token hends hfound _ ih =>
      rcases List.mem_append.1 ht with ht | ht
      · rcases hends with rfl | ⟨-, e, rfl, -, he, -⟩
        · cases ht
        · obtain rfl := List.mem_singleton.1 ht
          exact absurd he hne
      · rcases List.mem_cons.1 ht with rfl | ht
        · exact ⟨_, _, _, _, _, hsource, hfound⟩
        · refine ih ?_ ht
          rw [hfound.place_behind]
          exact drop_after (by rw [hsource, List.append_assoc])
  exact hsome (spelled_tokens source) rfl ht

end Texts

/-! ## Texts put together -/

/-- Where some tokens end that start at or behind some place. -/
def stopOf (place : Place) (tokens : List Token) : Place := (tokens.getLast?.map Token.stop).getD place

theorem stopOf_cons (place : Place) (t : Token) (tokens : List Token) : stopOf place (t :: tokens) = stopOf t.stop tokens := by
  rw [stopOf, stopOf, List.getLast?_cons]
  cases tokens.getLast? <;> rfl

theorem stopOf_append (place : Place) (a b : List Token) : stopOf place (a ++ b) = stopOf (stopOf place a) b := by
  induction a generalizing place with
  | nil => rfl
  | cons t a ih => rw [List.cons_append, stopOf_cons, stopOf_cons, ih]

theorem extentOf_cons (t : Token) (tokens : List Token) : extentOf (t :: tokens) = ⟨t.start, stopOf t.stop tokens⟩ := by
  rw [extentOf, stopOf, List.getLast?_cons]
  cases tokens.getLast? <;> rfl

/-- Wherever some tokens stand in a source, their text and what follows it have some property if the text is tidy. -/
def Writes (source : List Char) (modes modes' : List Mode) (tokens : List Token) (P : List Char → List Char → Prop) :
    Prop :=
  ∀ place text rest, Spelled modes place text (tokens ++ rest) → source.drop place.offset = text →
    ∃ front behind, text = front ++ behind ∧ place.after front = stopOf place tokens ∧
      Spelled modes' (stopOf place tokens) behind rest ∧ (Tidy front → P front behind)

section Writes

variable {source : List Char} {modes modes₁ modes₂ : List Mode} {depth : Nat} {b : Bracket} {t : Token}
  {first second tokens : List Token} {P Q R : List Char → List Char → Prop}

theorem Writes.mono (h : Writes source modes modes₁ tokens P) (hPQ : ∀ front behind, P front behind → Q front behind) :
    Writes source modes modes₁ tokens Q := by
  intro place text rest hspelled hsource
  obtain ⟨front, behind, htext, hplace, hrest, hfront⟩ := h place text rest hspelled hsource
  exact ⟨front, behind, htext, hplace, hrest, fun htidy => hPQ front behind (hfront htidy)⟩

/-- The texts of tokens stand one behind the other. -/
theorem Writes.append (hfirst : Writes source modes modes₁ first P) (hsecond : Writes source modes₁ modes₂ second Q)
    (hR : ∀ front back behind, P front (back ++ behind) → Q back behind → R (front ++ back) behind) :
    Writes source modes modes₂ (first ++ second) R := by
  intro place text rest hspelled hsource
  rw [List.append_assoc] at hspelled
  obtain ⟨front, between, rfl, hplace, hbetween, hfront⟩ := hfirst place text (second ++ rest) hspelled hsource
  have hsource' : source.drop (stopOf place first).offset = between := hplace ▸ drop_after hsource
  obtain ⟨back, behind, rfl, hplace', hbehind, hback⟩ := hsecond _ between rest hbetween hsource'
  refine ⟨front ++ back, behind, (List.append_assoc ..).symm, ?_, ?_, fun htidy => ?_⟩
  · rw [Place.after_append, hplace, hplace', stopOf_append]
  · rwa [stopOf_append]
  · obtain ⟨htidy, htidy'⟩ := tidy_append.1 htidy
    exact hR front back behind (hfront htidy) (hback htidy')

theorem writes_nil (hP : ∀ behind, P [] behind) : Writes source modes modes [] P := by
  intro place text rest hspelled _
  exact ⟨[], text, rfl, rfl, hspelled, fun _ => hP text⟩

/-- One token, of which it is known what it does to the modes and what it says where it is found. -/
theorem writes_one (ht : t.edge ≠ .outside)
    (h : ∀ place gap behind modes', Found modes place gap t behind modes' →
      Extent.text ⟨t.start, t.stop⟩ source = t.text.toList → modes' = modes₁ ∧ (Tidy gap → P (gap ++ t.text.toList) behind)) :
    Writes source modes modes₁ [t] P := by
  intro place text rest hspelled hsource
  obtain ⟨gap, behind, modes', rfl, hfound, hbehind⟩ := hspelled.exists_token ht
  obtain ⟨rfl, hP⟩ := h place gap behind modes' hfound (hfound.extent_text hsource)
  exact ⟨gap ++ t.text.toList, behind, (List.append_assoc ..).symm, hfound.place_behind.symm, hbehind,
    fun htidy => hP (tidy_append.1 htidy).1⟩

theorem writes_token (ht : t.edge = .inside) :
    Writes source [.code depth] [.code depth] [t] (fun front behind => ∃ gap, AllBlank gap ∧
      front = gap ++ t.text.toList ∧ Extent.text ⟨t.start, t.stop⟩ source = t.text.toList ∧
        Lexeme [.code depth] t.kind t.text.toList behind [.code depth]) := by
  refine writes_one (by rw [ht]; exact Edge.noConfusion) fun place gap behind modes' hfound htext => ?_
  obtain rfl := (hfound.lexeme.kept ht).eq_of_code
  exact ⟨rfl, fun htidy => ⟨gap, hfound.allBlank htidy, rfl, htext, hfound.lexeme⟩⟩

theorem writes_opener (ht : t.edge = .opens b) (hformat : b ≠ .format) (hhole : b ≠ .hole) :
    Writes source [.code depth] [.code (depth + 1)] [t] (fun front _ => ∃ gap o, AllBlank gap ∧
      bracketOf? (.opens b) = some o ∧ front = gap ++ [o]) := by
  refine writes_one (by rw [ht]; exact Edge.noConfusion) fun place gap behind modes' hfound _ => ?_
  have hmodes : modes' = [.code (depth + 1)] := by
    cases hfound.lexeme.entered ht with
    | bracket => rfl
    | format => exact absurd rfl hformat
    | hole => exact absurd rfl hhole
  have hbracket := bracketOf?_of_sign (sign_of_opens ht hformat hhole) (by rw [ht]; exact Edge.noConfusion)
  obtain ⟨o, ho, htext⟩ := Option.map_eq_some_iff.1 hbracket
  rw [ht] at ho
  exact ⟨hmodes, fun htidy => ⟨gap, o, hfound.allBlank htidy, ho, by rw [htext]⟩⟩

theorem writes_closer (ht : t.edge = .closes b) (hformat : b ≠ .format) (hhole : b ≠ .hole) :
    Writes source [.code (depth + 1)] [.code depth] [t] (fun front _ => ∃ gap c, AllBlank gap ∧
      bracketOf? (.closes b) = some c ∧ front = gap ++ [c]) := by
  refine writes_one (by rw [ht]; exact Edge.noConfusion) fun place gap behind modes' hfound _ => ?_
  have hentered : Entered b [.code depth] [.code (depth + 1)] := .bracket hformat hhole
  have hmodes := hfound.lexeme.left ht hentered (.inl rfl)
  have hbracket := bracketOf?_of_sign (sign_of_closes ht hformat hhole) (by rw [ht]; exact Edge.noConfusion)
  obtain ⟨c, hc, htext⟩ := Option.map_eq_some_iff.1 hbracket
  rw [ht] at hc
  exact ⟨hmodes, fun htidy => ⟨gap, c, hfound.allBlank htidy, hc, by rw [htext]⟩⟩

theorem writes_formatted {opener closer : Token} {inner : List Token} (hopen : opener.edge = .opens .format)
    (hinner : Nested inner) (hclose : closer.edge = .closes .format) :
    Writes source [.code depth] [.code depth] (opener :: (inner ++ [closer])) (fun front _ => ∃ gap literal, AllBlank gap ∧
      (extentOf (opener :: (inner ++ [closer]))).text source = literal ∧ front = gap ++ literal) := by
  intro place text rest hspelled hsource
  rw [List.cons_append, List.append_assoc, List.singleton_append] at hspelled
  obtain ⟨gap, behind, modes₁, rfl, hfound, hbehind⟩ := hspelled.exists_token (by rw [hopen]; exact Edge.noConfusion)
  obtain ⟨inside, behind', modes₂, rfl, hbehind', hkept⟩ := hbehind.keeps hinner
  obtain ⟨gap', rest', modes₃, rfl, hfound', hrest⟩ := hbehind'.exists_token (by rw [hclose]; exact Edge.noConfusion)
  obtain rfl := hfound'.lexeme.left hclose (hfound.lexeme.entered hopen) hkept
  have hstop : stopOf place (opener :: (inner ++ [closer])) = closer.stop := by
    rw [stopOf_cons, stopOf_append]
    rfl
  have hliteral : closer.stop =
      opener.start.after (opener.text.toList ++ (inside ++ (gap' ++ closer.text.toList))) := by
    rw [hfound'.place_behind, hfound.stop]
    simp only [Place.after_append]
  refine ⟨gap ++ (opener.text.toList ++ (inside ++ (gap' ++ closer.text.toList))), rest', ?_, ?_, ?_, fun htidy => ?_⟩
  · simp only [List.append_assoc]
  · rw [Place.after_append, ← hfound.start, ← hliteral, hstop]
  · rwa [hstop]
  · refine ⟨gap, _, hfound.allBlank (tidy_append.1 htidy).1, ?_, rfl⟩
    rw [extentOf_concat, hliteral, hfound.start]
    refine text_of_drop (?_ : _ = _ ++ (_ ++ rest'))
    rw [hsource]
    simp only [List.append_assoc]

theorem writes_hole (ht : t.edge = .opens .hole) : Writes source [.code depth] modes (t :: tokens) P := by
  intro place text rest hspelled _
  obtain ⟨gap, behind, modes', -, hfound, -⟩ := hspelled.exists_token (by rw [ht]; exact Edge.noConfusion)
  cases hfound.lexeme.entered ht with
  | bracket _ hhole => exact absurd rfl hhole
  | hole hm => exact absurd rfl (hm depth)

theorem writes_group {opener closer : Token} {inner : List Token} (hopen : opener.edge = .opens b)
    (hclose : closer.edge = .closes b) (hformat : b ≠ .format) (hhole : b ≠ .hole)
    (hinner : Writes source [.code (depth + 1)] [.code (depth + 1)] inner (fun front _ => Written inner front))
    (htokens : Writes source [.code depth] [.code depth] tokens (fun front _ => Written tokens front)) :
    Writes source [.code depth] [.code depth] (opener :: (inner ++ closer :: tokens))
      (fun front _ => Written (opener :: (inner ++ closer :: tokens)) front) := by
  have hclosed := (writes_closer hclose hformat hhole).append
    (R := fun front _ => ∃ gap c text, AllBlank gap ∧ bracketOf? (.closes b) = some c ∧ Written tokens text ∧
      front = gap ++ c :: text)
    htokens fun front back behind hfront hback => by
      obtain ⟨gap, c, hgap, hc, rfl⟩ := hfront
      exact ⟨gap, c, back, hgap, hc, hback, by rw [List.append_assoc]; rfl⟩
  have hinside := hinner.append
    (R := fun front _ => ∃ inside gap c text, Written inner inside ∧ AllBlank gap ∧ bracketOf? (.closes b) = some c ∧
      Written tokens text ∧ front = inside ++ (gap ++ c :: text))
    hclosed fun front back behind hfront hback => by
      obtain ⟨gap, c, text, hgap, hc, htext, rfl⟩ := hback
      exact ⟨front, gap, c, text, hfront, hgap, hc, htext, rfl⟩
  refine (writes_opener hopen hformat hhole).append hinside fun front back behind hfront hback => ?_
  obtain ⟨gap, o, hgap, ho, rfl⟩ := hfront
  obtain ⟨inside, gap', c, text, hinside, hgap', hc, htext, rfl⟩ := hback
  rw [List.append_assoc, List.singleton_append]
  exact .group hgap hgap' hopen hclose (closer?_of_bracketOf? ho hc) hinside htext

/-- Tokens in which brackets match, if the strings among them are plain. -/
theorem writes_nested (htokens : Nested tokens) (hplain : PlainStrings source tokens) :
    Writes source [.code depth] [.code depth] tokens (fun front _ => Written tokens front) := by
  induction htokens generalizing depth with
  | nil => exact writes_nil fun _ => .nil
  | @inside t tokens ht htokens ih =>
    refine (writes_token ht).append (ih (hplain.part (List.suffix_cons t tokens).isInfix)) ?_
    rintro _ back behind ⟨gap, hgap, rfl, htext, hlexeme⟩ hback
    rw [List.append_assoc]
    rcases hlexeme.plainInk ht with hstring | ⟨hink, hcomma⟩
    · have hliteral : IsPlain (Extent.text ⟨t.start, t.stop⟩ source) := hplain [t] ⟨[], tokens, rfl⟩ (.plain hstring)
      rw [htext] at hliteral
      exact @Written.literal [t] _ _ _ _ hgap (.inside ht .nil) hliteral hback
    · exact .token hgap ht hink hcomma hback
  | @group b opener closer inner tokens hopen hclose hinner htokens ihinner ih =>
    have hbehind : Writes source [.code depth] [.code depth] tokens (fun front _ => Written tokens front) :=
      ih (hplain.part ⟨opener :: (inner ++ [closer]), [], by simp⟩)
    have hsplit : opener :: (inner ++ closer :: tokens) = opener :: (inner ++ [closer]) ++ tokens := by simp
    cases b with
    | round | square | curly =>
      have hinside : Writes source [.code (depth + 1)] [.code (depth + 1)] inner (fun front _ => Written inner front) :=
        ihinner (hplain.part ⟨[opener], closer :: tokens, by simp⟩)
      exact writes_group hopen hclose Bracket.noConfusion Bracket.noConfusion hinside hbehind
    | format =>
      rw [hsplit]
      refine (writes_formatted hopen hinner hclose).append hbehind ?_
      rintro _ back behind ⟨gap, literal, hgap, rfl, rfl⟩ hback
      have hspan : IsString (opener :: (inner ++ [closer])) :=
        .formatted (kind_of_format.1 hopen) hinner (kind_of_format.2 hclose)
      rw [List.append_assoc]
      exact .literal hgap (.group hopen hclose hinner .nil) (hplain _ ⟨[], tokens, by rw [List.nil_append, ← hsplit]⟩ hspan) hback
    | hole => exact writes_hole hopen

end Writes

end Lexer

end Consolidation.Python
