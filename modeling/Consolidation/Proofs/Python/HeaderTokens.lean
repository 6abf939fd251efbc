/-
# `Proofs.Python.HeaderTokens` — the text of a header's tokens

What the line scanner reads on a line (`OneLineHeader`) is put together here from the tokens that the grammar reads
(`IsHeader`), part by part.

The parameters have to be such that the scanner can tell them apart (`IsReadable`): no comma stands in them outside of
brackets.

The parts are put together in the order of the text: a word (`writes_word`), a parameter with what follows its name
(`writes_detail`), the parameters with commas between them (`writes_parameters`), the bracket that closes them and the
result (`writes_closing`), the name and the bracket that opens them (`writes_signature`), and the header behind its first
word (`writes_header`).  Each says of the tokens what their text is like wherever they stand, since blanks between tokens
are not known from the tree.
-/
import Consolidation.Proofs.Python.HeaderText
import Consolidation.Proofs.Python.Signatures

namespace Consolidation.Python

open Text

/-! ## The parameters of a tree -/

/-- The name that a tree gives to a parameter. -/
def nameIn (source : List Char) (p : Tree) : Option (List Char) := p.namingNode?.map (·.text source)

namespace Tree

def parameters (t : Tree) : List Tree := ((t.child? .parameters).map children).getD []

theorem parameterNames_eq (source : List Char) (t : Tree) :
    t.parameterNames source = t.parameters.filterMap (nameIn source) := by
  rw [parameterNames, parameters]
  cases t.child? .parameters <;> rfl

theorem definition?_eq_some {source : List Char} {f : Tree} {d : Definition} (h : f.definition? source = some d) :
    f.kind = .functionDefinition ∧ ∃ name, f.child? .identifier = some name ∧ d.name = name.text source ∧
      d.args = f.parameterNames source ∧ d.firstLine = f.extent.start.row + 1 ∧
        d.docstring = (f.child? .block).bind (docstring? source) := by
  rw [definition?] at h
  by_cases hkind : f.kind = .functionDefinition
  · rw [hkind, bne_self_eq_false, if_neg Bool.false_ne_true] at h
    obtain ⟨name, hname, hd⟩ := Option.bind_eq_some_iff.1 h
    cases hd
    exact ⟨hkind, name, hname, rfl, rfl, rfl, rfl⟩
  · rw [if_pos (bne_iff_ne.2 hkind)] at h
    cases h

end Tree

namespace Lexer

open Line

/-! ## Signs and words -/

section Signs

variable {source : List Char} {depth : Nat} {t : Token}

theorem writes_sign {sign : String} (ht : t.isSign sign = true) (hedge : signEdge sign = .inside) :
    Writes source [.code depth] [.code depth] [t] (fun front _ => ∃ gap, AllBlank gap ∧ front = gap ++ sign.toList) := by
  refine (writes_token ((Token.edge_of_isSign ht).trans hedge)).mono fun front behind h => ?_
  obtain ⟨gap, hgap, hfront, -⟩ := h
  rw [Token.isSign, Bool.and_eq_true, beq_iff_eq, beq_iff_eq] at ht
  exact ⟨gap, hgap, by rw [hfront, ht.2]⟩

theorem writes_open (ht : t.isSign "(" = true) :
    Writes source [.code depth] [.code (depth + 1)] [t] (fun front _ => ∃ gap, AllBlank gap ∧ front = gap ++ ['(']) := by
  refine (writes_opener (b := .round) (Token.edge_of_isSign ht) Bracket.noConfusion Bracket.noConfusion).mono fun _ _ h => ?_
  obtain ⟨gap, o, hgap, ho, rfl⟩ := h
  cases ho
  exact ⟨gap, hgap, rfl⟩

theorem writes_close (ht : t.isSign ")" = true) :
    Writes source [.code (depth + 1)] [.code depth] [t] (fun front _ => ∃ gap, AllBlank gap ∧ front = gap ++ [')']) := by
  refine (writes_closer (b := .round) (Token.edge_of_isSign ht) Bracket.noConfusion Bracket.noConfusion).mono fun _ _ h => ?_
  obtain ⟨gap, c, hgap, hc, rfl⟩ := h
  cases hc
  exact ⟨gap, hgap, rfl⟩

/-- May a text follow a word? -/
def EndsWord (behind : List Char) : Prop := (behind.head?.map isIdentChar).getD false = false

theorem Lexeme.of_name {text behind : List Char} {modes : List Mode} (h : Lexeme [.code depth] .name text behind modes) :
    modes = [.code depth] ∧ text.all isIdentChar = true ∧ EndsWord behind := by
  cases h with
  | name hall hmax => exact ⟨rfl, hall, hmax⟩

theorem writes_word (ht : t.kind = .name) :
    Writes source [.code depth] [.code depth] [t] (fun front behind => ∃ gap, AllBlank gap ∧ front = gap ++ t.text.toList ∧
      t.text.toList.all isIdentChar = true ∧ EndsWord behind) := by
  refine (writes_token (Token.edge_of_name ht)).mono fun front behind h => ?_
  obtain ⟨gap, hgap, hfront, -, hlexeme⟩ := h
  rw [ht] at hlexeme
  exact ⟨gap, hgap, hfront, hlexeme.of_name.2⟩

end Signs

/-! ## Parameters -/

/-- A parameter that is a separator, or has a name of which the line scanner sees the end, and no comma in what follows. -/
inductive IsReadable (source : List Char) : List Token → Tree → Prop
  | separator {t : Token} {p : Tree} (ht : t.isSign "*" = true ∨ t.isSign "/" = true) (hname : nameIn source p = none) :
      IsReadable source [t] p
  | named {stars more : List Token} {n : Token} {p : Tree} (hstars : stars = [] ∨ ∃ t, stars = [t] ∧ Grammar.IsStars t)
      (hn : n.kind = .name) (hmore : more = [] ∨ Grammar.IsAnnotation more) (hfree : CommaFree more)
      (hword : IsWord n.text.toList) (hname : nameIn source p = some n.text.toList) :
      IsReadable source (stars ++ n :: more) p

section Parameters

variable {source : List Char} {depth : Nat} {t : Token} {tokens : List Token} {p : Tree} {items : List Tree}

theorem writes_detail (h : tokens = [] ∨ Grammar.IsAnnotation tokens) (hfree : CommaFree tokens)
    (hplain : PlainStrings source tokens) :
    Writes source [.code depth] [.code depth] tokens (fun front _ => IsDetailText (expandTabs front)) := by
  rcases h with rfl | ⟨hnested, t, rest, rfl, ht⟩
  · exact writes_nil fun _ => ⟨rfl, [], .nil, List.not_mem_nil, .inl (List.forall_mem_nil _)⟩
  · obtain ⟨sign, hsign, hink⟩ : ∃ sign : String, t.isSign sign = true ∧ (sign = ":" ∨ sign = "=") := by
      rcases ht with ht | ht
      · exact ⟨":", ht, .inl rfl⟩
      · exact ⟨"=", ht, .inr rfl⟩
    have hedge : signEdge sign = .inside := by rcases hink with rfl | rfl <;> rfl
    have hinside : t.edge = .inside := by
      rcases ht with ht | ht
      · exact Token.edge_of_isSign ht
      · exact Token.edge_of_isSign ht
    have hrest : Nested rest := by
      have hnest := nested_iff.1 hnested
      rw [nest_cons, hinside] at hnest
      exact nested_iff.2 hnest
    have hfree' : CommaFree rest := @CommaFree.tail [t] rest hfree (.inside hinside .nil)
    refine (writes_sign hsign hedge).append (writes_nested hrest (hplain.part (List.suffix_cons t rest).isInfix)) ?_
    rintro _ second behind ⟨gap, hgap, rfl⟩ hsecond
    obtain ⟨left, hleft, hcomma⟩ := hsecond.expandTabs.exists_grouped
    obtain ⟨c, htext, hc⟩ : ∃ c, sign.toList = [c] ∧ (c = ':' ∨ c = '=') := by
      rcases hink with rfl | rfl
      · exact ⟨':', rfl, .inl rfl⟩
      · exact ⟨'=', rfl, .inr rfl⟩
    have hmark : isQuote c = false ∧ c ≠ '#' ∧ isBracket c = false ∧ c ≠ ',' ∧ c ≠ '\t' := by
      rcases hc with rfl | rfl <;> decide
    have hgap' := allBlank_expandTabs hgap
    rw [htext, List.append_assoc, List.singleton_append, expandTabs_append, expandTabs_cons_of_ne hmark.2.2.2.2]
    refine ⟨?_, expandTabs gap ++ c :: left, ?_, ?_, .inr ⟨_, c, left, hgap', hc, rfl⟩⟩
    · exact (isCode_of_allBlank hgap').append
        ((isCode_singleton hmark.2.1 hmark.1).append hsecond.expandTabs.isCode)
    · rw [emptied_append_blanks hgap', emptied_cons_of_ne hmark.1]
      exact (grouped_of_allBlank hgap').append (.plain hmark.2.2.1 hleft)
    · rw [List.mem_append, List.mem_cons]
      rintro (hin | hin | hin)
      · exact comma_not_mem_of_allBlank hgap' hin
      · exact hmark.2.2.2.1 hin.symm
      · exact hcomma hfree' hin

theorem expandTabs_word {name : List Char} (h : IsWord name) : expandTabs name = name := by
  obtain ⟨c, tail, -, -, hall⟩ := h.exists_cons
  refine expandTabs_eq_self fun d hd => ?_
  rintro rfl
  have hblank := (word_ink _ (hall _ hd)).1
  cases hblank

theorem writes_stars (h : tokens = [] ∨ ∃ t, tokens = [t] ∧ Grammar.IsStars t) :
    Writes source [.code depth] [.code depth] tokens (fun front _ => ∃ gap stars, AllBlank gap ∧
      (stars = [] ∨ stars = ['*'] ∨ stars = ['*', '*']) ∧ expandTabs front = gap ++ stars) := by
  rcases h with rfl | ⟨t, rfl, ht⟩
  · exact writes_nil fun _ => ⟨[], [], List.forall_mem_nil _, .inl rfl, rfl⟩
  · rcases ht with ht | ht
    · refine (writes_sign ht rfl).mono fun _ _ h => ?_
      obtain ⟨gap, hgap, rfl⟩ := h
      exact ⟨expandTabs gap, ['*'], allBlank_expandTabs hgap, .inr (.inl rfl), expandTabs_append gap _⟩
    · refine (writes_sign ht rfl).mono fun _ _ h => ?_
      obtain ⟨gap, hgap, rfl⟩ := h
      exact ⟨expandTabs gap, ['*', '*'], allBlank_expandTabs hgap, .inr (.inr rfl), expandTabs_append gap _⟩

theorem writes_parameter (h : IsReadable source tokens p) (hplain : PlainStrings source tokens) :
    Writes source [.code depth] [.code depth] tokens (fun front _ => IsPiece (expandTabs front) (nameIn source p)) := by
  cases h with
  | @separator t p ht hname =>
    have hpiece {sign : String} {c : Char} (htext : sign.toList = [c]) (hc : c = '*' ∨ c = '/') (ht : t.isSign sign = true)
        (hedge : signEdge sign = .inside) :
        Writes source [.code depth] [.code depth] [t] (fun front _ => IsPiece (expandTabs front) (nameIn source p)) := by
      refine (writes_sign ht hedge).mono fun _ _ h => ?_
      obtain ⟨gap, hgap, rfl⟩ := h
      have htab : c ≠ '\t' := by rcases hc with rfl | rfl <;> decide
      rw [htext, expandTabs_append, expandTabs_cons_of_ne htab, hname]
      exact isPiece_separator (allBlank_expandTabs hgap) hc
    rcases ht with ht | ht
    · exact hpiece rfl (.inl rfl) ht rfl
    · exact hpiece rfl (.inr rfl) ht rfl
  | @named stars more n p hstars hn hmore hfree hword hname =>
    have hmorePlain : PlainStrings source more :=
      hplain.part ((List.suffix_cons n more).trans (List.suffix_append stars _)).isInfix
    have hnamed : Writes source [.code depth] [.code depth] [n] _ := writes_token (Token.edge_of_name hn)
    have hbehind := hnamed.append
      (R := fun front _ => ∃ gap detail, AllBlank gap ∧ IsDetailText detail ∧
        expandTabs front = gap ++ (n.text.toList ++ detail))
      (writes_detail hmore hfree hmorePlain) fun first second behind hfirst hsecond => by
        obtain ⟨gap, hgap, rfl, -⟩ := hfirst
        refine ⟨expandTabs gap, expandTabs second, allBlank_expandTabs hgap, hsecond, ?_⟩
        rw [expandTabs_append, expandTabs_append, expandTabs_word hword, List.append_assoc]
    refine (writes_stars hstars).append hbehind fun first second behind hfirst hsecond => ?_
    obtain ⟨gap, text, hgap, htext, hfirst⟩ := hfirst
    obtain ⟨gap', detail, hgap', hdetail, hsecond⟩ := hsecond
    rw [expandTabs_append, hfirst, hsecond, List.append_assoc, hname]
    exact isPiece_named hgap htext hgap' hword hdetail

theorem writes_parameters (h : Parser.Listed (IsReadable source) tokens items) (hplain : PlainStrings source tokens) :
    Writes source [.code depth] [.code depth] tokens
      (fun front _ => Declares (expandTabs front) (items.filterMap (nameIn source))) := by
  induction h with
  | nil => exact writes_nil fun _ => declares_nil
  | single h =>
    refine (writes_parameter h hplain).mono fun front _ hpiece => ?_
    rw [filterMap_cons_toList]
    exact (List.append_nil _).symm ▸ hpiece.declares
  | @cons tokens more comma p items h hcomma _ ih =>
    have hfirst : Writes source [.code depth] [.code depth] tokens _ :=
      writes_parameter h (hplain.part (List.prefix_append tokens _).isInfix)
    have hrest := ih (hplain.part ((List.suffix_cons comma more).trans (List.suffix_append tokens _)).isInfix)
    have hseparated : Writes source [.code depth] [.code depth] [comma] _ := writes_sign hcomma rfl
    have hbehind := hseparated.append
      (R := fun front _ => ∃ gap more, AllBlank gap ∧ Declares more (items.filterMap (nameIn source)) ∧
        expandTabs front = gap ++ ',' :: more)
      hrest fun first second behind hfirst hsecond => by
        obtain ⟨gap, hgap, rfl⟩ := hfirst
        refine ⟨expandTabs gap, expandTabs second, allBlank_expandTabs hgap, hsecond, ?_⟩
        rw [List.append_assoc, expandTabs_append]
        rfl
    refine hfirst.append hbehind fun first second behind hfirst hsecond => ?_
    obtain ⟨gap, more, hgap, hmore, hsecond⟩ := hsecond
    rw [expandTabs_append, hsecond, filterMap_cons_toList]
    exact .cons hfirst hgap hmore

end Parameters

/-! ## Headers -/

section Headers

variable {source : List Char} {depth : Nat} {t : Token} {tokens : List Token} {items : List Tree}

theorem writes_result (h : tokens = [] ∨ Grammar.IsResult tokens) (hplain : PlainStrings source tokens) :
    Writes source [.code depth] [.code depth] tokens (fun front _ => IsResultText (expandTabs front)) := by
  rcases h with rfl | ⟨hnested, t, rest, rfl, ht⟩
  · exact writes_nil fun _ => ⟨rfl, .inl rfl⟩
  · have hrest : Nested rest := by
      have hnest := nested_iff.1 hnested
      rw [nest_cons, Token.edge_of_isSign ht] at hnest
      exact nested_iff.2 hnest
    refine (writes_sign ht rfl).append (writes_nested hrest (hplain.part (List.suffix_cons t rest).isInfix)) ?_
    rintro _ second behind ⟨gap, hgap, rfl⟩ hsecond
    have harrow : IsCode "->".toList := by decide
    rw [List.append_assoc, expandTabs_append]
    refine ⟨?_, .inr ⟨expandTabs gap, expandTabs second, allBlank_expandTabs hgap, rfl⟩⟩
    exact (isCode_of_allBlank (allBlank_expandTabs hgap)).append (harrow.append hsecond.expandTabs.isCode)

theorem writes_closing {closer colon : Token} {result : List Token} (hcloser : closer.isSign ")" = true)
    (hresult : result = [] ∨ Grammar.IsResult result) (hcolon : colon.isSign ":" = true) (hplain : PlainStrings source result) :
    Writes source [.code (depth + 1)] [.code depth] (closer :: (result ++ [colon]))
      (fun front _ => IsClosing (expandTabs front)) := by
  have hanswer : Writes source [.code depth] [.code depth] result _ := writes_result hresult hplain
  have hend := hanswer.append
    (R := fun front _ => ∃ result gap, IsResultText result ∧ AllBlank gap ∧ expandTabs front = result ++ (gap ++ [':']))
    (writes_sign hcolon rfl) fun first second behind hfirst hsecond => by
      obtain ⟨gap, hgap, rfl⟩ := hsecond
      refine ⟨expandTabs first, expandTabs gap, hfirst, allBlank_expandTabs hgap, ?_⟩
      rw [expandTabs_append, expandTabs_append]
      rfl
  refine (writes_close hcloser).append hend fun first second behind hfirst hsecond => ?_
  obtain ⟨gap, hgap, rfl⟩ := hfirst
  obtain ⟨result, gap', hresult, hgap', hsecond⟩ := hsecond
  rw [List.append_assoc, expandTabs_append, List.singleton_append, expandTabs_cons_of_ne (by decide), hsecond]
  exact .intro (allBlank_expandTabs hgap) hresult hgap'

theorem writes_signature {opener closer colon : Token} {inner result : List Token} (hopener : opener.isSign "(" = true)
    (hitems : Parser.Listed (IsReadable source) inner items) (hcloser : closer.isSign ")" = true)
    (hresult : result = [] ∨ Grammar.IsResult result) (hcolon : colon.isSign ":" = true)
    (hplain : PlainStrings source (opener :: (inner ++ closer :: (result ++ [colon])))) :
    Writes source [.code depth] [.code depth] (opener :: (inner ++ closer :: (result ++ [colon])))
      (fun front _ => IsSignature (expandTabs front) (items.filterMap (nameIn source))) := by
  have hinner : PlainStrings source inner := hplain.part ⟨[opener], closer :: (result ++ [colon]), by simp⟩
  have hbehind : PlainStrings source result := hplain.part ⟨opener :: (inner ++ [closer]), [colon], by simp⟩
  have hlist : Writes source [.code (depth + 1)] [.code (depth + 1)] inner _ := writes_parameters hitems hinner
  have hrest := hlist.append
    (R := fun front _ => ∃ params closing, Declares params (items.filterMap (nameIn source)) ∧ IsClosing closing ∧
      expandTabs front = params ++ closing)
    (writes_closing hcloser hresult hcolon hbehind) fun first second behind hfirst hsecond =>
      ⟨_, _, hfirst, hsecond, expandTabs_append first second⟩
  refine (writes_open hopener).append hrest fun first second behind hfirst hsecond => ?_
  obtain ⟨gap, hgap, rfl⟩ := hfirst
  obtain ⟨params, closing, hparams, hclosing, hsecond⟩ := hsecond
  rw [List.append_assoc, expandTabs_append, List.singleton_append, expandTabs_cons_of_ne (by decide), hsecond]
  exact .intro (allBlank_expandTabs hgap) hparams hclosing

/-! ### The words before the bracket -/

theorem EndsWord.gap_ne_nil {gap word s : List Char} (h : EndsWord (gap ++ (word ++ s))) (hne : word ≠ [])
    (hall : word.all isIdentChar = true) : expandTabs gap ≠ [] := by
  cases gap with
  | nil =>
    obtain ⟨c, tail, rfl⟩ := List.exists_cons_of_ne_nil hne
    have hc : isIdentChar c = true := List.all_eq_true.1 hall c List.mem_cons_self
    have hend : isIdentChar c = false := h
    rw [hc] at hend
    cases hend
  | cons d gap =>
    rw [expandTabs_cons, expandTab]
    split
    · exact List.cons_ne_nil _ _
    · exact List.cons_ne_nil _ _

theorem writes_named {n : Token} {names : List (List Char)} (hn : n.kind = .name) (hword : IsWord n.text.toList)
    (h : Writes source [.code depth] [.code depth] tokens (fun front _ => IsSignature (expandTabs front) names)) :
    Writes source [.code depth] [.code depth] (n :: tokens) (fun front behind => ∃ gap signature, AllBlank gap ∧
      (EndsWord (front ++ behind) → gap ≠ []) ∧ IsSignature signature names ∧
        expandTabs front = gap ++ (n.text.toList ++ signature)) := by
  refine (writes_word hn).append h fun first second behind hfirst hsecond => ?_
  obtain ⟨gap, hgap, rfl, hall, -⟩ := hfirst
  refine ⟨expandTabs gap, expandTabs second, allBlank_expandTabs hgap, fun hend => ?_, hsecond, ?_⟩
  · obtain ⟨c, tail, htext, -⟩ := hword.exists_cons
    rw [List.append_assoc, List.append_assoc] at hend
    exact hend.gap_ne_nil (by rw [htext]; exact List.cons_ne_nil _ _) hall
  · rw [expandTabs_append, expandTabs_append, expandTabs_word hword, List.append_assoc]

theorem writes_header {lead inner result : List Token} {n opener closer colon : Token} (hlead : Grammar.IsLead lead)
    (hn : n.kind = .name) (hword : IsWord n.text.toList) (hopener : opener.isSign "(" = true)
    (hitems : Parser.Listed (IsReadable source) inner items) (hcloser : closer.isSign ")" = true)
    (hresult : result = [] ∨ Grammar.IsResult result) (hcolon : colon.isSign ":" = true)
    (hplain : PlainStrings source (lead ++ n :: opener :: (inner ++ closer :: (result ++ [colon])))) :
    ∃ t rest, lead ++ n :: opener :: (inner ++ closer :: (result ++ [colon])) = t :: rest ∧ t.kind = .name ∧
      Writes source [.code 0] [.code 0] rest (fun front behind => EndsWord (front ++ behind) →
        OneLineHeader (expandTabs (t.text.toList ++ front)) n.text.toList (items.filterMap (nameIn source))) := by
  have hsignature : PlainStrings source (opener :: (inner ++ closer :: (result ++ [colon]))) :=
    hplain.part ((List.suffix_cons n _).trans (List.suffix_append lead _)).isInfix
  have hnamed : Writes source [.code 0] [.code 0] (n :: opener :: (inner ++ closer :: (result ++ [colon]))) _ :=
    writes_named hn hword (writes_signature hopener hitems hcloser hresult hcolon hsignature)
  have hisWord {t : Token} {text : String} (ht : t.isWord text = true) : t.kind = .name ∧ t.text = text := by
    rwa [Token.isWord, Bool.and_eq_true, beq_iff_eq, beq_iff_eq] at ht
  cases hlead with
  | @plain t ht =>
    obtain ⟨hkind, htext⟩ := hisWord ht
    refine ⟨t, _, rfl, hkind, hnamed.mono fun front behind h hend => ?_⟩
    obtain ⟨gap, signature, hgap, hne, hsignature, hfront⟩ := h
    rw [htext, expandTabs_append, hfront, ← List.append_assoc]
    exact .intro (.plain hgap (hne hend)) hword hsignature
  | @async a t ha ht =>
    obtain ⟨hkind, htext⟩ := hisWord ha
    obtain ⟨hkind', htext'⟩ := hisWord ht
    refine ⟨a, _, rfl, hkind, (writes_word hkind').append hnamed fun first second behind hfirst hsecond hend => ?_⟩
    obtain ⟨gap, hgap, rfl, hall, hend'⟩ := hfirst
    obtain ⟨gap', signature, hgap', hne', hsignature, hsecond⟩ := hsecond
    rw [List.append_assoc, List.append_assoc] at hend
    have hne : expandTabs gap ≠ [] := hend.gap_ne_nil (by rw [htext']; exact List.cons_ne_nil _ _) hall
    have hdef : expandTabs "def".toList = "def".toList := by decide
    have hlead := IsLeadText.async (allBlank_expandTabs hgap) hne hgap' (hne' hend')
    rw [htext, htext', expandTabs_append, expandTabs_append, expandTabs_append, hsecond, hdef]
    have hheader := OneLineHeader.intro hlead hword hsignature
    simp only [List.append_assoc] at hheader ⊢
    exact hheader

end Headers

end Lexer

end Consolidation.Python
