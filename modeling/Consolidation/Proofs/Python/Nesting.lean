/-
# `Proofs.Python.Nesting` — the modes of the lexer and the brackets of the tokens

The lexer changes its mode where a bracket, a formatted string or a hole opens or closes.  It does not compare what closes
with what was opened; `nest` does.  Where brackets match (`Nested`), the modes behind some tokens are those before them
(`Spelled.keeps`), but for one case: in a hole the colon of a format ends the expression.

| token | brackets | modes |
| :-- | :-- | :-- |
| no bracket | as before | as before (`Lexeme.kept`) |
| opens one | one more | entered (`Lexeme.entered`) |
| closes one | one fewer, if it is the last one opened | left, whatever was opened (`Lexeme.left`) |

The induction is on the way in which brackets match: a run of tokens that are no brackets, or a bracket, what matches
inside it, its closing one, and what matches behind that.  `nested_iff` says that this is no other notion than that of
`nest`, for which brackets match if the same ones are open before and behind.
-/
import Consolidation.Proofs.Python.Reading
import Consolidation.Proofs.Python.Spelling

namespace Consolidation.Python

/-! ## Tokens in which brackets match -/

/-- Tokens in which every bracket that is opened is closed, and no other one. -/
inductive Nested : List Token → Prop
  | nil : Nested []
  | inside {t : Token} {tokens : List Token} (ht : t.edge = .inside) (h : Nested tokens) : Nested (t :: tokens)
  | group {b : Bracket} {opener closer : Token} {inner tokens : List Token} (hopen : opener.edge = .opens b)
      (hclose : closer.edge = .closes b) (hinner : Nested inner) (h : Nested tokens) :
      Nested (opener :: (inner ++ closer :: tokens))

section Nested

variable {b : Bracket} {stack stack' : List Bracket} {t : Token} {tokens : List Token}

theorem Nested.append {more : List Token} (h : Nested tokens) (hmore : Nested more) : Nested (tokens ++ more) := by
  induction h with
  | nil => exact hmore
  | inside ht _ ih => exact .inside ht ih
  | group hopen hclose hinner _ _ ih =>
    rw [List.cons_append, List.append_assoc, List.cons_append]
    exact .group hopen hclose hinner ih

theorem Nested.edge_ne (h : Nested tokens) : ∀ t ∈ tokens, t.edge ≠ .outside := by
  induction h with
  | nil => exact List.forall_mem_nil _
  | inside ht _ ih => exact List.forall_mem_cons.2 ⟨by rw [ht]; exact Edge.noConfusion, ih⟩
  | group hopen hclose _ _ ihinner ih =>
    refine List.forall_mem_cons.2 ⟨by rw [hopen]; exact Edge.noConfusion, List.forall_mem_append.2 ⟨ihinner, ?_⟩⟩
    exact List.forall_mem_cons.2 ⟨by rw [hclose]; exact Edge.noConfusion, ih⟩

theorem Nested.nest_eq (h : Nested tokens) (stack : List Bracket) : nest stack tokens = some stack := by
  induction h generalizing stack with
  | nil => rfl
  | inside ht _ ih =>
    rw [nest_cons, ht]
    exact ih stack
  | @group b opener closer inner tokens hopen hclose _ _ ihinner ih =>
    have hpop : (Edge.closes b).pushed (b :: stack) = some stack := if_pos rfl
    rw [nest_cons, hopen]
    show nest (b :: stack) (inner ++ closer :: tokens) = some stack
    rw [nest_append, ihinner, Option.bind_some, nest_cons, hclose, hpop]
    exact ih stack

/-- Where a bracket is closed in the end, there is a token that closes it, and brackets match before that. -/
theorem exists_closer (h : nest (b :: stack) tokens = some stack') (hlength : stack'.length ≤ stack.length) :
    ∃ inner closer rest, tokens = inner ++ closer :: rest ∧ Nested inner ∧ closer.edge = .closes b ∧
      nest stack rest = some stack' := by
  induction hn : tokens.length using Nat.strong_induction_on generalizing b stack tokens with
  | _ n ih =>
    subst hn
    cases tokens with
    | nil =>
      obtain rfl := Option.some.inj h
      rw [List.length_cons] at hlength
      omega
    | cons t tokens =>
      rw [nest_cons] at h
      cases hedge : t.edge with
      | inside =>
        rw [hedge] at h
        obtain ⟨inner, closer, rest, rfl, hinner, hcloser, hrest⟩ := ih _ (Nat.lt_succ_self _) h hlength rfl
        exact ⟨t :: inner, closer, rest, rfl, .inside hedge hinner, hcloser, hrest⟩
      | outside =>
        rw [hedge] at h
        cases h
      | closes b' =>
        rw [hedge] at h
        by_cases hb : b' = b
        · subst hb
          rw [Edge.pushed, if_pos rfl, Option.bind_some] at h
          exact ⟨[], t, tokens, rfl, .nil, hedge, h⟩
        · rw [Edge.pushed, if_neg hb] at h
          cases h
      | opens b' =>
        -- first what `t` opens is closed, and then what was open before
        rw [hedge] at h
        have hlength' : stack'.length ≤ (b :: stack).length := Nat.le_succ_of_le hlength
        obtain ⟨inner, closer, rest, rfl, hinner, hcloser, hrest⟩ := ih _ (Nat.lt_succ_self _) h hlength' rfl
        have hshort : rest.length < (t :: (inner ++ closer :: rest)).length := by
          rw [List.length_cons, List.length_append, List.length_cons]
          omega
        obtain ⟨inner', closer', rest', rfl, hinner', hcloser', hrest'⟩ := ih _ hshort hrest hlength rfl
        refine ⟨t :: (inner ++ closer :: inner'), closer', rest', ?_, .group hedge hcloser hinner hinner', hcloser',
          hrest'⟩
        rw [List.cons_append, List.append_assoc, List.cons_append]

/-- Brackets match exactly if the same ones are open before and behind. -/
theorem nested_iff : Nested tokens ↔ nest [] tokens = some [] := by
  constructor
  · exact fun h => h.nest_eq []
  · intro h
    induction hn : tokens.length using Nat.strong_induction_on generalizing tokens with
    | _ n ih =>
      subst hn
      cases tokens with
      | nil => exact .nil
      | cons t tokens =>
        rw [nest_cons] at h
        cases hedge : t.edge with
        | inside =>
          rw [hedge] at h
          exact .inside hedge (ih _ (Nat.lt_succ_self _) h rfl)
        | outside =>
          rw [hedge] at h
          cases h
        | closes b =>
          rw [hedge] at h
          cases h
        | opens b =>
          rw [hedge] at h
          obtain ⟨inner, closer, rest, rfl, hinner, hcloser, hrest⟩ := exists_closer h (Nat.le_refl _)
          have hshort : rest.length < (t :: (inner ++ closer :: rest)).length := by
            rw [List.length_cons, List.length_append, List.length_cons]
            omega
          exact .group hedge hcloser hinner (ih _ hshort hrest rfl)

instance (tokens : List Token) : Decidable (Nested tokens) := decidable_of_iff _ nested_iff.symm

end Nested

/-! ## Modes -/

namespace Lexer

section Modes

variable {b : Bracket} {t : Token} {behind : List Char} {modes modes' modes₁ modes₂ : List Mode}

inductive Entered : Bracket → List Mode → List Mode → Prop
  | bracket {b : Bracket} {depth : Nat} {outer : List Mode} (hformat : b ≠ .format) (hhole : b ≠ .hole) :
      Entered b (.code depth :: outer) (.code (depth + 1) :: outer)
  | format {depth : Nat} {quote : Char} {triple raw : Bool} {outer : List Mode} :
      Entered .format (.code depth :: outer) (.text quote triple raw :: .code depth :: outer)
  | hole {m : Mode} {outer : List Mode} (hm : ∀ depth, m ≠ .code depth) : Entered .hole (m :: outer) (.code 0 :: m :: outer)

/-- The modes before some tokens, and those behind them if brackets match there: the same ones, unless the colon of a format came
in a hole. -/
def Kept (modes modes' : List Mode) : Prop :=
  modes' = modes ∨ ∃ outer, modes = .code 0 :: outer ∧ modes' = .format :: outer ∧ outer ≠ []

theorem Kept.trans (h : Kept modes modes₁) (h' : Kept modes₁ modes₂) : Kept modes modes₂ := by
  rcases h with rfl | ⟨outer, rfl, rfl, houter⟩
  · exact h'
  · rcases h' with rfl | ⟨outer', h, -, -⟩
    · exact .inr ⟨outer, rfl, rfl, houter⟩
    · cases h

theorem Kept.eq_of_code {depth : Nat} (h : Kept [.code depth] modes) : modes = [.code depth] := by
  rcases h with h | ⟨outer, hmodes, -, houter⟩
  · exact h
  · obtain ⟨-, rfl⟩ := List.cons.inj hmodes
    exact absurd rfl houter

theorem edge_of_opensBracket {sign : String} (h : opensBracket sign = true) :
    ∃ b, signEdge sign = .opens b ∧ b ≠ .format ∧ b ≠ .hole := by
  simp only [opensBracket, Bool.or_eq_true, beq_iff_eq] at h
  rcases h with (rfl | rfl) | rfl
  · exact ⟨.round, rfl, Bracket.noConfusion, Bracket.noConfusion⟩
  · exact ⟨.square, rfl, Bracket.noConfusion, Bracket.noConfusion⟩
  · exact ⟨.curly, rfl, Bracket.noConfusion, Bracket.noConfusion⟩

theorem edge_of_closesBracket {sign : String} (h : closesBracket sign = true) :
    ∃ b, signEdge sign = .closes b ∧ b ≠ .format ∧ b ≠ .hole := by
  simp only [closesBracket, Bool.or_eq_true, beq_iff_eq] at h
  rcases h with (rfl | rfl) | rfl
  · exact ⟨.round, rfl, Bracket.noConfusion, Bracket.noConfusion⟩
  · exact ⟨.square, rfl, Bracket.noConfusion, Bracket.noConfusion⟩
  · exact ⟨.curly, rfl, Bracket.noConfusion, Bracket.noConfusion⟩

theorem edge_of_plainSign {sign : String} (hopens : opensBracket sign = false) (hcloses : closesBracket sign = false) :
    signEdge sign = .inside := by
  simp only [opensBracket, closesBracket, Bool.or_eq_false_iff] at hopens hcloses
  simp only [signEdge, hopens, hcloses, Bool.false_eq_true, if_false]

theorem depthBehind_eq (depth : Nat) (sign : String) :
    (signEdge sign = .inside ∧ depthBehind depth sign = depth) ∨
      (∃ b, signEdge sign = .opens b ∧ b ≠ .format ∧ b ≠ .hole ∧ depthBehind depth sign = depth + 1) ∨
        ∃ b, signEdge sign = .closes b ∧ b ≠ .format ∧ b ≠ .hole ∧ depthBehind depth sign = depth - 1 := by
  unfold depthBehind
  cases hopens : opensBracket sign with
  | true =>
    obtain ⟨b, hb, hformat, hhole⟩ := edge_of_opensBracket hopens
    exact .inr (.inl ⟨b, hb, hformat, hhole, rfl⟩)
  | false =>
    cases hcloses : closesBracket sign with
    | true =>
      obtain ⟨b, hb, hformat, hhole⟩ := edge_of_closesBracket hcloses
      exact .inr (.inr ⟨b, hb, hformat, hhole, rfl⟩)
    | false => exact .inl ⟨edge_of_plainSign hopens hcloses, rfl⟩

theorem edge_of_sign {t : Token} {sign : String} (hkind : t.kind = .sign) (htext : t.text.toList = sign.toList) :
    t.edge = signEdge sign := by
  rw [Token.edge, hkind, String.toList_injective htext]

theorem Lexeme.kept (h : Lexeme modes t.kind t.text.toList behind modes') (ht : t.edge = .inside) :
    Kept modes modes' := by
  generalize hkind : t.kind = kind at h
  generalize htext : t.text.toList = text at h
  cases h with
  | name => exact .inl rfl
  | number => exact .inl rfl
  | string => exact .inl rfl
  | @sign depth outer sign =>
    have hedge := edge_of_sign hkind htext
    rw [ht] at hedge
    rcases depthBehind_eq depth sign with ⟨-, hdepth⟩ | ⟨b, hb, -⟩ | ⟨b, hb, -⟩
    · rw [hdepth]
      exact .inl rfl
    · cases hedge.trans hb
    · cases hedge.trans hb
  | conversion => exact .inl rfl
  | holeColon houter => exact .inr ⟨_, rfl, rfl, houter⟩
  | formatOpen | formatClose | holeOpen | holeClose | formattedHoleClose | invalid =>
    rw [Token.edge, hkind] at ht
    cases ht

theorem Lexeme.entered (h : Lexeme modes t.kind t.text.toList behind modes') (ht : t.edge = .opens b) :
    Entered b modes modes' := by
  generalize hkind : t.kind = kind at h
  generalize htext : t.text.toList = text at h
  cases h with
  | @sign depth outer sign =>
    have hedge := edge_of_sign hkind htext
    rw [ht] at hedge
    rcases depthBehind_eq depth sign with ⟨hb, -⟩ | ⟨b', hb, hformat, hhole, hdepth⟩ | ⟨b', hb, -⟩
    · cases hedge.trans hb
    · rw [hdepth]
      cases hedge.trans hb
      exact .bracket hformat hhole
    · cases hedge.trans hb
  | holeColon =>
    have hedge : t.edge = signEdge ":" := edge_of_sign hkind htext
    rw [ht] at hedge
    cases hedge
  | formatOpen =>
    rw [Token.edge, hkind] at ht
    cases ht
    exact .format
  | holeOpen hm =>
    rw [Token.edge, hkind] at ht
    cases ht
    exact .hole hm
  | name | number | string | conversion | formatClose | holeClose | formattedHoleClose | invalid =>
    rw [Token.edge, hkind] at ht
    cases ht

/-- The token that closes a bracket leads back to the modes before it. -/
theorem Lexeme.left (h : Lexeme modes₂ t.kind t.text.toList behind modes') (ht : t.edge = .closes b)
    (hentered : Entered b modes modes₁) (hkept : Kept modes₁ modes₂) : modes' = modes := by
  generalize hkind : t.kind = kind at h
  generalize htext : t.text.toList = text at h
  cases h with
  | @sign depth outer sign =>
    have hedge := edge_of_sign hkind htext
    rw [ht] at hedge
    rcases depthBehind_eq depth sign with ⟨hb, -⟩ | ⟨b', hb, -⟩ | ⟨b', hb, hformat, hhole, hdepth⟩
    · cases hedge.trans hb
    · cases hedge.trans hb
    · cases hedge.trans hb
      rw [hdepth]
      cases hentered with
      | bracket =>
        rcases hkept with h | ⟨outer', h, -, -⟩
        · cases h
          rfl
        · cases h
      | format => exact absurd rfl hformat
      | hole => exact absurd rfl hhole
  | holeColon =>
    have hedge : t.edge = signEdge ":" := edge_of_sign hkind htext
    rw [ht] at hedge
    cases hedge
  | formatClose =>
    rw [Token.edge, hkind] at ht
    cases ht
    cases hentered with
    | bracket hformat _ => exact absurd rfl hformat
    | format =>
      rcases hkept with h | ⟨outer', h, -, -⟩
      · cases h
        rfl
      · cases h
  | holeClose =>
    rw [Token.edge, hkind] at ht
    cases ht
    cases hentered with
    | bracket _ hhole => exact absurd rfl hhole
    | hole =>
      rcases hkept with h | ⟨outer', -, h, -⟩
      · cases h
        rfl
      · cases h
  | formattedHoleClose =>
    rw [Token.edge, hkind] at ht
    cases ht
    cases hentered with
    | bracket _ hhole => exact absurd rfl hhole
    | hole =>
      rcases hkept with h | ⟨outer', h, h', -⟩
      · cases h
      · cases h
        cases h'
        rfl
  | name | number | string | conversion | formatOpen | holeOpen | invalid =>
    rw [Token.edge, hkind] at ht
    cases ht

end Modes

/-! ## Texts -/

section Texts

variable {modes : List Mode} {place : Place} {text : List Char} {t : Token} {tokens rest : List Token}

theorem edge_of_lineEnd (h : IsLineEnd t) : t.edge = .outside := by
  obtain ⟨comments, indent, hkind⟩ := h
  rw [Token.edge, hkind]

theorem Spelled.text_ne (h : Spelled modes place text tokens) (ht : t ∈ tokens) (hedge : t.edge ≠ .outside) :
    t.text ≠ "" := by
  induction h with
  | finish hends =>
    exfalso
    rcases List.mem_append.1 ht with ht | ht
    · rcases hends with rfl | ⟨e, rfl, he, -⟩
      · cases ht
      · obtain rfl := List.mem_singleton.1 ht
        exact hedge (edge_of_lineEnd he)
    · obtain rfl := List.mem_singleton.1 ht
      exact hedge rfl
  | token hends hfound _ ih =>
    rcases List.mem_append.1 ht with ht | ht
    · exfalso
      rcases hends with rfl | ⟨-, e, rfl, he, -⟩
      · cases ht
      · obtain rfl := List.mem_singleton.1 ht
        exact hedge (edge_of_lineEnd he)
    · rcases List.mem_cons.1 ht with rfl | ht
      · exact hfound.text_ne
      · exact ih ht

theorem Spelled.exists_token (h : Spelled modes place text (t :: tokens)) (ht : t.edge ≠ .outside) :
    ∃ gap behind modes', text = gap ++ (t.text.toList ++ behind) ∧ Found modes place gap t behind modes' ∧
      Spelled modes' t.stop behind tokens :=
  h.exists_found (h.text_ne List.mem_cons_self ht)

/-- The text of tokens in which brackets match, and the modes behind them. -/
theorem Spelled.keeps (h : Spelled modes place text (tokens ++ rest)) (htokens : Nested tokens) :
    ∃ front behind modes', text = front ++ behind ∧ Spelled modes' (place.after front) behind rest ∧
      Kept modes modes' := by
  induction htokens generalizing modes place text rest with
  | nil => exact ⟨[], text, modes, rfl, h, .inl rfl⟩
  | @inside t tokens ht _ ih =>
    obtain ⟨gap, behind, modes₁, rfl, hfound, hbehind⟩ := h.exists_token (by rw [ht]; exact Edge.noConfusion)
    obtain ⟨front, rest', modes', rfl, hrest, hkept⟩ := ih hbehind
    refine ⟨gap ++ (t.text.toList ++ front), rest', modes', by simp only [List.append_assoc], ?_,
      (hfound.lexeme.kept ht).trans hkept⟩
    rwa [← List.append_assoc, Place.after_append, ← hfound.place_behind]
  | @group b opener closer inner tokens hopen hclose _ _ ihinner ih =>
    rw [List.cons_append, List.append_assoc, List.cons_append] at h
    obtain ⟨gap, behind, modes₁, rfl, hfound, hbehind⟩ := h.exists_token (by rw [hopen]; exact Edge.noConfusion)
    obtain ⟨inside, behind', modes₂, rfl, hbehind', hinside⟩ := ihinner hbehind
    obtain ⟨gap', behind'', modes₃, rfl, hfound', hbehind''⟩ :=
      hbehind'.exists_token (by rw [hclose]; exact Edge.noConfusion)
    obtain rfl := hfound'.lexeme.left hclose (hfound.lexeme.entered hopen) hinside
    obtain ⟨front, rest', modes', rfl, hrest, hkept⟩ := ih hbehind''
    refine ⟨gap ++ (opener.text.toList ++ (inside ++ (gap' ++ (closer.text.toList ++ front)))), rest', modes',
      by simp only [List.append_assoc], ?_, hkept⟩
    rw [hfound'.place_behind, hfound.place_behind] at hrest
    simpa only [Place.after_append] using hrest

end Texts

end Lexer

end Consolidation.Python
