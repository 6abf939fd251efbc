/-
# `Proofs.Python.Signatures` — the tokens of a header

What the readers of the grammar make of a header is told here together with the tokens that they take (`Yields`).  A
parameter is a separator, a name perhaps with stars before it and an annotation or a default behind it, or a pattern
(`IsParameter`); between parameters there are commas (`Listed`); and a header is put together of such a list, what stands
before it and what stands behind it (`IsHeader`).  `begins_functionDefinition` says that it is what `functionDefinition`
reads.

The tokens that a reader takes are told by a relation between them and what is returned.  `Yields` says that it holds
where the reader comes to its end, and `Begins` the same of the tokens taken first, for readers that go on with a block of
which nothing is to be known.  A rule for a reader that is put together splits the tokens as the reader does, so the
relations for a parameter, a list and a header are built along the text of the grammar.

What no rule looks at are the tokens of expressions: of these it is only known that brackets match in them
(`Proofs.Python.Expressions`).
-/
import Consolidation.Proofs.Python.Expressions
import Consolidation.Proofs.Python.Wording

namespace Consolidation.Python

namespace Parser

variable {α β : Type} {s : ParseState} {p q : Parser α}

/-- Where a reader comes to an end from some state, it has taken tokens that stand in a relation to what it returns and to the
state behind them. -/
def Yields (s : ParseState) (p : Parser α) (R : List Token → α → ParseState → Prop) : Prop :=
  ∀ a s', p s = .ok (a, s') → ∃ taken, Took s taken s' ∧ R taken a s'

section Rules

variable {Q R : List Token → α → ParseState → Prop}

theorem Yields.mono (h : Yields s p Q) (hR : ∀ taken a s', Took s taken s' → Q taken a s' → R taken a s') :
    Yields s p R := by
  intro a s' hrun
  obtain ⟨taken, htook, ha⟩ := h a s' hrun
  exact ⟨taken, htook, hR taken a s' htook ha⟩

/-- The tokens taken are known where the relation is shown. -/
theorem Yields.of_took (h : Yields s p (fun taken a s' => Took s taken s' → R taken a s')) : Yields s p R :=
  h.mono fun _ _ _ htook ha => ha htook

theorem Yields.fail : Yields s (fail : Parser α) R := fun _ _ h => by cases h

theorem yields_fail_bind {f : β → Parser α} : Yields s (Parser.fail >>= f) R := by
  intro a s' hrun
  obtain ⟨b, s₁, hfail, -⟩ := run_bind_eq_ok.1 hrun
  cases hfail

theorem Yields.pure {a : α} (ha : R [] a s) : Yields s (Pure.pure a : Parser α) R := by
  intro a' s' hrun
  cases hrun
  exact ⟨[], .refl s, ha⟩

theorem Yields.bind {f : α → Parser β} {R : List Token → β → ParseState → Prop} (hp : Yields s p Q)
    (hf : ∀ taken a s₁, Took s taken s₁ → Q taken a s₁ → Yields s₁ (f a) (fun more => R (taken ++ more))) :
    Yields s (p >>= f) R := by
  intro b s' hrun
  obtain ⟨a, s₁, hfirst, hrest⟩ := run_bind_eq_ok.1 hrun
  obtain ⟨taken, htook, ha⟩ := hp a s₁ hfirst
  obtain ⟨more, htook', hb⟩ := hf taken a s₁ htook ha b s' hrest
  exact ⟨taken ++ more, htook.trans htook', hb⟩

theorem Yields.pure_bind {a : β} {f : β → Parser α} (hf : Yields s (f a) R) : Yields s (Pure.pure a >>= f) R := hf

theorem Yields.ite {c : Prop} [Decidable c] (hp : c → Yields s p R) (hq : ¬c → Yields s q R) :
    Yields s (if c then p else q) R := by
  split
  · next hc => exact hp hc
  · next hc => exact hq hc

theorem Yields.peek {f : Token → Parser α} (hf : Yields s (f s.front) R) : Yields s (Parser.peek >>= f) R := hf

theorem Yields.here {f : Place → Parser α} (hf : Yields s (f s.here) R) : Yields s (Parser.here >>= f) R := hf

theorem Yields.bound {f : Nat → Parser α} (hf : Yields s (f (s.rest.length + 1)) R) :
    Yields s (Parser.bound >>= f) R :=
  hf

theorem Yields.advance {f : Unit → Parser α} (h : s.front.kind ≠ .finish)
    (hf : Yields s.advance (f ()) (fun more => R (s.front :: more))) : Yields s (Parser.advance >>= f) R := by
  intro a s' hrun
  obtain ⟨more, htook, ha⟩ := hf a s' hrun
  exact ⟨s.front :: more, (took_advance h).trans htook, ha⟩

theorem Yields.of_steady {Q : α → Prop} (h : Steady p Q) : Yields s p (fun taken a _ => Nested taken ∧ Q a) := by
  intro a s' hrun
  obtain ⟨taken, htook, hnest, ha⟩ := h [] s a s' trivial hrun
  exact ⟨taken, htook, nested_iff.2 hnest, ha⟩

theorem yields_finishNode {start : Place} {kind : NodeKind} {children : List Tree}
    {R : List Token → Tree → ParseState → Prop} (h : R [] (.node kind ⟨start, s.last⟩ children) s) :
    Yields s (finishNode start kind children) R := by
  intro t s' hrun
  cases hrun
  exact ⟨[], .refl s, h⟩

theorem finish_of_isSign {t : Token} {text : String} (h : t.isSign text = true) : t.kind ≠ .finish := by
  rw [Token.isSign, Bool.and_eq_true, beq_iff_eq] at h
  rw [h.1]
  exact TokenKind.noConfusion

theorem finish_of_isWord {t : Token} {text : String} (h : t.isWord text = true) : t.kind ≠ .finish := by
  rw [Token.isWord, Bool.and_eq_true, beq_iff_eq] at h
  rw [h.1]
  exact TokenKind.noConfusion

theorem yields_advance (h : s.front.kind ≠ .finish) :
    Yields s advance (fun taken _ _ => taken = [s.front]) := by
  intro u s' hrun
  cases hrun
  exact ⟨_, took_advance h, rfl⟩

theorem yields_sign (text : String) :
    Yields s (sign text) (fun taken _ _ => ∃ t, taken = [t] ∧ t.isSign text = true) :=
  .peek (.ite (fun hsign => (yields_advance (finish_of_isSign hsign)).mono fun _ _ _ _ h => ⟨_, h, hsign⟩) fun _ => .fail)

theorem yields_word (text : String) :
    Yields s (word text) (fun taken _ _ => ∃ t, taken = [t] ∧ t.isWord text = true) :=
  .peek (.ite (fun hword => (yields_advance (finish_of_isWord hword)).mono fun _ _ _ _ h => ⟨_, h, hword⟩) fun _ => .fail)

theorem yields_word? (text : String) :
    Yields s (word? text) (fun taken found _ => (found = true ∧ ∃ t, taken = [t] ∧ t.isWord text = true) ∨
      (found = false ∧ taken = [])) :=
  .peek (.ite (fun hword => .advance (finish_of_isWord hword) (.pure (.inl ⟨rfl, _, rfl, hword⟩))) fun _ =>
    .pure (.inr ⟨rfl, rfl⟩))

theorem yields_sign? (text : String) :
    Yields s (sign? text) (fun taken found _ => (found = true ∧ ∃ t, taken = [t] ∧ t.isSign text = true) ∨
      (found = false ∧ taken = [])) :=
  .peek (.ite (fun hsign => .advance (finish_of_isSign hsign) (.pure (.inl ⟨rfl, _, rfl, hsign⟩))) fun _ =>
    .pure (.inr ⟨rfl, rfl⟩))

end Rules

/-! ## The beginning of what is read -/

/-- Where a reader comes to an end from some state, it has first taken tokens that stand in a relation to what it returns and to
the state behind them. -/
def Begins (s : ParseState) (p : Parser α) (R : List Token → α → ParseState → Prop) : Prop :=
  ∀ a s', p s = .ok (a, s') → ∃ taken s₁, Took s taken s₁ ∧ R taken a s₁

theorem Begins.bind {f : α → Parser β} {Q : List Token → α → ParseState → Prop} {R : List Token → β → ParseState → Prop}
    (hp : Yields s p Q)
    (hf : ∀ taken a s₁, Took s taken s₁ → Q taken a s₁ → Begins s₁ (f a) (fun more => R (taken ++ more))) :
    Begins s (p >>= f) R := by
  intro b s' hrun
  obtain ⟨a, s₁, hfirst, hrest⟩ := run_bind_eq_ok.1 hrun
  obtain ⟨taken, htook, ha⟩ := hp a s₁ hfirst
  obtain ⟨more, s₂, htook', hb⟩ := hf taken a s₁ htook ha b s' hrest
  exact ⟨taken ++ more, s₂, htook.trans htook', hb⟩

theorem Begins.here {f : Place → Parser α} {R : List Token → α → ParseState → Prop} (hf : Begins s (f s.here) R) :
    Begins s (Parser.here >>= f) R :=
  hf

theorem Begins.mono {Q R : List Token → α → ParseState → Prop} (h : Begins s p Q)
    (hR : ∀ taken a s₁, Q taken a s₁ → R taken a s₁) : Begins s p R := by
  intro a s' hrun
  obtain ⟨taken, s₁, htook, ha⟩ := h a s' hrun
  exact ⟨taken, s₁, htook, hR taken a s₁ ha⟩

/-! ## Lists -/

/-- Items with commas between them, a comma being allowed at the end. -/
inductive Listed (P : List Token → α → Prop) : List Token → List α → Prop
  | nil : Listed P [] []
  | single {tokens : List Token} {a : α} (h : P tokens a) : Listed P tokens [a]
  | cons {tokens more : List Token} {comma : Token} {a : α} {items : List α} (h : P tokens a)
      (hcomma : comma.isSign "," = true) (hmore : Listed P more items) : Listed P (tokens ++ comma :: more) (a :: items)

theorem Listed.imp {P Q : List Token → α → Prop} {tokens : List Token} {items : List α} (h : Listed P tokens items)
    (hPQ : ∀ part a, part <:+: tokens → a ∈ items → P part a → Q part a) : Listed Q tokens items := by
  induction h with
  | nil => exact .nil
  | @single tokens a h => exact .single (hPQ tokens a (List.infix_refl tokens) (List.mem_singleton_self a) h)
  | @cons tokens more comma a items h hcomma _ ih =>
    have hfirst : tokens <:+: tokens ++ comma :: more := (List.prefix_append tokens _).isInfix
    have hrest : more <:+: tokens ++ comma :: more :=
      ((List.suffix_cons comma more).trans (List.suffix_append tokens _)).isInfix
    exact .cons (hPQ tokens a hfirst List.mem_cons_self h) hcomma
      (ih fun part b hpart hb => hPQ part b (hpart.trans hrest) (List.mem_cons_of_mem a hb))

theorem Listed.nested {P : List Token → α → Prop} {tokens : List Token} {items : List α} (h : Listed P tokens items)
    (hP : ∀ part a, P part a → Nested part) : Nested tokens := by
  induction h with
  | nil => exact .nil
  | single h => exact hP _ _ h
  | cons h hcomma _ ih => exact (hP _ _ h).append (.inside (Token.edge_of_isSign hcomma) ih)

theorem yields_commaList {P : List Token → α → Prop} {stops : Token → Bool} {item : Parser α}
    (hitem : ∀ s, Yields s item (fun taken a _ => P taken a)) (fuel : Nat) (s : ParseState) :
    Yields s (commaList stops item fuel) (fun taken items _ => Listed P taken items) := by
  induction fuel generalizing s with
  | zero => exact .fail
  | succ fuel ih =>
    refine .peek (.ite (fun _ => .pure .nil) fun _ => ?_)
    refine (hitem s).bind fun tokens a s₁ _ ha => (yields_sign? ",").bind fun comma found s₂ _ hcomma => ?_
    rcases hcomma with ⟨rfl, t, rfl, ht⟩ | ⟨rfl, rfl⟩
    · rw [if_pos rfl]
      refine (ih s₂).bind fun more items s₃ _ hmore => .pure ?_
      rw [List.append_nil]
      exact .cons ha ht hmore
    · rw [if_neg Bool.false_ne_true]
      refine .peek (.ite (fun _ => .pure ?_) fun _ => .fail)
      rw [List.append_nil, List.append_nil]
      exact .single ha

end Parser

/-! ## Parameters -/

namespace Grammar

open Python.Parser

variable {self : Category → Parser Tree} {s : ParseState}

theorem extentOf_took {taken : List Token} {s' : ParseState} (h : Took s taken s') (hne : taken ≠ []) :
    extentOf taken = ⟨s.here, s'.last⟩ := by
  obtain ⟨t, rest, rfl⟩ := List.exists_cons_of_ne_nil hne
  have hhere : s.here = t.start := by
    rw [ParseState.here, ParseState.front, h.rest]
    rfl
  rw [hhere, extentOf, h.last, List.getLast?_cons]
  rfl

/-- A parameter that has an annotation or a default behind what names it. -/
structure IsAnnotated (optional : Bool) (start : Place) (named p : Tree) (s' : ParseState) : Prop where
  kind_ne : p.kind ≠ .separator
  extent_eq : p.extent = ⟨start, s'.last⟩
  naming : p.namingNode? = named.namingNode? ∨ optional = true ∧ p.namingNode? = some named

def IsAnnotation (tokens : List Token) : Prop :=
  Nested tokens ∧ ∃ t rest, tokens = t :: rest ∧ (t.isSign ":" = true ∨ t.isSign "=" = true)

theorem yields_annotated (h : Sane self) (typed optional : Bool) (start : Place) (named : Tree) :
    Yields s (annotated self typed optional start named) (fun taken p s' =>
      taken = [] ∧ p = named ∨ IsAnnotation taken ∧ IsAnnotated optional start named p s') := by
  have hsign {flag : Bool} {t : Token} {text : String} (ht : (flag && t.isSign text) = true) :
      flag = true ∧ t.isSign text = true := by rwa [Bool.and_eq_true] at ht
  have hedge {t : Token} (ht : t.isSign ":" = true ∨ t.isSign "=" = true) : t.edge = .inside := by
    rcases ht with ht | ht
    · exact Token.edge_of_isSign ht
    · exact Token.edge_of_isSign ht
  refine .peek ?_
  extract_lets preset
  -- what may follow an annotation
  have hannotated (s : ParseState) (a : Tree) :
      Yields s (preset [a]) (fun taken p s' => Nested taken ∧ IsAnnotated optional start named p s') := by
    refine .peek (.ite (fun hequals => ?_) fun _ => ?_)
    · refine .advance (finish_of_isSign (hsign hequals).2) ((Yields.of_steady h.expression).bind fun taken d s₁ _ hd => ?_)
      refine yields_finishNode ⟨?_, NodeKind.noConfusion, rfl, .inr ⟨(hsign hequals).1, rfl⟩⟩
      rw [List.append_nil]
      exact .inside (hedge (.inr (hsign hequals).2)) hd.1
    · exact yields_finishNode ⟨.nil, NodeKind.noConfusion, rfl, .inl rfl⟩
  refine .ite (fun hcolon => ?_) fun _ => ?_
  · refine .advance (finish_of_isSign (hsign hcolon).2) ((Yields.of_steady (steady_element h)).bind fun taken a s₁ _ ha => ?_)
    refine (hannotated s₁ a).mono fun more p s' _ hp => .inr ⟨⟨?_, s.front, taken ++ more, rfl, .inl (hsign hcolon).2⟩, hp.2⟩
    exact .inside (hedge (.inl (hsign hcolon).2)) (ha.1.append hp.1)
  · refine .pure_bind (.peek (.ite (fun hequals => ?_) fun _ => .pure_bind (.pure (.inl ⟨rfl, rfl⟩))))
    refine .advance (finish_of_isSign (hsign hequals).2) ((Yields.of_steady h.expression).bind fun taken d s₁ _ hd => ?_)
    refine yields_finishNode (.inr ⟨⟨?_, s.front, taken ++ [], rfl, .inr (hsign hequals).2⟩,
      NodeKind.noConfusion, rfl, .inr ⟨(hsign hequals).1, rfl⟩⟩)
    rw [List.append_nil]
    exact .inside (hedge (.inr (hsign hequals).2)) hd.1

/-! ### Patterns -/

/-- Kinds of expressions that start with a bracket. -/
def bracketedKinds : List NodeKind := [.tuple, .parenthesized, .expression, .member, .call, .subscript]

theorem namingNode?_of_bracketed {t : Tree} (h : t.kind ∈ bracketedKinds) : t.namingNode? = none := by
  obtain ⟨kind, extent, children⟩ := t
  simp only [Tree.kind, bracketedKinds, List.mem_cons, List.not_mem_nil, or_false] at h
  rcases h with rfl | rfl | rfl | rfl | rfl | rfl <;> rfl

theorem kind_of_bracketed {t : Tree} (h : t.kind ∈ bracketedKinds) : t.kind ≠ .identifier ∧ t.kind ≠ .separator := by
  have hall : ∀ kind ∈ bracketedKinds, kind ≠ .identifier ∧ kind ≠ .separator := by decide
  exact hall _ h

/-- Whatever state a reader starts from, `Q` holds of what it returns. -/
def Returns {α : Type} (p : Parser α) (Q : α → Prop) : Prop := ∀ s a s', p s = .ok (a, s') → Q a

section Returns

variable {α β : Type} {p q : Parser α} {Q : α → Prop}

theorem Returns.fail : Returns (fail : Parser α) Q := fun _ _ _ h => by cases h

theorem Returns.pure {a : α} (ha : Q a) : Returns (Pure.pure a : Parser α) Q := by
  intro s a' s' hrun
  cases hrun
  exact ha

theorem Returns.bind {f : α → Parser β} {R : β → Prop} (hp : Returns p Q) (hf : ∀ a, Q a → Returns (f a) R) :
    Returns (p >>= f) R := by
  intro s b s' hrun
  obtain ⟨a, s₁, hfirst, hrest⟩ := run_bind_eq_ok.1 hrun
  exact hf a (hp s a s₁ hfirst) s₁ b s' hrest

theorem Returns.behind {f : α → Parser β} {R : β → Prop} (hf : ∀ a, Returns (f a) R) : Returns (p >>= f) R :=
  bind (Q := fun _ => True) (fun _ _ _ _ => trivial) fun a _ => hf a

theorem Returns.ite {c : Prop} [Decidable c] (hp : c → Returns p Q) (hq : ¬c → Returns q Q) :
    Returns (if c then p else q) Q := by
  split
  · next hc => exact hp hc
  · next hc => exact hq hc

end Returns

theorem returns_bracketed {start : Place} {kind : NodeKind} {children : List Tree} (h : kind ∈ bracketedKinds) :
    Returns (finishNode start kind children) (fun t => t.kind ∈ bracketedKinds) :=
  .behind fun _ => .pure h

theorem returns_trailer (inner : Parser Tree) (t : Tree) :
    Returns (trailer self inner t) (fun found => ∀ t' ∈ found, t'.kind ∈ bracketedKinds) := by
  have hsome {start : Place} {kind : NodeKind} {children : List Tree} (h : kind ∈ bracketedKinds) :
      Returns (some <$> finishNode start kind children) (fun found => ∀ t' ∈ found, t'.kind ∈ bracketedKinds) :=
    (returns_bracketed h).bind fun t ht => .pure fun t' ht' => by
      obtain rfl := Option.some.inj ht'
      exact ht
  refine .behind fun front => .ite (fun _ => ?_) fun _ => .ite (fun _ => ?_) fun _ => .ite (fun _ => ?_) fun _ => ?_
  · exact .behind fun _ => .behind fun _ => hsome (by decide)
  · exact .behind fun _ => hsome (by decide)
  · exact .behind fun _ => .behind fun _ => .behind fun indices =>
      .ite (fun _ => .bind .fail fun _ => False.elim) fun _ => .behind fun _ => hsome (by decide)
  · exact .pure fun t' ht' => by cases ht'

theorem returns_extended (inner : Parser Tree) (fuel : Nat) {t : Tree} (ht : t.kind ∈ bracketedKinds) :
    Returns (extendWhile (trailer self inner) fuel t) (fun t => t.kind ∈ bracketedKinds) := by
  induction fuel generalizing t with
  | zero => exact .fail
  | succ fuel ih =>
    refine (returns_trailer inner t).bind fun found hfound => ?_
    cases found with
    | none => exact .pure ht
    | some t' => exact ih (hfound t' rfl)

theorem returns_roundBrackets (inner : Parser Tree) :
    Returns (roundBrackets self inner) (fun t => t.kind ∈ bracketedKinds) := by
  refine .behind fun start => .behind fun _ => .behind fun _ => .ite (fun _ => returns_bracketed (by decide)) fun _ =>
    .behind fun _ => .ite (fun _ => ?_) fun _ => ?_
  · exact .behind fun _ => .behind fun _ => returns_bracketed (by decide)
  · refine .behind fun first => .behind fun _ => .ite (fun _ => ?_) fun _ => .behind fun _ => .ite (fun _ => ?_) fun _ => ?_
    · exact .behind fun _ => .behind fun _ => returns_bracketed (by decide)
    · exact .behind fun _ => .behind fun _ => .behind fun _ => returns_bracketed (by decide)
    · exact .behind fun _ => returns_bracketed (by decide)

theorem atom_of_round (inner : Parser Tree) (h : s.front.isSign "(" = true) :
    atom self inner s = roundBrackets self inner s := by
  rw [Token.isSign, Bool.and_eq_true, beq_iff_eq] at h
  have hpeek {f : Token → Parser Tree} : (peek >>= f) s = f s.front s := rfl
  rw [atom, hpeek, h.1]
  simp only [h.2, if_true]

theorem kind_of_operand {fuel : Nat} {t : Tree} {s' : ParseState} (hround : s.front.isSign "(" = true)
    (hrun : operand self fuel s = .ok (t, s')) : t.kind ∈ bracketedKinds := by
  cases fuel with
  | zero => cases hrun
  | succ fuel =>
    obtain ⟨first, s₁, hatom, hrest⟩ := run_bind_eq_ok.1 hrun
    rw [atom_of_round _ hround] at hatom
    have hfirst := returns_roundBrackets _ s first s₁ hatom
    exact Returns.behind (fun n => returns_extended _ n hfirst) s₁ t s' hrest

/-! ### All kinds of parameters -/

def IsStars (t : Token) : Prop := t.isSign "*" = true ∨ t.isSign "**" = true

/-- The tokens of a parameter, and the tree that is made of them. -/
inductive IsParameter : List Token → Tree → Prop
  | separator {t : Token} {p : Tree} (ht : t.isSign "*" = true ∨ t.isSign "/" = true) (hkind : p.kind = .separator) :
      IsParameter [t] p
  | named {stars more : List Token} {n : Token} {p : Tree} (hstars : stars = [] ∨ ∃ t, stars = [t] ∧ IsStars t)
      (hn : n.kind = .name) (hmore : more = [] ∨ IsAnnotation more) (hkind : p.kind ≠ .separator)
      (hextent : p.extent = extentOf (stars ++ n :: more))
      (hnaming : p.namingNode? = some (.node .identifier ⟨n.start, n.stop⟩ [])) : IsParameter (stars ++ n :: more) p
  | pattern {tokens : List Token} {p : Tree} (htokens : Nested tokens) (hkind : p.kind ≠ .separator)
      (hnaming : ∀ n, p.namingNode? = some n → n.kind ≠ .identifier) : IsParameter tokens p

theorem inside_of_stars {t : Token} (h : IsStars t) : t.edge = .inside := by
  rcases h with h | h
  · exact Token.edge_of_isSign h
  · exact Token.edge_of_isSign h

theorem IsParameter.nested {tokens : List Token} {p : Tree} (h : IsParameter tokens p) : Nested tokens := by
  cases h with
  | separator ht =>
    refine .inside ?_ .nil
    rcases ht with ht | ht
    · exact Token.edge_of_isSign ht
    · exact Token.edge_of_isSign ht
  | named hstars hn hmore =>
    have hbehind : Nested (_ :: _) := .inside (Token.edge_of_name hn) (hmore.elim (fun h => h ▸ .nil) fun h => h.1)
    rcases hstars with rfl | ⟨t, rfl, ht⟩
    · exact hbehind
    · exact .inside (inside_of_stars ht) hbehind
  | pattern htokens => exact htokens

theorem yields_name :
    Yields s name (fun taken t _ => ∃ n, taken = [n] ∧ n.kind = .name ∧ t = .node .identifier ⟨n.start, n.stop⟩ []) := by
  intro t s' hrun
  obtain ⟨hkind, rfl, rfl⟩ := run_name hrun
  have hfinish : s.front.kind ≠ .finish := by
    rw [hkind]
    exact TokenKind.noConfusion
  exact ⟨[s.front], took_advance hfinish, s.front, rfl, hkind, rfl⟩

/-- A name with what stands behind it, in a parameter that starts at some place. -/
def IsNamed (start : Place) (tokens : List Token) (p : Tree) (s' : ParseState) : Prop :=
  ∃ n more, tokens = n :: more ∧ n.kind = .name ∧ (more = [] ∨ IsAnnotation more) ∧ p.kind ≠ .separator ∧
    p.namingNode? = some (.node .identifier ⟨n.start, n.stop⟩ []) ∧ p.extent = ⟨start, s'.last⟩

theorem yields_starred (h : Sane self) {kind : NodeKind} (hkind : kind = .listSplat ∨ kind = .dictionarySplat)
    (start : Place) :
    Yields s (do
      let named ← finishNode start kind [← name]
      annotated self true false start named) (fun taken p s' => IsNamed start taken p s') := by
  refine yields_name.bind ?_
  rintro _ _ s₁ - ⟨n, rfl, hn, rfl⟩
  refine (yields_finishNode (R := fun taken t s' => taken = [] ∧ s' = s₁ ∧
    t = .node kind ⟨start, s₁.last⟩ [.node .identifier ⟨n.start, n.stop⟩ []]) ⟨rfl, rfl, rfl⟩).bind ?_
  rintro _ _ s₂ - ⟨rfl, rfl, rfl⟩
  have hnaming : (Tree.node kind ⟨start, s₂.last⟩ [.node .identifier ⟨n.start, n.stop⟩ []]).namingNode? =
      some (.node .identifier ⟨n.start, n.stop⟩ []) := by
    rcases hkind with rfl | rfl <;> rfl
  refine (yields_annotated h true false start _).mono fun more p s' htook hp => ⟨n, more, rfl, hn, ?_⟩
  rcases hp with ⟨rfl, rfl⟩ | ⟨hmore, hp⟩
  · refine ⟨.inl rfl, ?_, hnaming, ?_⟩
    · rcases hkind with rfl | rfl <;> exact NodeKind.noConfusion
    · rw [htook.last]
      rfl
  · refine ⟨.inr hmore, hp.kind_ne, ?_, hp.extent_eq⟩
    rcases hp.naming with h | ⟨hfalse, -⟩
    · rw [h, hnaming]
    · cases hfalse

theorem yields_unstarred (h : Sane self) :
    Yields s (do
      let named ← name
      annotated self true true s.here named) (fun taken p s' => IsNamed s.here taken p s') := by
  refine yields_name.bind ?_
  rintro _ _ s₁ htook₁ ⟨n, rfl, hn, rfl⟩
  have hhere : s.here = n.start := by
    rw [ParseState.here, ParseState.front, htook₁.rest]
    rfl
  refine (yields_annotated h true true s.here _).mono fun more p s' htook hp => ⟨n, more, rfl, hn, ?_⟩
  rcases hp with ⟨rfl, rfl⟩ | ⟨hmore, hp⟩
  · refine ⟨.inl rfl, NodeKind.noConfusion, rfl, ?_⟩
    rw [hhere, (htook₁.trans htook).last]
    rfl
  · refine ⟨.inr hmore, hp.kind_ne, ?_, hp.extent_eq⟩
    rcases hp.naming with h | ⟨-, h⟩
    · rw [h]
      rfl
    · exact h

theorem yields_parameter (h : Sane self) : Yields s (parameter self true) (fun taken p _ => IsParameter taken p) := by
  have hstarred {t : Token} {more : List Token} {p : Tree} {s' : ParseState} (ht : IsStars t)
      (hp : IsNamed s.here more p s') (htook : Took s (t :: more) s') : IsParameter (t :: more) p := by
    obtain ⟨n, more, rfl, hn, hmore, hkind, hnaming, hextent⟩ := hp
    refine .named (.inr ⟨t, rfl, ht⟩) hn hmore hkind ?_ hnaming
    rw [hextent]
    exact (extentOf_took htook (List.cons_ne_nil _ _)).symm
  refine .of_took (.here (.peek (.ite (fun hstar => ?_) fun _ => .ite (fun hstars => ?_) fun _ =>
    .ite (fun hslash => ?_) fun _ => .ite (fun hround => ?_) fun _ => ?_)))
  · refine .advance (finish_of_isSign hstar) (.peek (.ite (fun _ => ?_) fun _ => ?_))
    · exact (yields_starred h (.inl rfl) s.here).mono fun _ _ _ _ hp htook => hstarred (.inl hstar) hp htook
    · exact yields_finishNode fun _ => .separator (.inl hstar) rfl
  · refine .advance (finish_of_isSign hstars) ?_
    exact (yields_starred h (.inr rfl) s.here).mono fun _ _ _ _ hp htook => hstarred (.inr hstars) hp htook
  · exact .advance (finish_of_isSign hslash) (yields_finishNode fun _ => .separator (.inr hslash) rfl)
  · have hoperand (fuel : Nat) :
        Yields s (operand self fuel) (fun taken t _ => Nested taken ∧ t.kind ∈ bracketedKinds) := by
      intro t s' hrun
      obtain ⟨taken, htook, hnested, -⟩ := Yields.of_steady (steady_operand h fuel) t s' hrun
      exact ⟨taken, htook, hnested, kind_of_operand hround hrun⟩
    refine .bound ((hoperand _).bind fun taken targets s₁ _ htargets => .ite (fun _ => ?_) fun _ => .fail)
    refine (yields_annotated h false true s.here targets).mono fun more p s' _ hp _ => ?_
    have hnone := namingNode?_of_bracketed htargets.2
    rcases hp with ⟨rfl, rfl⟩ | ⟨hmore, hp⟩
    · rw [List.append_nil]
      refine .pattern htargets.1 (kind_of_bracketed htargets.2).2 fun n hn => ?_
      rw [hnone] at hn
      cases hn
    · refine .pattern (htargets.1.append hmore.1) hp.kind_ne fun n hn => ?_
      rcases hp.naming with h | ⟨-, h⟩
      · rw [h, hnone] at hn
        cases hn
      · rw [h] at hn
        obtain rfl := Option.some.inj hn
        exact (kind_of_bracketed htargets.2).1
  · refine (yields_unstarred h).mono fun taken p s' _ hp htook => ?_
    obtain ⟨n, more, rfl, hn, hmore, hkind, hnaming, hextent⟩ := hp
    refine @IsParameter.named [] _ _ _ (.inl rfl) hn hmore hkind ?_ hnaming
    rw [hextent]
    exact (extentOf_took htook (List.cons_ne_nil _ _)).symm

theorem yields_parameters (h : Sane self) :
    Yields s (parameters self) (fun taken t _ => ∃ opener inner closer items e, taken = opener :: (inner ++ [closer]) ∧
      opener.isSign "(" = true ∧ Listed IsParameter inner items ∧ closer.isSign ")" = true ∧
        t = .node .parameters e items) := by
  refine .here ((yields_sign "(").bind ?_)
  rintro _ _ s₁ - ⟨opener, rfl, hopener⟩
  refine .bound ((yields_commaList (fun s => yields_parameter h) _ s₁).bind fun inner items s₂ _ hitems => ?_)
  refine (yields_sign ")").bind ?_
  rintro _ _ s₃ - ⟨closer, rfl, hcloser⟩
  exact yields_finishNode ⟨opener, inner, closer, items, _, rfl, hopener, hitems, hcloser, rfl⟩

theorem yields_typeParameters (h : Sane self) :
    Yields s (typeParameters self) (fun taken names _ => taken = [] ∧ names = [] ∨
      ∃ t, names = [t] ∧ t.kind = .expression) := by
  refine .here ((yields_sign? "[").bind ?_)
  rintro _ _ s₁ - (⟨rfl, -⟩ | ⟨rfl, rfl⟩)
  · rw [if_pos rfl]
    refine .bound ((Yields.of_steady (steady_commaList (steady_typeParameter h) _)).bind fun _ items _ _ _ =>
      .ite (fun _ => yields_fail_bind) fun _ => (yields_sign "]").bind fun _ _ _ _ _ => ?_)
    exact (yields_finishNode (R := fun _ t _ => t.kind = .expression) rfl).bind fun _ t _ _ ht => .pure (.inr ⟨t, rfl, ht⟩)
  · rw [if_neg Bool.false_ne_true]
    exact .pure (.inl ⟨rfl, rfl⟩)

/-! ## Headers -/

/-- The words that start a header. -/
inductive IsLead : List Token → Prop
  | plain {t : Token} (ht : t.isWord "def" = true) : IsLead [t]
  | async {a t : Token} (ha : a.isWord "async" = true) (ht : t.isWord "def" = true) : IsLead [a, t]

def IsResult (tokens : List Token) : Prop :=
  Nested tokens ∧ ∃ t rest, tokens = t :: rest ∧ t.isSign "->" = true

/-- The tokens of a header without type parameters, and the function definition that it belongs to. -/
inductive IsHeader : List Token → Tree → Prop
  | intro {lead inner result : List Token} {n opener closer colon : Token} {items results : List Tree} {block : Tree}
      {e e' : Extent} (hlead : IsLead lead) (hn : n.kind = .name) (hopener : opener.isSign "(" = true)
      (hitems : Listed IsParameter inner items) (hcloser : closer.isSign ")" = true)
      (hresult : result = [] ∨ IsResult result) (hcolon : colon.isSign ":" = true) :
      IsHeader (lead ++ n :: opener :: (inner ++ closer :: (result ++ [colon])))
        (.node .functionDefinition e
          (.node .identifier ⟨n.start, n.stop⟩ [] :: .node .parameters e' items :: (results ++ [block])))

theorem IsHeader.nested {tokens : List Token} {f : Tree} (h : IsHeader tokens f) : Nested tokens := by
  cases h with
  | @intro lead inner result n opener closer colon items results block e e' hlead hn hopener hitems hcloser hresult hcolon =>
    have hend : Nested [colon] := .inside (Token.edge_of_isSign hcolon) .nil
    have hbehind : Nested (result ++ [colon]) := by
      rcases hresult with rfl | hresult
      · exact hend
      · exact hresult.1.append hend
    have hrest := Nested.group (b := .round) (Token.edge_of_isSign hopener) (Token.edge_of_isSign hcloser)
      (hitems.nested fun _ _ h => h.nested) hbehind
    have hnamed := Nested.inside (Token.edge_of_name hn) hrest
    cases hlead with
    | plain ht => exact .inside (Token.edge_of_isWord ht) hnamed
    | async ha ht => exact .inside (Token.edge_of_isWord ha) (.inside (Token.edge_of_isWord ht) hnamed)

theorem run_suite {indent : Nat} {t : Tree} {s' : ParseState} (h : suite self indent s = .ok (t, s')) :
    t.extent.start = s.here := by
  have hnode {inner : Parser (List Tree)} {s s' : ParseState} {start : Place} (h : (do finishNode start .block (← inner)) s = .ok (t, s')) :
      t.extent.start = start := by
    obtain ⟨children, s₁, -, h⟩ := run_bind_eq_ok.1 h
    cases h
    rfl
  obtain ⟨start, s₁, hhere, h⟩ := run_bind_eq_ok.1 h
  cases hhere
  obtain ⟨found, s₁, -, h⟩ := run_bind_eq_ok.1 h
  split at h
  · obtain ⟨u, s₂, -, h⟩ := run_bind_eq_ok.1 h
    exact hnode h
  · obtain ⟨n, s₂, -, h⟩ := run_bind_eq_ok.1 h
    exact hnode h

theorem begins_body {rounds indent : Nat} {start : Place} {kind : NodeKind} {children : List Tree} :
    Begins s (do finishNode start kind (children ++ [← body (reader rounds) indent])) (fun taken f s₁ =>
      ∃ colon block stop, taken = [colon] ∧ colon.isSign ":" = true ∧ block.extent.start = s₁.here ∧
        f = .node kind ⟨start, stop⟩ (children ++ [block])) := by
  intro f s' hrun
  obtain ⟨block, s₂, hbody, hfinish⟩ := run_bind_eq_ok.1 hrun
  obtain ⟨u, s₁, hsign, hsuite⟩ := run_bind_eq_ok.1 hbody
  obtain ⟨taken, htook, colon, rfl, hcolon⟩ := yields_sign ":" u s₁ hsign
  have hstart : block.extent.start = s₁.here := by
    cases rounds with
    | zero => cases hsuite
    | succ rounds => exact run_suite hsuite
  cases hfinish
  exact ⟨[colon], s₁, htook, colon, block, _, rfl, hcolon, hstart, rfl⟩

/-- The header that a function definition starts with. -/
theorem begins_functionDefinition (rounds indent : Nat) :
    Begins s (functionDefinition (reader rounds) indent) (fun taken f s₁ =>
      ((f.children[1]?).map Tree.kind = some .parameters → IsHeader taken f) ∧
        (∃ lead more, taken = lead ++ more ∧ IsLead lead) ∧ f.extent.start = s.here ∧
          (∃ n ∈ taken, n.kind = .name ∧ f.children.head? = some (.node .identifier ⟨n.start, n.stop⟩ [])) ∧
            ∃ block, f.children.getLast? = some block ∧ block.extent.start = s₁.here) := by
  have h := sane_reader rounds
  refine .here (.bind (yields_word? "async") fun before async s₁ _ hbefore => .bind (yields_word "def") ?_)
  rintro _ _ s₂ - ⟨t, rfl, ht⟩
  have hlead : IsLead (before ++ [t]) := by
    rcases hbefore with ⟨-, a, rfl, ha⟩ | ⟨-, rfl⟩
    · exact .async ha ht
    · exact .plain ht
  refine .bind yields_name ?_
  rintro _ _ s₃ - ⟨n, rfl, hn, rfl⟩
  refine .bind (yields_typeParameters h) fun more names s₄ _ hnames => .bind (yields_parameters h) ?_
  rintro _ _ s₅ - ⟨opener, inner, closer, items, e, rfl, hopener, hitems, hcloser, rfl⟩
  refine .bind (yields_sign? "->") fun arrow found s₆ _ hfound => ?_
  extract_lets finish
  have hfinish (results : List Tree) (s' : ParseState) {result : List Token} (hresult : result = [] ∨ IsResult result) :
      Begins s' (finish results) (fun taken f s₁ =>
        ((f.children[1]?).map Tree.kind = some .parameters → IsHeader (before ++ ([t] ++ ([n] ++ (more ++
          (opener :: (inner ++ [closer]) ++ (result ++ taken)))))) f) ∧
            (∃ lead behind, before ++ ([t] ++ ([n] ++ (more ++ (opener :: (inner ++ [closer]) ++ (result ++ taken))))) =
              lead ++ behind ∧ IsLead lead) ∧ f.extent.start = s.here ∧
                (∃ named ∈ before ++ ([t] ++ ([n] ++ (more ++ (opener :: (inner ++ [closer]) ++ (result ++ taken))))),
                  named.kind = .name ∧ f.children.head? = some (.node .identifier ⟨named.start, named.stop⟩ [])) ∧
                  ∃ block, f.children.getLast? = some block ∧ block.extent.start = s₁.here) := by
    refine begins_body.mono ?_
    rintro _ _ s₁ ⟨colon, block, stop, rfl, hcolon, hblock, rfl⟩
    refine ⟨fun hkind => ?_, ⟨before ++ [t], _, (List.append_assoc ..).symm, hlead⟩, rfl,
      ⟨n, List.mem_append_right _ (List.mem_append_right _ List.mem_cons_self), hn, rfl⟩, block, List.getLast?_concat, hblock⟩
    rcases hnames with ⟨rfl, rfl⟩ | ⟨names, rfl, hnames⟩
    · have hheader := @IsHeader.intro _ _ _ _ _ _ _ _ results block ⟨s.here, stop⟩ e hlead hn hopener hitems hcloser hresult hcolon
      simp only [List.append_assoc, List.cons_append, List.nil_append] at hheader ⊢
      exact hheader
    · have hkind' : names.kind = .parameters := Option.some.inj hkind
      rw [hnames] at hkind'
      cases hkind'
  rcases hfound with ⟨rfl, a, rfl, ha⟩ | ⟨rfl, rfl⟩
  · rw [if_pos rfl]
    refine .bind (Yields.of_steady h.expression) fun result value s₇ _ hvalue => ?_
    have hresult : IsResult (a :: result) := ⟨.inside (Token.edge_of_isSign ha) hvalue.1, a, result, rfl, ha⟩
    exact hfinish [value] s₇ (.inr hresult)
  · rw [if_neg Bool.false_ne_true]
    exact hfinish [] s₆ (.inl rfl)

end Grammar

end Consolidation.Python
