/-
# `Proofs.Python.Reading` — what readers take and what they make of it

Brackets, formatted strings and the holes in them come in pairs.  `nest` follows some tokens with a stack of those that
are open, and fails where one is closed that is not the last one opened, or where a logical line ends.

`Reads` is the judgement for readers that goes with it: from a token of some kind on, a reader takes tokens that lead from
one stack to another, and what it returns has some property.  There is a rule for each way in which readers are put
together, so that a reader of the grammar is dealt with along its own text.  The property that matters for trees is that
there are no function definitions in them (`Tree.Plain`).

A reader is a function on a state, and most of the grammar is put together from a few: take a token of a kind, look at the
next one, try one reader and then another, repeat.  For each of these there is a rule here, named after it.  The state is
told by a predicate `φ` on the tokens that are left, so that a rule says what is known before and behind; where nothing is
known, it is `Any`.

`Steady` is the case that is used for whole categories: from any state a reader takes tokens that leave the open brackets
as they were, and returns plain trees.
-/
import Mathlib.Data.List.Basic
import Consolidation.Python.Parsing

namespace Consolidation.Python

/-! ## Brackets -/

/-- What comes in pairs. -/
inductive Bracket where
  | round
  | square
  | curly
  | format
  | hole
deriving DecidableEq, Repr

/-- What a token does to the brackets that are open. -/
inductive Edge where
  | opens (b : Bracket)
  | closes (b : Bracket)
  /-- Nothing. -/
  | inside
  /-- It may not stand inside an expression. -/
  | outside
deriving DecidableEq, Repr

def signEdge (text : String) : Edge :=
  if text == "(" then .opens .round
  else if text == ")" then .closes .round
  else if text == "[" then .opens .square
  else if text == "]" then .closes .square
  else if text == "\x7b" then .opens .curly
  else if text == "\x7d" then .closes .curly
  else .inside

namespace Token

def edge (t : Token) : Edge :=
  match t.kind with
  | .sign => signEdge t.text
  | .formatOpen => .opens .format
  | .formatClose => .closes .format
  | .holeOpen => .opens .hole
  | .holeClose => .closes .hole
  | .lineEnd _ _ => .outside
  | .invalid => .outside
  | .finish => .outside
  | _ => .inside

theorem edge_of_isSign {t : Token} {text : String} (h : t.isSign text = true) : t.edge = signEdge text := by
  rw [isSign, Bool.and_eq_true, beq_iff_eq, beq_iff_eq] at h
  rw [edge, h.1, h.2]

theorem edge_of_name {t : Token} (h : t.kind = .name) : t.edge = .inside := by
  rw [edge, h]

theorem edge_of_isWord {t : Token} {text : String} (h : t.isWord text = true) : t.edge = .inside := by
  rw [isWord, Bool.and_eq_true, beq_iff_eq] at h
  exact edge_of_name h.1

end Token

/-- The open brackets behind something that opens or closes one, the innermost one first. -/
def Edge.pushed : Edge → List Bracket → Option (List Bracket)
  | .opens b, stack => some (b :: stack)
  | .closes b, b' :: outer => if b = b' then some outer else none
  | .closes _, [] => none
  | .inside, stack => some stack
  | .outside, _ => none

/-- The open brackets behind some tokens. -/
def nest (stack : List Bracket) (tokens : List Token) : Option (List Bracket) :=
  tokens.foldlM (fun stack t => t.edge.pushed stack) stack

theorem nest_cons (stack : List Bracket) (t : Token) (tokens : List Token) :
    nest stack (t :: tokens) = (t.edge.pushed stack).bind (fun stack' => nest stack' tokens) := rfl

theorem nest_append (stack : List Bracket) (a b : List Token) :
    nest stack (a ++ b) = (nest stack a).bind (fun stack' => nest stack' b) :=
  List.foldlM_append

/-! ## Trees -/

namespace Tree

theorem mem_preorderAll {n : Tree} {trees : List Tree} : n ∈ preorderAll trees ↔ ∃ t ∈ trees, n ∈ t.preorder := by
  induction trees with
  | nil => simp [preorderAll]
  | cons t rest ih => simp [preorderAll, ih]

/-- Is there no function definition in a tree? -/
def Plain (t : Tree) : Prop := ∀ n ∈ t.preorder, n.kind ≠ .functionDefinition

theorem plain_node {kind : NodeKind} {extent : Extent} {children : List Tree} (hkind : kind ≠ .functionDefinition)
    (hchildren : ∀ t ∈ children, t.Plain) : (node kind extent children).Plain := by
  intro n hn
  rw [preorder, List.mem_cons, mem_preorderAll] at hn
  rcases hn with rfl | ⟨t, ht, hn⟩
  · exact hkind
  · exact hchildren t ht n hn

end Tree

/-! ## The judgement -/

namespace Parser

variable {α β : Type}

/-- From one state to another some tokens were taken, and the last place is where the last one of them stopped. -/
structure Took (s : ParseState) (taken : List Token) (s' : ParseState) : Prop where
  rest : s.rest = taken ++ s'.rest
  last : s'.last = (taken.getLast?.map Token.stop).getD s.last

theorem Took.refl (s : ParseState) : Took s [] s := ⟨rfl, rfl⟩

theorem Took.trans {s s₁ s' : ParseState} {a b : List Token} (ha : Took s a s₁) (hb : Took s₁ b s') :
    Took s (a ++ b) s' := by
  refine ⟨by rw [ha.rest, hb.rest, List.append_assoc], ?_⟩
  rw [hb.last, ha.last, List.getLast?_append]
  cases b.getLast? <;> rfl

/-- From a state of which `φ` holds, a reader takes tokens that lead from one stack of open brackets to another, and `Q` holds
of what it returns. -/
def Reads (φ : ParseState → Prop) (stack : List Bracket) (p : Parser α) (stack' : List Bracket) (Q : α → Prop) : Prop :=
  ∀ s a s', φ s → p s = .ok (a, s') → ∃ taken, Took s taken s' ∧ nest stack taken = some stack' ∧ Q a

def Any : ParseState → Prop := fun _ => True

/-- Wherever a reader starts, it leaves the open brackets as they were. -/
def Steady (p : Parser α) (Q : α → Prop) : Prop := ∀ stack, Reads Any stack p stack Q

section Rules

variable {φ ψ : ParseState → Prop} {k k₁ k' : List Bracket} {p q : Parser α} {Q R : α → Prop}

theorem Reads.mono (h : Reads φ k p k' Q) (hφ : ∀ s, ψ s → φ s) : Reads ψ k p k' Q :=
  fun s a s' hs hrun => h s a s' (hφ s hs) hrun

theorem Reads.weaken (h : Reads Any k p k' Q) : Reads φ k p k' Q := h.mono fun _ _ => trivial

theorem Steady.reads (h : Steady p Q) (k : List Bracket) : Reads φ k p k Q := (h k).weaken

theorem Reads.fail : Reads φ k (fail : Parser α) k' Q := fun _ _ _ _ h => by cases h

theorem Reads.pure {a : α} (ha : Q a) : Reads φ k (Pure.pure a : Parser α) k Q := by
  intro s a' s' _ hrun
  cases hrun
  exact ⟨[], .refl s, rfl, ha⟩

theorem run_bind_eq_ok {p : Parser α} {f : α → Parser β} {s : ParseState} {r : β × ParseState} :
    (p >>= f) s = .ok r ↔ ∃ a s', p s = .ok (a, s') ∧ f a s' = .ok r := by
  cases hp : p s with
  | ok found =>
    have hrun : (p >>= f) s = f found.1 found.2 := by simp only [Bind.bind, hp]
    rw [hrun]
    constructor
    · exact fun h => ⟨found.1, found.2, rfl, h⟩
    · rintro ⟨a, s', hfound, h⟩
      cases hfound
      exact h
  | error e =>
    have hrun : (p >>= f) s = .error e := by simp only [Bind.bind, hp]
    rw [hrun]
    constructor
    · intro h
      cases h
    · rintro ⟨a, s', h, -⟩
      cases h

theorem Reads.bind {f : α → Parser β} {R : β → Prop} (hp : Reads φ k p k₁ Q)
    (hf : ∀ a, Q a → Reads Any k₁ (f a) k' R) : Reads φ k (p >>= f) k' R := by
  intro s b s' hs hrun
  obtain ⟨a, s₁, hfirst, hrest⟩ := run_bind_eq_ok.1 hrun
  obtain ⟨taken, htaken, hnest, ha⟩ := hp s a s₁ hs hfirst
  obtain ⟨taken', htaken', hnest', hb⟩ := hf a ha s₁ b s' trivial hrest
  exact ⟨taken ++ taken', htaken.trans htaken', by rw [nest_append, hnest]; exact hnest', hb⟩

theorem reads_fail_bind {f : β → Parser α} : Reads φ k (Parser.fail >>= f) k' Q := by
  intro s a s' _ hrun
  obtain ⟨b, s₁, hfail, -⟩ := run_bind_eq_ok.1 hrun
  cases hfail

theorem Reads.map {f : α → β} {R : β → Prop} (hp : Reads φ k p k' Q) (hf : ∀ a, Q a → R (f a)) :
    Reads φ k (f <$> p) k' R :=
  hp.bind fun a ha => .pure (hf a ha)

theorem Reads.ite {c : Prop} [Decidable c] (hp : c → Reads φ k p k' Q) (hq : ¬c → Reads φ k q k' Q) :
    Reads φ k (if c then p else q) k' Q := by
  split
  · next hc => exact hp hc
  · next hc => exact hq hc

theorem Reads.orElse (hp : Reads φ k p k' Q) (hq : Reads φ k q k' Q) : Reads φ k (orElse p q) k' Q := by
  intro s a s' hs hrun
  unfold Parser.orElse at hrun
  split at hrun
  · next r hfirst =>
    cases hrun
    exact hp s a s' hs hfirst
  · split at hrun
    · next r hsecond =>
      cases hrun
      exact hq s a s' hs hsecond
    · cases hrun

/-! ### Looking ahead -/

/-- What is known of the state is still known behind a reader that takes nothing. -/
theorem Reads.look {r : Parser β} {g : ParseState → β} (hr : ∀ s, r s = .ok (g s, s)) {f : β → Parser α}
    (hf : ∀ b, Reads (fun s => φ s ∧ g s = b) k (f b) k' Q) : Reads φ k (r >>= f) k' Q := by
  intro s a s' hs hrun
  obtain ⟨b, s₁, hlook, hrest⟩ := run_bind_eq_ok.1 hrun
  rw [hr] at hlook
  cases hlook
  exact hf (g s) s a s' ⟨hs, rfl⟩ hrest

theorem Reads.peek {f : Token → Parser α} (hf : ∀ t, Reads (fun s => φ s ∧ s.front = t) k (f t) k' Q) :
    Reads φ k (Parser.peek >>= f) k' Q :=
  .look (fun _ => rfl) hf

theorem Reads.peekSecond {f : Token → Parser α} (hf : ∀ t, Reads (fun s => φ s ∧ s.advance.front = t) k (f t) k' Q) :
    Reads φ k (Parser.peekSecond >>= f) k' Q :=
  .look (fun _ => rfl) hf

theorem Reads.here {f : Place → Parser α} (hf : ∀ place, Reads φ k (f place) k' Q) :
    Reads φ k (Parser.here >>= f) k' Q :=
  .look (fun _ => rfl) fun place => (hf place).mono fun _ hs => hs.1

theorem Reads.bound {f : Nat → Parser α} (hf : ∀ n, Reads φ k (f n) k' Q) :
    Reads φ k (Parser.bound >>= f) k' Q :=
  .look (fun _ => rfl) fun n => (hf n).mono fun _ hs => hs.1

theorem reads_finishNode {start : Place} {kind : NodeKind} {children : List Tree} (hkind : kind ≠ .functionDefinition)
    (hchildren : ∀ t ∈ children, t.Plain) : Reads φ k (finishNode start kind children) k Tree.Plain :=
  .look (fun _ => rfl) fun _ => .pure (Tree.plain_node hkind hchildren)

/-! ### Taking tokens -/

theorem rest_eq_of_front {s : ParseState} (h : s.front.kind ≠ .finish) : s.rest = s.front :: s.advance.rest := by
  unfold ParseState.front at h ⊢
  unfold ParseState.advance
  cases hrest : s.rest with
  | nil =>
    rw [hrest] at h
    exact absurd rfl h
  | cons t rest =>
    simp only [List.head?_cons, Option.getD_some]
    split <;> rfl

theorem last_advance {s : ParseState} (h : s.front.kind ≠ .finish) : s.advance.last = s.front.stop := by
  unfold ParseState.front at h ⊢
  unfold ParseState.advance
  cases hrest : s.rest with
  | nil =>
    rw [hrest] at h
    exact absurd rfl h
  | cons t rest =>
    simp only [List.head?_cons, Option.getD_some]
    split <;> rfl

theorem kind_ne_finish {t : Token} {k k' : List Bracket} (h : t.edge.pushed k = some k') : t.kind ≠ .finish := by
  intro hkind
  rw [Token.edge, hkind] at h
  cases h

theorem took_advance {s : ParseState} (h : s.front.kind ≠ .finish) : Took s [s.front] s.advance :=
  ⟨rest_eq_of_front h, last_advance h⟩

theorem Reads.advance_bind {f : Unit → Parser α} (h : ∀ s, φ s → s.front.edge.pushed k = some k₁)
    (hf : Reads (fun s' => ∃ s, φ s ∧ s' = s.advance) k₁ (f ()) k' Q) : Reads φ k (Parser.advance >>= f) k' Q := by
  intro s a s' hs hrun
  obtain ⟨taken, htaken, hnest, ha⟩ := hf s.advance a s' ⟨s, hs, rfl⟩ hrun
  refine ⟨s.front :: taken, (took_advance (kind_ne_finish (h s hs))).trans htaken, ?_, ha⟩
  rw [nest_cons, h s hs]
  exact hnest

theorem reads_advance (h : ∀ s, φ s → s.front.edge.pushed k = some k') : Reads φ k advance k' (fun _ => True) := by
  intro s a s' hs hrun
  cases hrun
  refine ⟨[s.front], took_advance (kind_ne_finish (h s hs)), ?_, trivial⟩
  rw [nest_cons, h s hs]
  rfl

theorem reads_advance_fail {f : β → Parser α} :
    Reads φ k (Parser.advance >>= fun _ => Parser.fail >>= f) k' Q := by
  intro s a s' _ hrun
  obtain ⟨u, s₁, -, hrun⟩ := run_bind_eq_ok.1 hrun
  obtain ⟨b, s₂, hfail, -⟩ := run_bind_eq_ok.1 hrun
  cases hfail

theorem Reads.advance {f : Unit → Parser α} (h : ∀ s, φ s → s.front.edge = .inside) (hf : Reads Any k (f ()) k' Q) :
    Reads φ k (Parser.advance >>= f) k' Q :=
  .advance_bind (fun s hs => by rw [h s hs]; rfl) hf.weaken

theorem reads_sign {text : String} (h : (signEdge text).pushed k = some k') :
    Reads φ k (sign text) k' (fun _ => True) := by
  refine .peek fun t => .ite (fun hsign => reads_advance fun s hs => ?_) fun _ => .fail
  rw [hs.2, Token.edge_of_isSign hsign, h]

theorem reads_word (text : String) : Reads φ k (word text) k (fun _ => True) := by
  refine .peek fun t => .ite (fun hword => reads_advance fun s hs => ?_) fun _ => .fail
  rw [hs.2, Token.edge_of_isWord hword]
  rfl

theorem reads_word? (text : String) : Reads φ k (word? text) k (fun _ => True) := by
  refine .peek fun t => .ite (fun hword => .advance (fun s hs => ?_) (.pure trivial)) fun _ => .pure trivial
  rw [hs.2, Token.edge_of_isWord hword]

theorem reads_sign? {text : String} (h : signEdge text = .inside) : Reads φ k (sign? text) k (fun _ => True) := by
  refine .peek fun t => .ite (fun hsign => .advance (fun s hs => ?_) (.pure trivial)) fun _ => .pure trivial
  rw [hs.2, Token.edge_of_isSign hsign, h]

theorem run_sign? (text : String) (s : ParseState) :
    sign? text s = if s.front.isSign text = true then .ok (true, s.advance) else .ok (false, s) := by
  show (if s.front.isSign text = true then _ else _ : Parser Bool) s = _
  split <;> rfl

theorem Reads.ifSign {text : String} (h : (signEdge text).pushed k = some k₁) (hp : Reads Any k₁ p k' Q)
    (hq : Reads Any k q k' Q) : Reads φ k (sign? text >>= fun b => if b = true then p else q) k' Q := by
  intro s a s' _ hrun
  obtain ⟨b, s₁, hsign, hrest⟩ := run_bind_eq_ok.1 hrun
  rw [run_sign?] at hsign
  split at hsign
  · next htext =>
    cases hsign
    rw [← Token.edge_of_isSign htext] at h
    obtain ⟨taken, htaken, hnest, ha⟩ := hp s.advance a s' trivial hrest
    refine ⟨s.front :: taken, (took_advance (kind_ne_finish h)).trans htaken, ?_, ha⟩
    rw [nest_cons, h]
    exact hnest
  · cases hsign
    exact hq s a s' trivial hrest

theorem run_token {kind : TokenKind} {s s' : ParseState} {u : Unit} (h : token kind s = .ok (u, s')) :
    s.front.kind = kind ∧ s' = s.advance := by
  have hrun : token kind s = if (s.front.kind == kind) = true then .ok ((), s.advance) else .error s.here := by
    show (if (s.front.kind == kind) = true then _ else _ : Parser Unit) s = _
    split <;> rfl
  rw [hrun] at h
  split at h
  · next hkind =>
    cases h
    exact ⟨beq_iff_eq.1 hkind, rfl⟩
  · cases h

theorem reads_token {kind : TokenKind} (h : ∀ t : Token, t.kind = kind → t.edge.pushed k = some k') :
    Reads φ k (token kind) k' (fun _ => True) := by
  refine .peek fun t => .ite (fun hkind => reads_advance fun s hs => ?_) fun _ => .fail
  rw [hs.2, h t (beq_iff_eq.1 hkind)]

end Rules

/-! ### Repetitions -/

section Repetitions

variable {item : Parser α} {P : α → Prop}

theorem steady_commaList {stops : Token → Bool} (hitem : Steady item P) (fuel : Nat) :
    Steady (commaList stops item fuel) (fun items => ∀ a ∈ items, P a) := by
  induction fuel with
  | zero => exact fun _ => .fail
  | succ fuel ih =>
    intro k
    refine .peek fun t => .ite (fun _ => .pure (List.forall_mem_nil _)) fun _ => ?_
    refine (hitem.reads k).bind fun first hfirst => (reads_sign? rfl).bind fun comma _ => .ite (fun _ => ?_) fun _ => ?_
    · exact (ih.reads k).bind fun rest hrest => .pure (List.forall_mem_cons.2 ⟨hfirst, hrest⟩)
    · exact .peek fun t => .ite (fun _ => .pure (List.forall_mem_singleton.2 hfirst)) fun _ => .fail

theorem steady_repeatWhile {goes : Token → Bool} (hitem : ∀ k, Reads (fun s => goes s.front = true) k item k P)
    (fuel : Nat) : Steady (repeatWhile goes item fuel) (fun items => ∀ a ∈ items, P a) := by
  induction fuel with
  | zero => exact fun _ => .fail
  | succ fuel ih =>
    intro k
    refine .peek fun t => .ite (fun hgoes => ?_) fun _ => .pure (List.forall_mem_nil _)
    have hfirst : Reads (fun s => Any s ∧ s.front = t) k item k P :=
      (hitem k).mono fun s hs => by rw [hs.2]; exact hgoes
    exact hfirst.bind fun first hfirst => (ih.reads k).bind fun rest hrest =>
      .pure (List.forall_mem_cons.2 ⟨hfirst, hrest⟩)

theorem steady_extendWhile {more : Tree → Parser (Option Tree)}
    (hmore : ∀ t, t.Plain → Steady (more t) (fun found => ∀ t' ∈ found, t'.Plain)) (fuel : Nat) {t : Tree}
    (ht : t.Plain) : Steady (extendWhile more fuel t) Tree.Plain := by
  induction fuel generalizing t with
  | zero => exact fun _ => .fail
  | succ fuel ih =>
    intro k
    refine ((hmore t ht).reads k).bind fun found hfound => ?_
    cases found with
    | none => exact .pure ht
    | some t' => exact (ih (hfound t' rfl)).reads k

end Repetitions

end Parser

end Consolidation.Python
