/-
# `Proofs.Python.Definitions` — where the function definitions of a source are read

A statement with blocks starts a logical line, and where it ends another one starts.  So each function definition in a
syntax tree was read by `functionDefinition` at the start of a logical line (`defined_of_mem_preorder`), and no two at the
same one (`pairwise_definedAt`).

`Finds` is the judgement for readers that goes with it: where a reader leads, and which places it passes at which
definitions start.  A place is told by the number of tokens that are left there.  There is a rule for each way in which
readers are put together; what is read of a statement's expressions has no definitions in it, so that only the tokens
count (`Leads`).

| judgement | what it says of a reader |
| :-- | :-- |
| `Leads` | it leads from states of one sort to states of another, with no more tokens left than before |
| `Finds` | it leads so, and passes places at which the definitions in what it returns start |
| `Starts` | it finds so, and takes a token first, so that no place is passed twice |

The readers for statements with blocks call each other, so each is dealt with under the assumption that all of them are as
said (`Laid`), and the induction on the rounds of the reader is made once, in `laid_reader`.  A function definition is the
only node that passes a place of its own (`finds_functionDefinition`).
-/
import Mathlib.Data.List.Forall2
import Consolidation.Proofs.Python.Places
import Consolidation.Proofs.Python.Spelling
import Consolidation.Proofs.Python.Statements

namespace Consolidation.Python.Grammar

open Python.Parser

variable {self : Category → Parser Tree}

/-! ## Where readers lead -/

section Leads

variable {α β : Type} {φ χ ψ : ParseState → Prop} {p q : Parser α} {Q : α → Prop} {R : List Nat → α → Prop}

/-- From a state of which `φ` holds a reader comes to one of which `ψ` holds and with no more tokens left, and `Q` holds of
what it returns. -/
def Leads (φ : ParseState → Prop) (p : Parser α) (ψ : ParseState → Prop) (Q : α → Prop) : Prop :=
  ∀ s a s', φ s → p s = .ok (a, s') → ψ s' ∧ s'.rest.length ≤ s.rest.length ∧ Q a

theorem Leads.mono (h : Leads φ p ψ Q) (hφ : ∀ s, χ s → φ s) : Leads χ p ψ Q :=
  fun s a s' hs hrun => h s a s' (hφ s hs) hrun

theorem Leads.pure {a : α} (ha : Q a) : Leads φ (Pure.pure a : Parser α) φ Q := by
  intro s a' s' hs hrun
  cases hrun
  exact ⟨hs, Nat.le_refl _, ha⟩

theorem leads_look {g : ParseState → α} : Leads φ (fun s => .ok (g s, s)) φ (fun _ => True) := by
  intro s a s' hs hrun
  cases hrun
  exact ⟨hs, Nat.le_refl _, trivial⟩

theorem leads_peek : Leads φ Parser.peek φ (fun _ => True) := leads_look

theorem leads_peekSecond : Leads φ Parser.peekSecond φ (fun _ => True) := leads_look

theorem leads_here : Leads φ Parser.here φ (fun _ => True) := leads_look

theorem leads_bound : Leads φ Parser.bound φ (fun _ => True) := leads_look

theorem leads_indent : Leads φ Parser.indent φ (fun _ => True) := leads_look

theorem leads_clauseFollows (indent : Nat) (text : String) : Leads φ (clauseFollows indent text) φ (fun _ => True) :=
  @leads_look _ φ fun s => s.front.isWord text && decide (indent ≤ s.indent)

/-! ### What they pass -/

/-- Places that are passed one behind the other, each told by the number of tokens left there: from where `m` are left on, and
not as far as where `n` are. -/
structure Passes (m : Nat) (found : List Nat) (n : Nat) : Prop where
  le : n ≤ m
  between : ∀ k ∈ found, n < k ∧ k ≤ m
  pairwise : found.Pairwise (· > ·)

theorem passes_nil {m n : Nat} (h : n ≤ m) : Passes m [] n := ⟨h, List.forall_mem_nil _, .nil⟩

theorem Passes.append {m k n : Nat} {a b : List Nat} (ha : Passes m a k) (hb : Passes k b n) : Passes m (a ++ b) n where
  le := Nat.le_trans hb.le ha.le
  between := List.forall_mem_append.2 ⟨fun i hi => ⟨Nat.lt_of_le_of_lt hb.le (ha.between i hi).1, (ha.between i hi).2⟩,
    fun i hi => ⟨(hb.between i hi).1, Nat.le_trans (hb.between i hi).2 ha.le⟩⟩
  pairwise := List.pairwise_append.2 ⟨ha.pairwise, hb.pairwise,
    fun i hi j hj => Nat.lt_of_le_of_lt (hb.between j hj).2 (ha.between i hi).1⟩

theorem Passes.cons {m k n : Nat} {found : List Nat} (h : Passes k found n) (hlt : k < m) : Passes m (m :: found) n where
  le := Nat.le_trans h.le (Nat.le_of_lt hlt)
  between := List.forall_mem_cons.2 ⟨⟨Nat.lt_of_le_of_lt h.le hlt, Nat.le_refl m⟩,
    fun i hi => ⟨(h.between i hi).1, Nat.le_trans (h.between i hi).2 (Nat.le_of_lt hlt)⟩⟩
  pairwise := List.pairwise_cons.2 ⟨fun i hi => Nat.lt_of_le_of_lt (h.between i hi).2 hlt, h.pairwise⟩

/-- From a state of which `φ` holds a reader comes to one of which `ψ` holds, and the places that it passes stand in a relation
to what it returns. -/
def Finds (φ : ParseState → Prop) (p : Parser α) (ψ : ParseState → Prop) (R : List Nat → α → Prop) : Prop :=
  ∀ s a s', φ s → p s = .ok (a, s') → ψ s' ∧ ∃ found, Passes s.rest.length found s'.rest.length ∧ R found a

theorem Finds.mono (h : Finds φ p ψ R) (hφ : ∀ s, χ s → φ s) : Finds χ p ψ R :=
  fun s a s' hs hrun => h s a s' (hφ s hs) hrun

theorem Finds.fail : Finds φ (fail : Parser α) ψ R := fun _ _ _ _ h => by cases h

theorem Finds.pure {a : α} (ha : R [] a) : Finds φ (Pure.pure a : Parser α) φ R := by
  intro s a' s' hs hrun
  cases hrun
  exact ⟨hs, [], passes_nil (Nat.le_refl _), ha⟩

theorem Finds.bind {f : α → Parser β} {R' : List Nat → β → Prop} (hp : Finds φ p χ R)
    (hf : ∀ found a, R found a → Finds χ (f a) ψ (fun more => R' (found ++ more))) : Finds φ (p >>= f) ψ R' := by
  intro s b s' hs hrun
  obtain ⟨a, s₁, hfirst, hrest⟩ := run_bind_eq_ok.1 hrun
  obtain ⟨hs₁, found, hfound, ha⟩ := hp s a s₁ hs hfirst
  obtain ⟨hs', more, hmore, hb⟩ := hf found a ha s₁ b s' hs₁ hrest
  exact ⟨hs', found ++ more, hfound.append hmore, hb⟩

theorem Leads.bind {f : α → Parser β} {R' : List Nat → β → Prop} (hp : Leads φ p χ Q)
    (hf : ∀ a, Q a → Finds χ (f a) ψ R') : Finds φ (p >>= f) ψ R' := by
  intro s b s' hs hrun
  obtain ⟨a, s₁, hfirst, hrest⟩ := run_bind_eq_ok.1 hrun
  obtain ⟨hs₁, hle, ha⟩ := hp s a s₁ hs hfirst
  obtain ⟨hs', more, hmore, hb⟩ := hf a ha s₁ b s' hs₁ hrest
  exact ⟨hs', more, (passes_nil hle).append hmore, hb⟩

theorem finds_fail_bind {f : β → Parser α} : Finds φ (Parser.fail >>= f) ψ R := by
  intro s a s' _ hrun
  obtain ⟨b, s₁, hfail, -⟩ := run_bind_eq_ok.1 hrun
  cases hfail

theorem Finds.ite {c : Prop} [Decidable c] (hp : c → Finds φ p ψ R) (hq : ¬c → Finds φ q ψ R) :
    Finds φ (if c then p else q) ψ R := by
  split
  · next hc => exact hp hc
  · next hc => exact hq hc

theorem Finds.orElse (hp : Finds φ p ψ R) (hq : Finds φ q ψ R) : Finds φ (Parser.orElse p q) ψ R := by
  intro s a s' hs hrun
  unfold Parser.orElse at hrun
  split at hrun
  · next r hfirst =>
    cases hrun
    exact hp s a s' hs hfirst
  · split at hrun
    · next r hsecond =>
      cases hrun
      exact hq s a s' hs hsecond
    · cases hrun

theorem finds_finishNode {R : List Nat → Tree → Prop} {start : Place} {kind : NodeKind} {children : List Tree}
    (h : ∀ extent, R [] (.node kind extent children)) : Finds φ (finishNode start kind children) φ R :=
  (@leads_look _ φ ParseState.last).bind fun _ _ => .pure (h _)

/-- As `Finds`, for a reader that takes a token before it passes any places. -/
def Starts (φ : ParseState → Prop) (p : Parser α) (ψ : ParseState → Prop) (R : List Nat → α → Prop) : Prop :=
  ∀ s a s', φ s → p s = .ok (a, s') →
    ψ s' ∧ ∃ found k, k < s.rest.length ∧ Passes k found s'.rest.length ∧ R found a

theorem Leads.starts {f : α → Parser β} {R' : List Nat → β → Prop} (hp : Leads φ p χ Q)
    (hf : ∀ a, Q a → Starts χ (f a) ψ R') : Starts φ (p >>= f) ψ R' := by
  intro s b s' hs hrun
  obtain ⟨a, s₁, hfirst, hrest⟩ := run_bind_eq_ok.1 hrun
  obtain ⟨hs₁, hle, ha⟩ := hp s a s₁ hs hfirst
  obtain ⟨hs', found, k, hlt, hfound, hb⟩ := hf a ha s₁ b s' hs₁ hrest
  exact ⟨hs', found, k, Nat.lt_of_lt_of_le hlt hle, hfound, hb⟩

end Leads

/-! ## Logical lines -/

section Lines

variable {all : List Token}

def Within (all : List Token) (s : ParseState) : Prop := ∃ before, all = before ++ s.rest

/-- Does a state stand where a logical line starts? -/
def AtLine (all : List Token) (s : ParseState) : Prop :=
  ∃ before, all = before ++ s.rest ∧ ∀ t ∈ before.getLast?, Lexer.IsLineEnd t

theorem within_of_atLine {s : ParseState} (h : AtLine all s) : Within all s := h.imp fun _ h => h.1

theorem Within.took {s s' : ParseState} {taken : List Token} (h : Within all s) (htaken : s.rest = taken ++ s'.rest) :
    Within all s' ∧ s'.rest.length ≤ s.rest.length := by
  obtain ⟨before, hbefore⟩ := h
  refine ⟨⟨before ++ taken, by rw [hbefore, htaken, List.append_assoc]⟩, ?_⟩
  rw [htaken, List.length_append]
  exact Nat.le_add_left _ _

theorem leads_of_reads {α : Type} {p : Parser α} {k' : List Bracket} {Q : α → Prop} (h : Reads Any [] p k' Q) :
    Leads (Within all) p (Within all) Q := by
  intro s a s' hs hrun
  obtain ⟨taken, htaken, -, ha⟩ := h s a s' trivial hrun
  obtain ⟨hs', hle⟩ := hs.took htaken.rest
  exact ⟨hs', hle, ha⟩

theorem leads_of_steady {α : Type} {p : Parser α} {Q : α → Prop} (h : Steady p Q) :
    Leads (Within all) p (Within all) Q :=
  leads_of_reads (h [])

theorem leads_lineEnd : Leads (Within all) lineEnd (AtLine all) (fun _ => True) := by
  rintro s a s' ⟨before, hbefore⟩ hrun
  obtain ⟨t, s₁, hpeek, hrun⟩ := run_bind_eq_ok.1 hrun
  cases hpeek
  generalize hkind : s.front.kind = kind at hrun
  split at hrun
  · next comments indent =>
    cases hrun
    have hrest : s.rest = s.front :: s.advance.rest := rest_eq_of_front fun h => by
      rw [hkind] at h
      cases h
    refine ⟨⟨before ++ [s.front], by rw [hbefore, hrest, List.append_assoc]; rfl, fun t ht => ?_⟩, ?_, trivial⟩
    · rw [List.getLast?_concat] at ht
      obtain rfl := Option.some.inj ht
      exact ⟨comments, indent, hkind⟩
    · rw [hrest]
      exact Nat.le_succ _
  · cases hrun

theorem leads_takeComments (indent : Nat) : Leads (AtLine all) (takeComments indent) (AtLine all) (fun _ => True) := by
  intro s a s' hs hrun
  cases hrun
  exact ⟨hs, Nat.le_refl _, trivial⟩

theorem leads_word {text : String} : Leads (AtLine all) (word text) (Within all) (fun _ => True) :=
  (leads_of_reads (reads_word text)).mono fun _ => within_of_atLine

theorem leads_word? {text : String} : Leads (AtLine all) (word? text) (Within all) (fun _ => True) :=
  (leads_of_reads (reads_word? text)).mono fun _ => within_of_atLine

theorem leads_advance : Leads (Within all) advance (Within all) (fun _ => True) := by
  intro s a s' hs hrun
  cases hrun
  have htaken : ∃ taken, s.rest = taken ++ s.advance.rest := by
    unfold ParseState.advance
    split
    · exact ⟨[], rfl⟩
    · next t rest hrest =>
      refine ⟨[t], hrest.trans ?_⟩
      split <;> rfl
  obtain ⟨taken, htaken⟩ := htaken
  obtain ⟨hs', hle⟩ := hs.took htaken
  exact ⟨hs', hle, trivial⟩

theorem starts_word {α : Type} {ψ : ParseState → Prop} {R : List Nat → α → Prop} {text : String} {f : Unit → Parser α}
    (hf : Finds (Within all) (f ()) ψ R) : Starts (Within all) (word text >>= f) ψ R := by
  intro s a s' hs hrun
  obtain ⟨u, s₁, hword, hrun⟩ := run_bind_eq_ok.1 hrun
  have hlt : s₁.rest.length < s.rest.length := by
    obtain ⟨t, s₂, hpeek, hword⟩ := run_bind_eq_ok.1 hword
    cases hpeek
    split at hword
    · next hfront =>
      cases hword
      have hedge := Token.edge_of_isWord hfront
      rw [rest_eq_of_front (kind_ne_finish (show s.front.edge.pushed [] = some [] by rw [hedge]; rfl))]
      exact Nat.lt_succ_self _
    · cases hword
  obtain ⟨hs', found, hfound, ha⟩ := hf s₁ a s' (leads_of_reads (reads_word text) s u s₁ hs hword).1 hrun
  exact ⟨hs', found, _, hlt, hfound, ha⟩

/-! ## Function definitions -/

/-- The function definitions in a tree, each before those inside it. -/
def functionNodes (t : Tree) : List Tree := t.preorder.filter (fun n => n.kind == .functionDefinition)

/-- Was a function definition read where a logical line starts and so many tokens are left? -/
def DefinedAt (all : List Token) (f : Tree) (left : Nat) : Prop :=
  ∃ rounds indent s s', AtLine all s ∧ s.rest.length = left ∧ functionDefinition (reader rounds) indent s = .ok (f, s')

/-- Are some places those where the function definitions in a tree were read? -/
def Known (all : List Token) (found : List Nat) (t : Tree) : Prop := List.Forall₂ (DefinedAt all) (functionNodes t) found

def AllKnown (all : List Token) (found : List Nat) (trees : List Tree) : Prop :=
  List.Forall₂ (DefinedAt all) (trees.flatMap functionNodes) found

section Known

variable {a b found : List Nat} {t : Tree} {trees rest : List Tree}

theorem known_of_plain (h : t.Plain) : Known all [] t := by
  have hnone : functionNodes t = [] := List.filter_eq_nil_iff.2 fun n hn hkind => h n hn (beq_iff_eq.1 hkind)
  rw [Known, hnone]
  exact .nil

theorem allKnown_nil : AllKnown all [] [] := .nil

theorem allKnown_cons (ht : Known all a t) (hrest : AllKnown all b rest) : AllKnown all (a ++ b) (t :: rest) :=
  List.rel_append ht hrest

theorem allKnown_append (h : AllKnown all a trees) (hrest : AllKnown all b rest) : AllKnown all (a ++ b) (trees ++ rest) := by
  rw [AllKnown, List.flatMap_append]
  exact List.rel_append h hrest

theorem allKnown_single (ht : Known all a t) : AllKnown all (a ++ []) [t] := allKnown_cons ht allKnown_nil

theorem AllKnown.last (h : AllKnown all a trees) : AllKnown all (a ++ []) trees := by rwa [List.append_nil]

theorem allKnown_plain_cons (ht : t.Plain) (hrest : AllKnown all found rest) : AllKnown all found (t :: rest) :=
  allKnown_cons (known_of_plain ht) hrest

theorem allKnown_of_plain (h : AllPlain trees) : AllKnown all [] trees := by
  induction trees with
  | nil => exact allKnown_nil
  | cons t rest ih => exact allKnown_plain_cons (h t List.mem_cons_self) (ih fun t ht => h t (List.mem_cons_of_mem _ ht))

theorem allKnown_plain_append (h : AllPlain trees) (hrest : AllKnown all found rest) : AllKnown all found (trees ++ rest) :=
  allKnown_append (allKnown_of_plain h) hrest

theorem functionNodes_node (kind : NodeKind) (extent : Extent) (children : List Tree) :
    functionNodes (.node kind extent children) =
      (if kind = .functionDefinition then [.node kind extent children] else []) ++ children.flatMap functionNodes := by
  rw [functionNodes, Tree.preorder_node, List.filter_cons, List.filter_flatMap, Tree.kind]
  by_cases hkind : kind = .functionDefinition
  · rw [if_pos (beq_iff_eq.2 hkind), if_pos hkind]
    rfl
  · rw [if_neg (fun h => hkind (beq_iff_eq.1 h)), if_neg hkind]
    rfl

theorem finds_node {φ : ParseState → Prop} {start : Place} {kind : NodeKind} {F : List Nat → List Nat}
    (hkind : kind ≠ .functionDefinition) (h : AllKnown all (F []) trees) :
    Finds φ (finishNode start kind trees) φ (fun found => Known all (F found)) :=
  finds_finishNode fun extent => by
    rw [Known, functionNodes_node, if_neg hkind]
    exact h

end Known

theorem finds_repeatWhile {φ : ParseState → Prop} {goes : Token → Bool} {item : Parser Tree}
    (hitem : Finds φ item φ (Known all)) (fuel : Nat) : Finds φ (repeatWhile goes item fuel) φ (AllKnown all) := by
  induction fuel with
  | zero => exact .fail
  | succ fuel ih =>
    refine leads_peek.bind fun t _ => .ite (fun _ => ?_) fun _ => .pure allKnown_nil
    exact hitem.bind fun _ first hfirst => ih.bind fun _ rest hrest => .pure (allKnown_cons hfirst hrest.last)

theorem finds_repeatWhen {φ : ParseState → Prop} {goes : Parser Bool} {item : Parser Tree}
    (hgoes : Leads φ goes φ (fun _ => True)) (hitem : Finds φ item φ (Known all)) (fuel : Nat) :
    Finds φ (repeatWhen goes item fuel) φ (AllKnown all) := by
  induction fuel with
  | zero => exact .fail
  | succ fuel ih =>
    refine hgoes.bind fun _ _ => .ite (fun _ => ?_) fun _ => .pure allKnown_nil
    exact hitem.bind fun _ first hfirst => ih.bind fun _ rest hrest => .pure (allKnown_cons hfirst hrest.last)

/-- Do the readers of statements with blocks lead from line to line, passing the definitions that they read? -/
structure Laid (all : List Token) (read : Category → Parser Tree) : Prop where
  compound (indent : Nat) : Finds (AtLine all) (read (.compound indent)) (AtLine all) (Known all)
  suite (indent : Nat) : Finds (Within all) (read (.suite indent)) (AtLine all) (Known all)

section Rules

variable (h : Sane self) (hlaid : Laid all self)

include h

theorem finds_simpleLine (fuel : Nat) : Finds (Within all) (simpleLine self fuel) (AtLine all) (AllKnown all) := by
  induction fuel with
  | zero => exact .fail
  | succ fuel ih =>
    refine (leads_of_steady (steady_simpleStatement h)).bind fun first hfirst =>
      (leads_of_reads (reads_sign? rfl)).bind fun _ _ => .ite (fun _ => ?_) fun _ => ?_
    · refine (leads_of_steady steady_atLineEnd).bind fun _ _ => .ite (fun _ => ?_) fun _ => ?_
      · exact leads_lineEnd.bind fun _ _ => .pure (allKnown_of_plain (allPlain_single hfirst))
      · exact ih.bind fun _ rest hrest => .pure (allKnown_plain_cons hfirst hrest.last)
    · exact leads_lineEnd.bind fun _ _ => .pure (allKnown_of_plain (allPlain_single hfirst))

include hlaid

theorem finds_statementLine (indent : Nat) :
    Finds (AtLine all) (statementLine self indent) (AtLine all) (AllKnown all) := by
  refine leads_peek.bind fun t _ => ?_
  extract_lets plain nested
  have hplain : Finds (AtLine all) plain (AtLine all) (AllKnown all) :=
    leads_bound.bind fun n _ => (finds_simpleLine h n).mono fun _ => within_of_atLine
  have hnested : Finds (AtLine all) nested (AtLine all) (AllKnown all) :=
    (hlaid.compound indent).bind fun _ t ht => .pure (allKnown_single ht)
  exact leads_peekSecond.bind fun second _ => .ite (fun _ => hnested) fun _ =>
    .ite (fun _ => .orElse hnested hplain) fun _ => hplain

omit h hlaid

theorem finds_blockOf {line : Parser (List Tree)} (hline : Finds (AtLine all) line (AtLine all) (AllKnown all))
    (indent fuel : Nat) : Finds (AtLine all) (blockOf line indent fuel) (AtLine all) (AllKnown all) := by
  induction fuel with
  | zero => exact .fail
  | succ fuel ih =>
    refine leads_peek.bind fun t _ => leads_indent.bind fun n _ => .ite (fun _ => ?_) fun _ => ?_
    · exact (leads_takeComments indent).bind fun _ _ => .pure allKnown_nil
    · exact (leads_takeComments 0).bind fun _ _ => hline.bind fun _ first hfirst => ih.bind fun _ rest hrest =>
        .pure (allKnown_append hfirst hrest.last)

theorem finds_innerBlock {line : Nat → Parser (List Tree)}
    (hline : ∀ n, Finds (AtLine all) (line n) (AtLine all) (AllKnown all)) (indent : Nat) :
    Finds (AtLine all) (innerBlock line indent) (AtLine all) (AllKnown all) :=
  leads_indent.bind fun inner _ => .ite
    (fun _ => leads_bound.bind fun n _ => finds_blockOf (hline inner) inner n) fun _ => .pure allKnown_nil

include h hlaid

theorem finds_suite (indent : Nat) : Finds (Within all) (suite self indent) (AtLine all) (Known all) := by
  refine leads_here.bind fun start _ => (leads_of_steady steady_atLineEnd).bind fun _ _ => .ite (fun _ => ?_) fun _ => ?_
  · exact leads_lineEnd.bind fun _ _ => (finds_innerBlock (finds_statementLine h hlaid) indent).bind fun _ inner hinner =>
      finds_node (by decide) hinner.last
  · exact leads_bound.bind fun n _ => (finds_simpleLine h n).bind fun _ inner hinner => finds_node (by decide) hinner.last

omit h

theorem finds_body (indent : Nat) : Finds (Within all) (body self indent) (AtLine all) (Known all) :=
  (leads_of_reads (reads_sign rfl)).bind fun _ _ => hlaid.suite indent

omit hlaid

theorem finds_clauses {item : Parser Tree} (hitem : Finds (AtLine all) item (AtLine all) (Known all)) (indent : Nat)
    (text : String) : Finds (AtLine all) (clauses indent text item) (AtLine all) (AllKnown all) :=
  leads_bound.bind fun n _ => finds_repeatWhen (leads_clauseFollows indent text) hitem n

include hlaid

theorem finds_clause? (indent : Nat) (text : String) {kind : NodeKind} (hkind : kind ≠ .functionDefinition) :
    Finds (AtLine all) (clause? self indent text kind) (AtLine all) (AllKnown all) := by
  refine (leads_clauseFollows indent text).bind fun _ _ => .ite (fun _ => ?_) fun _ => .pure allKnown_nil
  refine leads_here.bind fun start _ => (leads_advance.mono fun _ => within_of_atLine).bind fun _ _ =>
    (finds_body hlaid indent).bind fun _ inner hinner => ?_
  refine (finds_node hkind (allKnown_single hinner)).bind fun _ t ht => .pure ?_
  rw [← List.append_assoc]
  exact allKnown_single ht

include h

theorem finds_elifClause (indent : Nat) : Finds (AtLine all) (elifClause self indent) (AtLine all) (Known all) :=
  leads_here.bind fun start _ => leads_word.bind fun _ _ => (leads_of_steady h.expression).bind fun condition hcondition =>
    (finds_body hlaid indent).bind fun _ inner hinner =>
      finds_node (by decide) (allKnown_plain_cons hcondition (allKnown_single hinner))

theorem finds_ifStatement (indent : Nat) : Finds (AtLine all) (ifStatement self indent) (AtLine all) (Known all) :=
  leads_here.bind fun start _ => leads_word.bind fun _ _ => (leads_of_steady h.expression).bind fun condition hcondition =>
    (finds_body hlaid indent).bind fun _ inner hinner =>
      (finds_clauses (finds_elifClause h hlaid indent) indent "elif").bind fun _ others hothers =>
        (finds_clause? hlaid indent "else" (by decide)).bind fun _ last hlast => finds_node (by decide)
          (allKnown_plain_cons hcondition (allKnown_cons hinner (allKnown_append hothers hlast.last)))

theorem finds_whileStatement (indent : Nat) : Finds (AtLine all) (whileStatement self indent) (AtLine all) (Known all) :=
  leads_here.bind fun start _ => leads_word.bind fun _ _ => (leads_of_steady h.expression).bind fun condition hcondition =>
    (finds_body hlaid indent).bind fun _ inner hinner =>
      (finds_clause? hlaid indent "else" (by decide)).bind fun _ last hlast =>
        finds_node (by decide) (allKnown_plain_cons hcondition (allKnown_cons hinner hlast.last))

theorem finds_forStatement (indent : Nat) : Finds (AtLine all) (forStatement self indent) (AtLine all) (Known all) :=
  leads_here.bind fun start _ => leads_word?.bind fun _ _ => (leads_of_reads (reads_word _)).bind fun _ _ =>
    (leads_of_steady (steady_loopTargets (steady_boundedOperand h))).bind fun targets htargets =>
      (leads_of_steady (steady_expressions h)).bind fun source hsource =>
        (finds_body hlaid indent).bind fun _ inner hinner =>
          (finds_clause? hlaid indent "else" (by decide)).bind fun _ last hlast => finds_node (by decide)
            (allKnown_plain_append htargets (allKnown_plain_cons hsource (allKnown_cons hinner hlast.last)))

theorem finds_withStatement (indent : Nat) : Finds (AtLine all) (withStatement self indent) (AtLine all) (Known all) :=
  leads_here.bind fun start _ => leads_word?.bind fun _ _ => (leads_of_reads (reads_word _)).bind fun _ _ =>
    (leads_of_steady (steady_elements h)).bind fun found hitems => (finds_body hlaid indent).bind fun _ inner hinner =>
      finds_node (by decide) (allKnown_plain_append hitems (allKnown_single hinner))

theorem finds_exceptClause (indent : Nat) : Finds (AtLine all) (exceptClause self indent) (AtLine all) (Known all) := by
  refine leads_here.bind fun start _ => leads_word.bind fun _ _ => (leads_of_reads (reads_sign? rfl)).bind fun _ _ =>
    leads_peek.bind fun t _ => ?_
  extract_lets finish
  have hfinish (caught : List Tree) (hcaught : AllPlain caught) :
      Finds (Within all) (finish caught) (AtLine all) (Known all) :=
    (finds_body hlaid indent).bind fun _ inner hinner =>
      finds_node (by decide) (allKnown_plain_append hcaught (allKnown_single hinner))
  refine .ite (fun _ => (Leads.pure allPlain_nil).bind hfinish) fun _ => ?_
  refine (leads_of_steady h.expression).bind fun kinds hkinds => (leads_of_reads (reads_sign? rfl)).bind fun _ _ =>
    .ite (fun _ => ?_) fun _ => (Leads.pure (allPlain_single hkinds)).bind hfinish
  exact (leads_of_steady h.expression).bind fun named hnamed =>
    (Leads.pure (allPlain_cons hkinds (allPlain_single hnamed))).bind hfinish

theorem finds_tryStatement (indent : Nat) : Finds (AtLine all) (tryStatement self indent) (AtLine all) (Known all) := by
  refine leads_here.bind fun start _ => leads_word.bind fun _ _ => (finds_body hlaid indent).bind fun a inner hinner =>
    (finds_clauses (finds_exceptClause h hlaid indent) indent "except").bind fun b handlers hhandlers => ?_
  extract_lets behind
  have hbehind (c : List Nat) (other : List Tree) (hother : AllKnown all c other) :
      Finds (AtLine all) (behind other) (AtLine all) (fun found => Known all (a ++ (b ++ (c ++ found)))) := by
    refine (finds_clause? hlaid indent "finally" (by decide)).bind fun _ last hlast => .ite (fun _ => ?_) fun _ => ?_
    · exact finds_fail_bind
    · refine finds_node (by decide) ?_
      rw [List.append_assoc]
      exact allKnown_cons hinner (allKnown_append hhandlers (allKnown_append hother hlast.last))
  exact .ite (fun _ => (Finds.pure allKnown_nil).bind hbehind) fun _ =>
    (finds_clause? hlaid indent "else" (by decide)).bind hbehind

theorem finds_classDefinition (indent : Nat) :
    Finds (AtLine all) (classDefinition self indent) (AtLine all) (Known all) := by
  refine leads_here.bind fun start _ => leads_word.bind fun _ _ => (leads_of_steady steady_name).bind fun named hnamed =>
    (leads_of_steady (steady_typeParameters h)).bind fun typeNames htypeNames => leads_peek.bind fun t _ => ?_
  extract_lets finish
  have hfinish (bases : List Tree) (hbases : AllPlain bases) :
      Finds (Within all) (finish bases) (AtLine all) (Known all) :=
    (finds_body hlaid indent).bind fun _ inner hinner => finds_node (by decide)
      (allKnown_plain_append (allPlain_append (allPlain_cons hnamed htypeNames) hbases) (allKnown_single hinner))
  refine .ite (fun _ => ?_) fun _ => (Leads.pure allPlain_nil).bind hfinish
  exact (leads_of_steady (steady_arguments h (steady_boundedOperand h))).bind fun given hgiven =>
    (Leads.pure (allPlain_single hgiven)).bind hfinish

omit hlaid in
theorem finds_decorator : Finds (AtLine all) (decorator self) (AtLine all) (Known all) :=
  leads_here.bind fun start _ => ((leads_of_reads (reads_sign rfl)).mono fun _ => within_of_atLine).bind fun _ _ =>
    (leads_of_steady h.expression).bind fun inner hinner => leads_lineEnd.bind fun _ _ =>
      finds_node (by decide) (allKnown_of_plain (allPlain_single hinner))

theorem finds_caseClause (indent : Nat) : Finds (AtLine all) (caseClause self indent) (AtLine all) (Known all) := by
  refine leads_here.bind fun start _ => leads_word.bind fun _ _ => leads_bound.bind fun n _ =>
    (leads_of_steady (steady_commaList h.pattern n)).bind fun patterns hpatterns => .ite (fun _ => ?_) fun _ => ?_
  · exact finds_fail_bind
  · refine (leads_of_reads (reads_word? _)).bind fun _ _ => ?_
    extract_lets finish
    have hfinish (guarding : List Tree) (hguarding : AllPlain guarding) :
        Finds (Within all) (finish guarding) (AtLine all) (Known all) :=
      (finds_body hlaid indent).bind fun _ inner hinner =>
        finds_node (by decide) (allKnown_plain_append (allPlain_append hpatterns hguarding) (allKnown_single hinner))
    refine .ite (fun _ => ?_) fun _ => (Leads.pure allPlain_nil).bind hfinish
    exact (leads_of_steady h.expression).bind fun condition hcondition =>
      (Leads.pure (allPlain_single hcondition)).bind hfinish

theorem finds_matchStatement (indent : Nat) :
    Finds (AtLine all) (matchStatement self indent) (AtLine all) (Known all) := by
  refine leads_here.bind fun start _ => leads_word.bind fun _ _ => (leads_of_steady (steady_elements h)).bind
    fun found hsubjects => (leads_of_reads (reads_sign rfl)).bind fun _ _ => leads_lineEnd.bind fun _ _ => ?_
  have hline (n : Nat) : Finds (AtLine all) (do pure [← caseClause self n]) (AtLine all) (AllKnown all) :=
    (finds_caseClause h hlaid n).bind fun _ clause hclause => .pure (allKnown_single hclause)
  exact (finds_innerBlock hline indent).bind fun _ cases hcases =>
    finds_node (by decide) (allKnown_plain_append hsubjects hcases.last)

end Rules

/-- A function definition is read where its header starts, and those inside it are read behind that. -/
theorem finds_functionDefinition {rounds : Nat} (hlaid : Laid all (reader rounds)) (indent : Nat) :
    Finds (AtLine all) (functionDefinition (reader rounds) indent) (AtLine all) (Known all) := by
  have h := sane_reader rounds
  have hchildren : Starts (AtLine all) (functionDefinition (reader rounds) indent) (AtLine all)
      (fun found f => f.kind = .functionDefinition ∧ AllKnown all found f.children) := by
    refine leads_here.starts fun start _ => leads_word?.starts fun _ _ => starts_word ?_
    refine (leads_of_steady steady_name).bind fun named hnamed =>
      (leads_of_steady (steady_typeParameters h)).bind fun typeNames htypeNames =>
      (leads_of_steady (steady_parameters h)).bind fun items hitems =>
      (leads_of_reads (reads_sign? rfl)).bind fun _ _ => ?_
    extract_lets finish
    have hfinish (result : List Tree) (hresult : AllPlain result) : Finds (Within all) (finish result) (AtLine all)
        (fun found f => f.kind = .functionDefinition ∧ AllKnown all found f.children) :=
      (finds_body hlaid indent).bind fun _ inner hinner => finds_finishNode fun extent => ⟨rfl, allKnown_plain_append
        (allPlain_append (allPlain_cons hnamed htypeNames) (allPlain_cons hitems hresult)) (allKnown_single hinner)⟩
    refine .ite (fun _ => ?_) fun _ => (Leads.pure allPlain_nil).bind hfinish
    exact (leads_of_steady h.expression).bind fun t ht => (Leads.pure (allPlain_single ht)).bind hfinish
  intro s f s' hs hrun
  obtain ⟨hs', found, k, hlt, hfound, hkind, hknown⟩ := hchildren s f s' hs hrun
  refine ⟨hs', s.rest.length :: found, hfound.cons hlt, ?_⟩
  obtain ⟨kind, extent, children⟩ := f
  rw [Known, functionNodes_node, if_pos (show kind = .functionDefinition from hkind)]
  exact .cons ⟨rounds, indent, s, s', hs, rfl, hrun⟩ hknown

theorem finds_definition {rounds : Nat} (hlaid : Laid all (reader rounds)) (indent : Nat) :
    Finds (AtLine all) (definition (reader rounds) indent) (AtLine all) (Known all) :=
  leads_peek.bind fun _ _ => .ite (fun _ => finds_classDefinition (sane_reader rounds) hlaid indent) fun _ =>
    finds_functionDefinition hlaid indent

theorem finds_compound {rounds : Nat} (hlaid : Laid all (reader rounds)) (indent : Nat) :
    Finds (AtLine all) (compound (reader rounds) indent) (AtLine all) (Known all) := by
  have h := sane_reader rounds
  have hdecorated : Finds (AtLine all) (decoratedDefinition (reader rounds) indent) (AtLine all) (Known all) :=
    leads_here.bind fun start _ => leads_bound.bind fun n _ =>
      (finds_repeatWhile (finds_decorator h) n).bind fun _ decorators hdecorators =>
        (finds_definition hlaid indent).bind fun _ inner hinner =>
          finds_node (by decide) (allKnown_append hdecorators (allKnown_single hinner))
  exact leads_peek.bind fun t _ => leads_peekSecond.bind fun second _ =>
    .ite (fun _ => hdecorated) fun _ =>
    .ite (fun _ => finds_ifStatement h hlaid indent) fun _ =>
    .ite (fun _ => finds_forStatement h hlaid indent) fun _ =>
    .ite (fun _ => finds_whileStatement h hlaid indent) fun _ =>
    .ite (fun _ => finds_tryStatement h hlaid indent) fun _ =>
    .ite (fun _ => finds_withStatement h hlaid indent) fun _ =>
    .ite (fun _ => finds_matchStatement h hlaid indent) fun _ => finds_definition hlaid indent

theorem laid_reader (rounds : Nat) : Laid all (reader rounds) := by
  induction rounds with
  | zero => exact ⟨fun _ => .fail, fun _ => .fail⟩
  | succ rounds ih => exact ⟨finds_compound ih, finds_suite (sane_reader rounds) ih⟩

end Lines

theorem finds_module {all : List Token} (rounds : Nat) : Finds (AtLine all) (module rounds) (AtLine all) (Known all) :=
  leads_here.bind fun start _ => leads_bound.bind fun n _ =>
    (finds_blockOf (finds_statementLine (sane_reader rounds) (laid_reader rounds) 0) 0 n).bind
      fun _ statements hstatements =>
        leads_peek.bind fun t _ => .ite (fun _ => finds_node (by decide) hstatements.last) fun _ => .fail

section Source

variable {source : List Char} {tree : Tree}

/-- The function definitions in the tree of a source were read where logical lines start, one behind the other. -/
theorem exists_definedAt (hparse : parse source = .ok tree) :
    ∃ found, Known (tokens source) found tree ∧ found.Pairwise (· > ·) := by
  have hstart : AtLine (tokens source) ⟨tokens source, .start, [], 0⟩ := ⟨[], rfl, fun t ht => by cases ht⟩
  unfold parse at hparse
  simp only at hparse
  split at hparse
  · next read s' hrun =>
    cases hparse
    obtain ⟨-, found, hfound, hknown⟩ := finds_module _ _ _ _ hstart hrun
    exact ⟨found, hknown, hfound.pairwise⟩
  · cases hparse

theorem exists_of_forall₂ {all : List Token} {nodes : List Tree} {found : List Nat}
    (h : List.Forall₂ (DefinedAt all) nodes found) {f : Tree} (hf : f ∈ nodes) : ∃ left ∈ found, DefinedAt all f left := by
  induction h with
  | nil => cases hf
  | cons hfirst _ ih =>
    rcases List.mem_cons.1 hf with rfl | hf
    · exact ⟨_, List.mem_cons_self, hfirst⟩
    · obtain ⟨left, hleft, hf⟩ := ih hf
      exact ⟨left, List.mem_cons_of_mem _ hleft, hf⟩

/-- Each function definition in the tree of a source was read where a logical line starts. -/
theorem defined_of_mem_preorder (hparse : parse source = .ok tree) {f : Tree} (hf : f ∈ tree.preorder)
    (hkind : f.kind = .functionDefinition) : ∃ left, DefinedAt (tokens source) f left := by
  obtain ⟨found, hknown, -⟩ := exists_definedAt hparse
  obtain ⟨left, -, hleft⟩ := exists_of_forall₂ hknown (List.mem_filter.2 ⟨hf, beq_iff_eq.2 hkind⟩)
  exact ⟨left, hleft⟩

/-- Where a function definition was read, fewer tokens are left than where one before it was. -/
theorem pairwise_definedAt (hparse : parse source = .ok tree) :
    (functionNodes tree).Pairwise
      (fun f g => ∃ m n, DefinedAt (tokens source) f m ∧ DefinedAt (tokens source) g n ∧ n < m) := by
  obtain ⟨found, hknown, hpairs⟩ := exists_definedAt hparse
  rw [Known] at hknown
  generalize functionNodes tree = nodes at hknown
  induction hknown with
  | nil => exact .nil
  | cons hfirst hrest ih =>
    obtain ⟨hless, hpairs⟩ := List.pairwise_cons.1 hpairs
    refine List.pairwise_cons.2 ⟨fun g hg => ?_, ih hpairs⟩
    obtain ⟨n, hn, hg⟩ := exists_of_forall₂ hrest hg
    exact ⟨_, n, hfirst, hg, hless n hn⟩

end Source

end Consolidation.Python.Grammar
