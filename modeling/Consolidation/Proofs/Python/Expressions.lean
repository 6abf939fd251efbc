/-
# `Proofs.Python.Expressions` — expressions and statements of one line keep brackets in pairs

Every reader of an expression, a pattern or a statement without blocks takes tokens in which brackets, formatted strings
and holes come in pairs, and none that ends a logical line; and there are no function definitions in what it reads.  The
readers refer to each other through the categories of the grammar, so each is dealt with under the assumption that the
categories are (`Sane`), and by induction on the rounds they all are (`sane_reader`).

The assumption `Sane` is one statement for all categories: the reader of a category takes tokens that bring the open
brackets back to where they were, and what it returns is plain.  Each reader of the grammar then has one lemma, named for
it, which follows its text; the rule for a category is that of the reader that it stands for (`sane_rule`), and the
induction is on the number of rounds that a reader may go around.
-/
import Consolidation.Python.Grammar
import Consolidation.Proofs.Python.Reading

namespace Consolidation.Python.Grammar

open Python.Parser

/-- Do the readers for the categories below statements take pairs of brackets, and read no definitions? -/
structure Sane (read : Category → Parser Tree) : Prop where
  expression : Steady (read .expression) Tree.Plain
  disjunction : Steady (read .disjunction) Tree.Plain
  inversion : Steady (read .inversion) Tree.Plain
  factor : Steady (read .factor) Tree.Plain
  pattern : Steady (read .pattern) Tree.Plain
  hole : Steady (read .hole) Tree.Plain

def AllPlain (trees : List Tree) : Prop := ∀ t ∈ trees, t.Plain

theorem allPlain_nil : AllPlain [] := List.forall_mem_nil _

theorem allPlain_cons {t : Tree} {rest : List Tree} (ht : t.Plain) (hrest : AllPlain rest) : AllPlain (t :: rest) :=
  List.forall_mem_cons.2 ⟨ht, hrest⟩

theorem allPlain_single {t : Tree} (ht : t.Plain) : AllPlain [t] := allPlain_cons ht allPlain_nil

theorem allPlain_append {a b : List Tree} (ha : AllPlain a) (hb : AllPlain b) : AllPlain (a ++ b) :=
  List.forall_mem_append.2 ⟨ha, hb⟩

section Nodes

variable {φ : ParseState → Prop} {k : List Bracket} {start : Place} {kind : NodeKind}

theorem reads_node (hkind : kind ≠ .functionDefinition) {children : List Tree} (h : AllPlain children) :
    Reads φ k (finishNode start kind children) k Tree.Plain :=
  reads_finishNode hkind h

theorem reads_leaf (hkind : kind ≠ .functionDefinition) : Reads φ k (finishNode start kind []) k Tree.Plain :=
  reads_node hkind allPlain_nil

theorem reads_unary (hkind : kind ≠ .functionDefinition) {t : Tree} (ht : t.Plain) :
    Reads φ k (finishNode start kind [t]) k Tree.Plain :=
  reads_node hkind (allPlain_single ht)

theorem reads_binary (hkind : kind ≠ .functionDefinition) {t u : Tree} (ht : t.Plain) (hu : u.Plain) :
    Reads φ k (finishNode start kind [t, u]) k Tree.Plain :=
  reads_node hkind (allPlain_cons ht (allPlain_single hu))

end Nodes

theorem steady_name : Steady name Tree.Plain := by
  intro k
  refine .here fun start => ?_
  exact (reads_token fun t ht => by rw [Token.edge_of_name ht]; rfl).bind fun _ _ => reads_leaf (by decide)

theorem edge_of_any {texts : List String} {t : Token} (htexts : ∀ text ∈ texts, signEdge text = .inside)
    (h : (t.kind == .sign && texts.contains t.text) = true) : t.edge = .inside := by
  rw [Bool.and_eq_true, beq_iff_eq, List.contains_iff_mem] at h
  rw [Token.edge, h.1]
  exact htexts _ h.2

theorem run_name {s s' : ParseState} {named : Tree} (h : name s = .ok (named, s')) :
    s.front.kind = .name ∧ s' = s.advance ∧ named = .node .identifier ⟨s.front.start, s.front.stop⟩ [] := by
  obtain ⟨start, s₁, hhere, h⟩ := run_bind_eq_ok.1 h
  cases hhere
  obtain ⟨u, s₂, htoken, h⟩ := run_bind_eq_ok.1 h
  obtain ⟨hkind, rfl⟩ := run_token htoken
  cases h
  have hfinish : s.front.kind ≠ .finish := fun hkind' => by
    rw [hkind] at hkind'
    cases hkind'
  exact ⟨hkind, rfl, by rw [last_advance hfinish]; rfl⟩

theorem reads_name_bind {α : Type} {φ : ParseState → Prop} {k k' : List Bracket} {f : Tree → Parser α} {Q : α → Prop}
    (hf : ∀ named, named.Plain → Reads (fun s' => ∃ s, φ s ∧ s' = s.advance) k (f named) k' Q) :
    Reads φ k (name >>= f) k' Q := by
  intro s a s' hs hrun
  obtain ⟨named, s₁, hname, hrest⟩ := run_bind_eq_ok.1 hrun
  obtain ⟨taken, htaken, hnest, hplain⟩ := steady_name k s named s₁ trivial hname
  obtain ⟨taken', htaken', hnest', ha⟩ := hf named hplain s₁ a s' ⟨s, hs, (run_name hname).2.1⟩ hrest
  exact ⟨taken ++ taken', htaken.trans htaken', by rw [nest_append, hnest]; exact hnest', ha⟩

variable {self : Category → Parser Tree} {operand : Parser Tree}

/-! ## Lists of expressions -/

theorem steady_element (h : Sane self) : Steady (element self) Tree.Plain := by
  intro k
  refine .here fun start => (reads_sign? rfl).bind fun star _ => .ite (fun _ => ?_) fun _ => ?_
  · exact (h.disjunction.reads k).bind fun inner hinner => reads_unary (by decide) hinner
  · exact h.expression.reads k

theorem steady_elements (h : Sane self) : Steady (elements self) (fun found => AllPlain found.1) := by
  intro k
  refine ((steady_element h).reads k).bind fun first hfirst => (reads_sign? rfl).bind fun comma _ =>
    .ite (fun _ => ?_) fun _ => ?_
  · exact .bound fun n => ((steady_commaList (steady_element h) n).reads k).bind fun rest hrest =>
      .pure (allPlain_cons hfirst hrest)
  · exact .pure (allPlain_single hfirst)

theorem steady_expressions (h : Sane self) : Steady (expressions self) Tree.Plain := by
  intro k
  refine .here fun start => ((steady_elements h).reads k).bind fun found hfound => ?_
  split
  · exact .pure (hfound _ (List.mem_singleton_self _))
  · exact reads_node (by decide) hfound

theorem steady_yielding (h : Sane self) : Steady (yielding self) Tree.Plain := by
  intro k
  refine .here fun start => (reads_word _).bind fun _ _ => (reads_word? _).bind fun fromWord _ =>
    .ite (fun _ => ?_) fun _ => .peek fun t => .ite (fun _ => ?_) fun _ => reads_leaf (by decide)
  · exact (h.expression.reads k).bind fun inner hinner => reads_unary (by decide) hinner
  · exact ((steady_expressions h).reads k).bind fun inner hinner => reads_unary (by decide) hinner

theorem steady_value (h : Sane self) : Steady (value self) Tree.Plain := by
  intro k
  refine .peek fun t => .ite (fun _ => ?_) fun _ => ?_
  · exact (steady_yielding h).reads k
  · exact (steady_expressions h).reads k

/-! ## Strings -/

theorem steady_holes (h : Sane self) (fuel : Nat) :
    Steady (repeatWhile (·.kind == .holeOpen) (self .hole) fuel) AllPlain :=
  steady_repeatWhile (fun k => h.hole.reads k) fuel

theorem steady_hole (h : Sane self) : Steady (hole self) Tree.Plain := by
  intro k
  have hopen : ∀ t : Token, t.kind = .holeOpen → t.edge.pushed k = some (.hole :: k) := fun t ht => by
    rw [Token.edge, ht]
    rfl
  have hclose : ∀ t : Token, t.kind = .holeClose → t.edge.pushed (.hole :: k) = some k := fun t ht => by
    rw [Token.edge, ht]
    rfl
  have hconversion : ∀ t : Token, t.kind = .conversion → t.edge = .inside := fun t ht => by
    rw [Token.edge, ht]
  refine .here fun start => (reads_token hopen).bind fun _ _ => ((steady_value h).reads _).bind fun inner hinner =>
    (reads_sign? rfl).bind fun _ _ => .peek fun t => ?_
  extract_lets finish format
  have hfinish (formats : List Tree) (hformats : AllPlain formats) :
      Reads Any (.hole :: k) (finish formats) k Tree.Plain :=
    (reads_token hclose).bind fun _ _ => reads_node (by decide) (allPlain_cons hinner hformats)
  have hformat (u : Unit) : Reads Any (.hole :: k) (format u) k Tree.Plain := by
    refine (reads_sign? rfl).bind fun colon _ => .ite (fun _ => ?_) fun _ => (Reads.pure allPlain_nil).bind hfinish
    exact .bound fun n => ((steady_holes h n).reads _).bind hfinish
  refine .ite (fun hkind => .ite (fun _ => ?_) fun _ => reads_fail_bind) fun _ => (hformat ()).weaken
  exact .advance (fun s hs => by rw [hs.2]; exact hconversion t (beq_iff_eq.1 hkind)) (hformat ())

theorem steady_stringLiteral (h : Sane self) : Steady (stringLiteral self) Tree.Plain := by
  intro k
  have hopen : ∀ t : Token, t.kind = .formatOpen → t.edge.pushed k = some (.format :: k) := fun t ht => by
    rw [Token.edge, ht]
    rfl
  have hclose : ∀ t : Token, t.kind = .formatClose → t.edge.pushed (.format :: k) = some k := fun t ht => by
    rw [Token.edge, ht]
    rfl
  refine .here fun start => .peek fun t => .ite (fun hstring => ?_) fun _ => ?_
  · refine .advance (fun s hs => ?_) (reads_leaf (by decide))
    rw [hs.2, Token.edge, beq_iff_eq.1 hstring]
  · exact (reads_token hopen).bind fun _ _ => .bound fun n => ((steady_holes h n).reads _).bind fun holes hholes =>
      (reads_token hclose).bind fun _ _ => reads_node (by decide) hholes

theorem steady_strings (h : Sane self) : Steady (strings self) Tree.Plain := by
  intro k
  refine .here fun start => ((steady_stringLiteral h).reads k).bind fun first hfirst => .bound fun n => ?_
  refine ((steady_repeatWhile (fun k => (steady_stringLiteral h).reads k) n).reads k).bind fun rest hrest => ?_
  exact .ite (fun _ => .pure hfirst) fun _ => reads_node (by decide) (allPlain_cons hfirst hrest)

/-! ## Brackets -/

theorem steady_starredTarget (hoperand : Steady operand Tree.Plain) : Steady (starredTarget operand) Tree.Plain := by
  intro k
  refine .here fun start => (reads_sign? rfl).bind fun star _ => .ite (fun _ => ?_) fun _ => hoperand.reads k
  exact (hoperand.reads k).bind fun inner hinner => reads_unary (by decide) hinner

theorem steady_loopTargets (hoperand : Steady operand Tree.Plain) : Steady (loopTargets operand) AllPlain := by
  intro k
  refine .bound fun n => ((steady_commaList (steady_starredTarget hoperand) n).reads k).bind fun targets htargets => ?_
  exact .ite (fun _ => reads_fail_bind) fun _ => (reads_word _).bind fun _ _ => .pure htargets

theorem steady_comprehensionLoop (h : Sane self) (hoperand : Steady operand Tree.Plain) :
    Steady (comprehensionLoop self operand) Tree.Plain := by
  intro k
  exact .here fun start => (reads_word? _).bind fun _ _ => (reads_word _).bind fun _ _ =>
    ((steady_loopTargets hoperand).reads k).bind fun targets htargets => (h.disjunction.reads k).bind fun source hsource =>
      reads_node (by decide) (allPlain_append htargets (allPlain_single hsource))

theorem steady_comprehensionClause (h : Sane self) (hoperand : Steady operand Tree.Plain) :
    Steady (comprehensionClause self operand) Tree.Plain := by
  intro k
  refine .here fun start => (reads_word? _).bind fun _ _ => .ite (fun _ => ?_) fun _ => ?_
  · exact (h.disjunction.reads k).bind fun condition hcondition => reads_unary (by decide) hcondition
  · exact (steady_comprehensionLoop h hoperand).reads k

theorem steady_comprehension (h : Sane self) (hoperand : Steady operand Tree.Plain) :
    Steady (comprehension self operand) AllPlain := by
  intro k
  refine ((steady_comprehensionLoop h hoperand).reads k).bind fun first hfirst => .bound fun n => ?_
  refine ((steady_repeatWhile (fun k => (steady_comprehensionClause h hoperand).reads k) n).reads k).bind
    fun rest hrest => .pure (allPlain_cons hfirst hrest)

theorem steady_roundBrackets (h : Sane self) (hoperand : Steady operand Tree.Plain) :
    Steady (roundBrackets self operand) Tree.Plain := by
  intro k
  refine .here fun start => (reads_sign rfl).bind fun _ _ => .ifSign rfl (reads_leaf (by decide)) ?_
  refine .peek fun t => .ite (fun _ => ?_) fun _ => ?_
  · exact ((steady_yielding h).reads _).bind fun inner hinner => (reads_sign rfl).bind fun _ _ =>
      reads_unary (by decide) hinner
  · refine ((steady_element h).reads _).bind fun first hfirst => .peek fun t => .ite (fun _ => ?_) fun _ => ?_
    · exact ((steady_comprehension h hoperand).reads _).bind fun clauses hclauses => (reads_sign rfl).bind fun _ _ =>
        reads_node (by decide) (allPlain_cons hfirst hclauses)
    · refine (reads_sign? rfl).bind fun comma _ => .ite (fun _ => .bound fun n => ?_) fun _ => ?_
      · exact ((steady_commaList (steady_element h) n).reads _).bind fun rest hrest => (reads_sign rfl).bind fun _ _ =>
          reads_node (by decide) (allPlain_cons hfirst hrest)
      · exact (reads_sign rfl).bind fun _ _ => reads_unary (by decide) hfirst

theorem steady_squareBrackets (h : Sane self) (hoperand : Steady operand Tree.Plain) :
    Steady (squareBrackets self operand) Tree.Plain := by
  intro k
  refine .here fun start => (reads_sign rfl).bind fun _ _ => .ifSign rfl (reads_leaf (by decide)) ?_
  refine ((steady_element h).reads _).bind fun first hfirst => .peek fun t => .ite (fun _ => ?_) fun _ => ?_
  · exact ((steady_comprehension h hoperand).reads _).bind fun clauses hclauses => (reads_sign rfl).bind fun _ _ =>
      reads_node (by decide) (allPlain_cons hfirst hclauses)
  · refine (reads_sign? rfl).bind fun comma _ => ?_
    extract_lets finish
    have hfinish (rest : List Tree) (hrest : AllPlain rest) : Reads Any (.square :: k) (finish rest) k Tree.Plain :=
      (reads_sign rfl).bind fun _ _ => reads_node (by decide) (allPlain_cons hfirst hrest)
    refine .ite (fun _ => .bound fun n => ?_) fun _ => (Reads.pure allPlain_nil).bind hfinish
    exact ((steady_commaList (steady_element h) n).reads _).bind hfinish

theorem steady_entry (h : Sane self) : Steady (entry self) (fun e => e.1.Plain) := by
  intro k
  refine .here fun start => (reads_sign? rfl).bind fun stars _ => .ite (fun _ => ?_) fun _ => ?_
  · exact (h.disjunction.reads k).bind fun inner hinner => (reads_unary (by decide) hinner).bind fun t ht => .pure ht
  · refine ((steady_element h).reads k).bind fun key hkey => (reads_sign? rfl).bind fun colon _ =>
      .ite (fun _ => ?_) fun _ => .pure hkey
    exact (h.expression.reads k).bind fun bound hbound => (reads_binary (by decide) hkey hbound).bind fun t ht => .pure ht

theorem steady_curlyBrackets (h : Sane self) (hoperand : Steady operand Tree.Plain) :
    Steady (curlyBrackets self operand) Tree.Plain := by
  intro k
  refine .here fun start => (reads_sign rfl).bind fun _ _ => .ifSign rfl (reads_leaf (by decide)) ?_
  refine ((steady_entry h).reads _).bind fun first hfirst => .peek fun t => .ite (fun _ => ?_) fun _ => ?_
  · exact ((steady_comprehension h hoperand).reads _).bind fun clauses hclauses => (reads_sign rfl).bind fun _ _ =>
      reads_node (by decide) (allPlain_cons hfirst hclauses)
  · refine (reads_sign? rfl).bind fun comma _ => ?_
    extract_lets finish
    have hfinish (rest : List (Tree × Bool)) (hrest : ∀ e ∈ rest, e.1.Plain) :
        Reads Any (.curly :: k) (finish rest) k Tree.Plain := by
      refine .ite (fun _ => reads_fail_bind) fun _ => (reads_sign rfl).bind fun _ _ => ?_
      exact reads_node (by decide) (allPlain_cons hfirst (List.forall_mem_map.2 hrest))
    refine .ite (fun _ => .bound fun n => ?_) fun _ => (Reads.pure (List.forall_mem_nil _)).bind hfinish
    exact ((steady_commaList (steady_entry h) n).reads _).bind hfinish

/-! ## Operands -/

theorem steady_argument (h : Sane self) : Steady (argument self) Tree.Plain := by
  intro k
  refine .here fun start => (reads_sign? rfl).bind fun star _ => .ite (fun _ => ?_) fun _ =>
    (reads_sign? rfl).bind fun stars _ => .ite (fun _ => ?_) fun _ => .peek fun t => .peekSecond fun second => ?_
  · exact (h.expression.reads k).bind fun inner hinner => reads_unary (by decide) hinner
  · exact (h.expression.reads k).bind fun inner hinner => reads_unary (by decide) hinner
  · refine .ite (fun hnamed => reads_name_bind fun keyword hkeyword => ?_) fun _ => h.expression.reads k
    refine .advance ?_ ((h.expression.reads k).bind fun inner hinner => reads_binary (by decide) hkeyword hinner)
    rintro _ ⟨s, ⟨-, hsecond⟩, rfl⟩
    rw [Bool.and_eq_true, ← hsecond] at hnamed
    exact Token.edge_of_isSign hnamed.2

theorem steady_arguments (h : Sane self) (hoperand : Steady operand Tree.Plain) :
    Steady (arguments self operand) Tree.Plain := by
  intro k
  refine .here fun start => (reads_sign rfl).bind fun _ _ => .ifSign rfl (reads_leaf (by decide)) ?_
  refine ((steady_argument h).reads _).bind fun first hfirst => .peek fun t => .ite (fun _ => ?_) fun _ => ?_
  · exact ((steady_comprehension h hoperand).reads _).bind fun clauses hclauses => (reads_sign rfl).bind fun _ _ =>
      reads_node (by decide) (allPlain_cons hfirst hclauses)
  · refine (reads_sign? rfl).bind fun comma _ => ?_
    extract_lets finish
    have hfinish (rest : List Tree) (hrest : AllPlain rest) : Reads Any (.round :: k) (finish rest) k Tree.Plain :=
      (reads_sign rfl).bind fun _ _ => reads_node (by decide) (allPlain_cons hfirst hrest)
    refine .ite (fun _ => .bound fun n => ?_) fun _ => (Reads.pure allPlain_nil).bind hfinish
    exact ((steady_commaList (steady_argument h) n).reads _).bind hfinish

theorem steady_sliceBound (h : Sane self) : Steady (sliceBound self) AllPlain := by
  intro k
  refine .peek fun t => .ite (fun _ => .pure allPlain_nil) fun _ => ?_
  exact (h.expression.reads k).bind fun bound hbound => .pure (allPlain_single hbound)

theorem steady_index (h : Sane self) : Steady (index self) Tree.Plain := by
  intro k
  refine .here fun start => .peek fun t => .ite (fun _ => (steady_element h).reads k) fun _ => ?_
  refine ((steady_sliceBound h).reads k).bind fun lower hlower => (reads_sign? rfl).bind fun colon _ =>
    .ite (fun _ => ?_) fun _ => ?_
  · refine ((steady_sliceBound h).reads k).bind fun upper hupper => (reads_sign? rfl).bind fun second _ => ?_
    extract_lets finish
    have hfinish (step : List Tree) (hstep : AllPlain step) : Reads Any k (finish step) k Tree.Plain :=
      reads_node (by decide) (allPlain_append (allPlain_append hlower hupper) hstep)
    exact .ite (fun _ => ((steady_sliceBound h).reads k).bind hfinish) fun _ => (Reads.pure allPlain_nil).bind hfinish
  · split
    · exact .pure (hlower _ (List.mem_singleton_self _))
    · exact .fail

theorem steady_trailer (h : Sane self) (hoperand : Steady operand Tree.Plain) {t : Tree} (ht : t.Plain) :
    Steady (trailer self operand t) (fun found => ∀ t' ∈ found, t'.Plain) := by
  intro k
  have hsome {kind : NodeKind} {children : List Tree} (hkind : kind ≠ .functionDefinition) (hchildren : AllPlain children) :
      Reads Any k (some <$> finishNode t.extent.start kind children) k (fun found => ∀ t' ∈ found, t'.Plain) :=
    (reads_node hkind hchildren).map fun t' ht' u hu => Option.some.inj hu ▸ ht'
  refine .peek fun front => .ite (fun hpoint => ?_) fun _ => .ite (fun _ => ?_) fun _ => .ite (fun hopen => ?_) fun _ => ?_
  · refine .advance (fun s hs => ?_) ((steady_name.reads k).bind fun named hnamed => ?_)
    · rw [hs.2]
      exact Token.edge_of_isSign hpoint
    · exact hsome (by decide) (allPlain_cons ht (allPlain_single hnamed))
  · exact ((steady_arguments h hoperand).reads k).bind fun given hgiven =>
      hsome (by decide) (allPlain_cons ht (allPlain_single hgiven))
  · refine .advance_bind (fun s hs => ?_) (.bound fun n => ((steady_commaList (steady_index h) n).reads (.square :: k)).bind
      fun indices hindices => .ite (fun _ => reads_fail_bind) fun _ => (reads_sign rfl).bind fun _ _ => ?_)
    · rw [hs.2, Token.edge_of_isSign hopen]
      rfl
    · exact hsome (by decide) (allPlain_cons ht hindices)
  · exact .pure fun _ h => by cases h

theorem steady_atom (h : Sane self) (hoperand : Steady operand Tree.Plain) : Steady (atom self operand) Tree.Plain := by
  intro k
  have hkind (kind : Prop) [Decidable kind] : (if kind then NodeKind.expression else .identifier) ≠ .functionDefinition := by
    split <;> decide
  refine .peek fun t => ?_
  split
  · next hname =>
    refine .ite (fun _ => .fail) fun _ => .advance (fun s hs => ?_) (reads_leaf (hkind _))
    rw [hs.2]
    exact Token.edge_of_name hname
  · next hnumber =>
    refine .advance (fun s hs => ?_) (reads_leaf (by decide))
    rw [hs.2, Token.edge, hnumber]
  · exact (steady_strings h).reads k
  · exact (steady_strings h).reads k
  · next hsign =>
    refine .ite (fun _ => (steady_roundBrackets h hoperand).reads k) fun _ =>
      .ite (fun _ => (steady_squareBrackets h hoperand).reads k) fun _ =>
      .ite (fun _ => (steady_curlyBrackets h hoperand).reads k) fun _ => .ite (fun hdots => ?_) fun _ => .fail
    refine .advance (fun s hs => ?_) (reads_leaf (by decide))
    rw [hs.2, Token.edge, hsign, beq_iff_eq.1 hdots]
    rfl
  · exact .fail

theorem steady_operand (h : Sane self) (fuel : Nat) : Steady (Grammar.operand self fuel) Tree.Plain := by
  induction fuel with
  | zero => exact fun _ => .fail
  | succ fuel ih =>
    intro k
    refine ((steady_atom h ih).reads k).bind fun first hfirst => .bound fun n => ?_
    exact (steady_extendWhile (fun t ht => steady_trailer h ih ht) n hfirst).reads k

theorem steady_boundedOperand (h : Sane self) : Steady (do Grammar.operand self (← bound)) Tree.Plain :=
  fun k => .bound fun n => (steady_operand h n).reads k

/-! ## Operators -/

theorem steady_leftChain {isOperator : Token → Bool} {kind : NodeKind} (hkind : kind ≠ .functionDefinition)
    (hoperator : ∀ t, isOperator t = true → t.edge = .inside) (hoperand : Steady operand Tree.Plain) :
    Steady (leftChain isOperator kind operand) Tree.Plain := by
  intro k
  refine (hoperand.reads k).bind fun first hfirst => .bound fun n => ?_
  refine (steady_extendWhile (fun left hleft k => ?_) n hfirst).reads k
  refine .peek fun t => .ite (fun ht => .advance (fun s hs => ?_) ?_) fun _ => .pure fun _ h => by cases h
  · rw [hs.2]
    exact hoperator t ht
  · exact (hoperand.reads k).bind fun right hright =>
      (reads_binary hkind hleft hright).map fun t' ht' u hu => Option.some.inj hu ▸ ht'

theorem steady_awaited (h : Sane self) : Steady (awaited self) Tree.Plain := by
  intro k
  have hplain : Steady (do Grammar.operand self (← bound)) Tree.Plain := steady_boundedOperand h
  refine .here fun start => .peek fun t => .ite (fun hword => .orElse (.advance (fun s hs => ?_) ?_) (hplain.reads k))
    fun _ => hplain.reads k
  · rw [hs.2]
    exact Token.edge_of_isWord hword
  · exact (hplain.reads k).bind fun inner hinner => reads_unary (by decide) hinner

theorem steady_factor (h : Sane self) : Steady (factor self) Tree.Plain := by
  intro k
  refine .here fun start => .peek fun t => .ite (fun hsign => ?_) fun _ => ?_
  · refine .advance (fun s hs => ?_) ((h.factor.reads k).bind fun inner hinner => reads_unary (by decide) hinner)
    rw [hs.2]
    rw [Bool.or_eq_true, Bool.or_eq_true] at hsign
    rcases hsign with (hsign | hsign) | hsign <;> exact Token.edge_of_isSign hsign
  · refine ((steady_awaited h).reads k).bind fun base hbase => (reads_sign? rfl).bind fun power _ =>
      .ite (fun _ => ?_) fun _ => .pure hbase
    exact (h.factor.reads k).bind fun exponent hexponent => reads_binary (by decide) hbase hexponent

theorem steady_arithmetic (h : Sane self) : Steady (arithmetic self) Tree.Plain := by
  -- one level of operators around what binds more tightly
  have hlevels (levels : List (List String)) (hlevels : ∀ level ∈ levels, ∀ text ∈ level, signEdge text = .inside)
      {inner : Parser Tree} (hinner : Steady inner Tree.Plain) :
      Steady (levels.foldl (fun inner signs =>
        leftChain (fun t => t.kind == .sign && signs.contains t.text) .expression inner) inner) Tree.Plain := by
    induction levels generalizing inner with
    | nil => exact hinner
    | cons level levels ih =>
      obtain ⟨hlevel, hrest⟩ := List.forall_mem_cons.1 hlevels
      exact ih hrest (steady_leftChain (by decide) (fun t ht => edge_of_any hlevel ht) hinner)
  exact hlevels arithmeticLevels (by decide) (steady_factor h)

theorem steady_comparisonOperator? : Steady comparisonOperator? (fun _ => True) := by
  intro k
  have hword {t : Token} {text : String} (hword : t.isWord text = true) (s : ParseState) (hs : Any s ∧ s.front = t) :
      s.front.edge = .inside := by
    rw [hs.2]
    exact Token.edge_of_isWord hword
  refine .peek fun t => .ite (fun hsign => .advance (fun s hs => ?_) (.pure trivial)) fun _ =>
    .ite (fun hin => .advance (hword hin) (.pure trivial)) fun _ => .peekSecond fun second => ?_
  · rw [hs.2]
    exact edge_of_any (by decide) hsign
  · refine .ite (fun hnot => ?_) fun _ => .ite (fun his => ?_) fun _ => .pure trivial
    · rw [Bool.and_eq_true] at hnot
      refine .advance_bind (fun s hs => ?_) (.advance ?_ (.pure trivial))
      · rw [hword hnot.1 s hs.1]
        rfl
      · rintro _ ⟨s, ⟨-, hsecond⟩, rfl⟩
        rw [hsecond]
        exact Token.edge_of_isWord hnot.2
    · exact .advance (fun s hs => hword his s hs.1) ((reads_word? _).bind fun _ _ => .pure trivial)

theorem steady_comparison (h : Sane self) : Steady (comparison self) Tree.Plain := by
  intro k
  refine ((steady_arithmetic h).reads k).bind fun first hfirst => .bound fun n => ?_
  refine (steady_extendWhile (fun left hleft k => ?_) n hfirst).reads k
  refine (steady_comparisonOperator?.reads k).bind fun found _ => .ite (fun _ => ?_) fun _ => .pure fun _ h => by cases h
  exact ((steady_arithmetic h).reads k).bind fun right hright =>
    (reads_binary (by decide) hleft hright).map fun t' ht' u hu => Option.some.inj hu ▸ ht'

theorem steady_inversion (h : Sane self) : Steady (inversion self) Tree.Plain := by
  intro k
  refine .here fun start => (reads_word? _).bind fun _ _ => .ite (fun _ => ?_) fun _ => (steady_comparison h).reads k
  exact (h.inversion.reads k).bind fun inner hinner => reads_unary (by decide) hinner

theorem steady_disjunction (h : Sane self) : Steady (disjunction self) Tree.Plain :=
  steady_leftChain (by decide) (fun _ => Token.edge_of_isWord)
    (steady_leftChain (by decide) (fun _ => Token.edge_of_isWord) (steady_inversion h))

/-! ## Parameters -/

theorem steady_annotated (h : Sane self) (typed optional : Bool) (start : Place) {named : Tree} (hnamed : named.Plain) :
    Steady (annotated self typed optional start named) Tree.Plain := by
  intro k
  have hsign {flag : Bool} {t : Token} {text : String} (hedge : signEdge text = .inside)
      (ht : (flag && t.isSign text) = true) (s : ParseState) (hs : Any s ∧ s.front = t) : s.front.edge = .inside := by
    rw [Bool.and_eq_true] at ht
    rw [hs.2, Token.edge_of_isSign ht.2, hedge]
  refine .peek fun t => ?_
  extract_lets preset
  have hpreset (types : List Tree) (htypes : AllPlain types) :
      Reads Any k (preset types) k Tree.Plain := by
    refine .peek fun t => ?_
    extract_lets finish
    have hfinish (presets : List Tree) (hpresets : AllPlain presets) : Reads Any k (finish presets) k Tree.Plain := by
      unfold finish
      split
      · exact .pure hnamed
      · exact reads_node (by decide) (allPlain_cons hnamed htypes)
      · exact reads_node (by decide) (allPlain_cons hnamed hpresets)
      · exact reads_node (by decide) (allPlain_append (allPlain_cons hnamed htypes) hpresets)
    refine .ite (fun ht => .advance (hsign rfl ht) ?_) fun _ => (Reads.pure allPlain_nil).bind hfinish
    exact (h.expression.reads k).bind fun t ht => (Reads.pure (allPlain_single ht)).bind hfinish
  refine .ite (fun ht => .advance (hsign rfl ht) ?_) fun _ => (Reads.pure allPlain_nil).bind hpreset
  exact ((steady_element h).reads k).bind fun t ht => (Reads.pure (allPlain_single ht)).bind hpreset

theorem steady_parameter (h : Sane self) (typed : Bool) : Steady (parameter self typed) Tree.Plain := by
  intro k
  have hsign {t : Token} {text : String} (hedge : signEdge text = .inside) (ht : t.isSign text = true) (s : ParseState)
      (hs : Any s ∧ s.front = t) : s.front.edge = .inside := by
    rw [hs.2, Token.edge_of_isSign ht, hedge]
  refine .here fun start => .peek fun t => .ite (fun hstar => .advance (hsign rfl hstar) ?_) fun _ =>
    .ite (fun hstars => .advance (hsign rfl hstars) ?_) fun _ =>
    .ite (fun hslash => .advance (hsign rfl hslash) (reads_leaf (by decide))) fun _ => .ite (fun _ => ?_) fun _ => ?_
  · refine .peek fun t => .ite (fun _ => ?_) fun _ => reads_leaf (by decide)
    exact (steady_name.reads k).bind fun named hnamed => (reads_unary (by decide) hnamed).bind fun starred hstarred =>
      (steady_annotated h typed false start hstarred).reads k
  · exact (steady_name.reads k).bind fun named hnamed => (reads_unary (by decide) hnamed).bind fun starred hstarred =>
      (steady_annotated h typed false start hstarred).reads k
  · exact .bound fun n => ((steady_operand h n).reads k).bind fun targets htargets =>
      .ite (fun _ => (steady_annotated h false true start htargets).reads k) fun _ => .fail
  · exact (steady_name.reads k).bind fun named hnamed => (steady_annotated h typed true start hnamed).reads k

theorem steady_parameters (h : Sane self) : Steady (parameters self) Tree.Plain := by
  intro k
  exact .here fun start => (reads_sign rfl).bind fun _ _ => .bound fun n =>
    ((steady_commaList (steady_parameter h true) n).reads (.round :: k)).bind fun items hitems =>
      (reads_sign rfl).bind fun _ _ => reads_node (by decide) hitems

theorem steady_typeParameter (h : Sane self) : Steady (typeParameter self) Tree.Plain := by
  intro k
  refine .here fun start => (reads_sign? rfl).bind fun star _ => ?_
  extract_lets behind
  have hbehind (u : Unit) : Reads Any k (behind u) k Tree.Plain := by
    refine (steady_name.reads k).bind fun named hnamed => (reads_sign? rfl).bind fun colon _ => ?_
    extract_lets preset
    have hpreset (limit : List Tree) (hlimit : AllPlain limit) : Reads Any k (preset limit) k Tree.Plain := by
      refine (reads_sign? rfl).bind fun equals _ => ?_
      extract_lets finish
      have hfinish (presets : List Tree) (hpresets : AllPlain presets) : Reads Any k (finish presets) k Tree.Plain :=
        reads_node (by decide) (allPlain_append (allPlain_cons hnamed hlimit) hpresets)
      refine .ite (fun _ => ?_) fun _ => (Reads.pure allPlain_nil).bind hfinish
      exact ((steady_element h).reads k).bind fun t ht => (Reads.pure (allPlain_single ht)).bind hfinish
    refine .ite (fun _ => ?_) fun _ => (Reads.pure allPlain_nil).bind hpreset
    exact (h.expression.reads k).bind fun t ht => (Reads.pure (allPlain_single ht)).bind hpreset
  exact .ite (fun _ => (reads_sign? rfl).bind fun _ _ => hbehind ()) fun _ => hbehind ()

theorem steady_typeParameters (h : Sane self) : Steady (typeParameters self) AllPlain := by
  intro k
  refine .here fun start => .ifSign rfl ?_ (.pure allPlain_nil)
  exact .bound fun n => ((steady_commaList (steady_typeParameter h) n).reads (.square :: k)).bind fun items hitems =>
    .ite (fun _ => reads_fail_bind) fun _ => (reads_sign rfl).bind fun _ _ =>
      (reads_node (by decide) hitems).bind fun t ht => .pure (allPlain_single ht)

/-! ## Expressions -/

theorem steady_lambda (h : Sane self) : Steady (lambda self) Tree.Plain := by
  intro k
  exact .here fun start => (reads_word _).bind fun _ _ => .bound fun n =>
    ((steady_commaList (steady_parameter h false) n).reads k).bind fun items hitems => (reads_sign rfl).bind fun _ _ =>
      (h.expression.reads k).bind fun body hbody => reads_node (by decide) (allPlain_append hitems (allPlain_single hbody))

theorem steady_conditional (h : Sane self) : Steady (conditional self) Tree.Plain := by
  intro k
  refine .here fun start => ((steady_disjunction h).reads k).bind fun first hfirst => (reads_word? _).bind fun _ _ =>
    .ite (fun _ => ?_) fun _ => .pure hfirst
  exact ((steady_disjunction h).reads k).bind fun condition hcondition => (reads_word _).bind fun _ _ =>
    (h.expression.reads k).bind fun other hother =>
      reads_node (by decide) (allPlain_cons hfirst (allPlain_cons hcondition (allPlain_single hother)))

theorem steady_expression (h : Sane self) : Steady (expression self) Tree.Plain := by
  intro k
  refine .here fun start => .peek fun t => .ite (fun _ => (steady_lambda h).reads k) fun _ => .peekSecond fun second =>
    .ite (fun hwalrus => reads_name_bind fun named hnamed => ?_) fun _ => ?_
  · refine .advance ?_ ((h.expression.reads k).bind fun inner hinner => reads_binary (by decide) hnamed hinner)
    rintro _ ⟨s, ⟨-, hsecond⟩, rfl⟩
    rw [Bool.and_eq_true, ← hsecond] at hwalrus
    exact Token.edge_of_isSign hwalrus.2
  · refine ((steady_conditional h).reads k).bind fun first hfirst => (reads_word? _).bind fun _ _ =>
      .ite (fun _ => ?_) fun _ => .pure hfirst
    exact .bound fun n => ((steady_operand h n).reads k).bind fun target htarget => reads_binary (by decide) hfirst htarget

/-! ## Patterns -/

theorem steady_dottedName : Steady dottedName Tree.Plain := by
  intro k
  refine .here fun start => (steady_name.reads k).bind fun first hfirst => .bound fun n => ?_
  have hitem (k : List Bracket) : Reads (fun s => s.front.isSign "." = true) k (do
      advance
      name) k Tree.Plain :=
    .advance (fun s hs => Token.edge_of_isSign hs) (steady_name.reads k)
  refine ((steady_repeatWhile hitem n).reads k).bind fun rest hrest => .ite (fun _ => .pure hfirst) fun _ => ?_
  exact reads_node (by decide) (allPlain_cons hfirst hrest)

theorem reads_bracketedPatterns {close : String} {b : Bracket} (hclose : signEdge close = .closes b) {item : Parser Tree}
    (hitem : Steady item Tree.Plain) (φ : ParseState → Prop) (k : List Bracket) :
    Reads φ (b :: k) (bracketedPatterns close item) k AllPlain := by
  refine .bound fun n => ((steady_commaList hitem n).reads _).bind fun items hitems => (reads_sign ?_).bind fun _ _ =>
    .pure hitems
  rw [hclose]
  exact if_pos rfl

theorem steady_attributePattern (h : Sane self) : Steady (attributePattern self) Tree.Plain := by
  intro k
  refine .peek fun t => .peekSecond fun second => ?_
  extract_lets behind
  have hbehind (u : Unit) : Reads Any k (behind u) k Tree.Plain := h.pattern.reads k
  refine .ite (fun hnamed => ?_) fun _ => (hbehind ()).weaken
  rw [Bool.and_eq_true, beq_iff_eq] at hnamed
  refine .advance_bind (fun s hs => ?_) (.advance ?_ (hbehind ()))
  · rw [hs.1.2, Token.edge_of_name hnamed.1]
    rfl
  · rintro _ ⟨s, ⟨-, hsecond⟩, rfl⟩
    rw [hsecond]
    exact Token.edge_of_isSign hnamed.2

theorem steady_mappingPattern (h : Sane self) : Steady (mappingPattern self) Tree.Plain := by
  intro k
  refine .here fun start => (reads_sign? rfl).bind fun stars _ => .ite (fun _ => steady_name.reads k) fun _ => ?_
  exact (h.pattern.reads k).bind fun key hkey => (reads_sign rfl).bind fun _ _ =>
    (h.pattern.reads k).bind fun bound hbound => reads_binary (by decide) hkey hbound

theorem steady_numberPattern : Steady numberPattern Tree.Plain := by
  intro k
  have hnumber : ∀ t : Token, t.kind = .number → t.edge.pushed k = some k := fun t ht => by
    rw [Token.edge, ht]
    rfl
  refine .here fun start => (reads_sign? rfl).bind fun minus _ => (reads_token hnumber).bind fun _ _ => .peek fun t => ?_
  extract_lets finish
  have hfinish (u : Unit) : Reads Any k (finish u) k Tree.Plain := reads_leaf (by decide)
  refine .ite (fun hsign => .advance (fun s hs => ?_) ((reads_token hnumber).bind fun _ _ => hfinish ())) fun _ =>
    (hfinish ()).weaken
  rw [hs.2]
  rw [Bool.or_eq_true] at hsign
  rcases hsign with hsign | hsign <;> exact Token.edge_of_isSign hsign

theorem steady_closedPattern (h : Sane self) : Steady (closedPattern self) Tree.Plain := by
  intro k
  refine .here fun start => .peek fun t => ?_
  split
  · refine (steady_dottedName.reads k).bind fun named hnamed => .ifSign rfl ?_ (.pure hnamed)
    exact (reads_bracketedPatterns rfl (steady_attributePattern h) _ k).bind fun items hitems =>
      reads_node (by decide) (allPlain_cons hnamed hitems)
  · exact steady_numberPattern.reads k
  · exact (steady_strings h).reads k
  · exact (steady_strings h).reads k
  · next hsign =>
    refine .ite (fun _ => steady_numberPattern.reads k) fun _ => ?_
    extract_lets finish
    have hfinish (k' : List Bracket) (items : List Tree) (hitems : AllPlain items) :
        Reads Any k' (finish items) k' Tree.Plain :=
      reads_node (by decide) hitems
    -- the sign says what is open behind it
    have hbehind {text : String} {k' : List Bracket} (htext : t.text = text) (hedge : (signEdge text).pushed k = some k')
        {p : Parser Tree} (hp : Reads Any k' p k Tree.Plain) :
        Reads (fun s => Any s ∧ s.front = t) k (advance >>= fun _ => p) k Tree.Plain := by
      refine .advance_bind (fun s hs => ?_) hp.weaken
      rw [hs.2, Token.edge, hsign, htext, hedge]
    by_cases hround : t.text = "("
    · rw [if_pos (by simpa using hround)]
      exact hbehind hround rfl ((reads_bracketedPatterns rfl h.pattern _ k).bind (hfinish k))
    · rw [if_neg (by simpa using hround)]
      by_cases hsquare : t.text = "["
      · rw [if_pos (by simpa using hsquare)]
        exact hbehind hsquare rfl ((reads_bracketedPatterns rfl h.pattern _ k).bind (hfinish k))
      · rw [if_neg (by simpa using hsquare)]
        by_cases hcurly : t.text = "\x7b"
        · rw [if_pos (by simpa using hcurly)]
          exact hbehind hcurly rfl ((reads_bracketedPatterns rfl (steady_mappingPattern h) _ k).bind (hfinish k))
        · rw [if_neg (by simpa using hcurly)]
          by_cases hstar : t.text = "*"
          · rw [if_pos (by simpa using hstar)]
            exact hbehind hstar rfl ((steady_name.reads k).bind fun named hnamed =>
              (Reads.pure (allPlain_single hnamed)).bind (hfinish k))
          · rw [if_neg (by simpa using hstar)]
            exact reads_advance_fail
  · exact .fail

theorem steady_pattern (h : Sane self) : Steady (pattern self) Tree.Plain := by
  intro k
  refine .here fun start => ?_
  have hchain : Steady (leftChain (·.isSign "|") .expression (closedPattern self)) Tree.Plain :=
    steady_leftChain (by decide) (fun _ => Token.edge_of_isSign) (steady_closedPattern h)
  refine (hchain.reads k).bind fun first hfirst => (reads_word? _).bind fun _ _ => .ite (fun _ => ?_) fun _ => .pure hfirst
  exact (steady_name.reads k).bind fun named hnamed => reads_binary (by decide) hfirst hnamed

/-! ## Rounds -/

/-- The rules for expressions and patterns need nothing of those for statements. -/
theorem sane_rule (h : Sane self) : Sane (rule self) where
  expression := steady_expression h
  disjunction := steady_disjunction h
  inversion := steady_inversion h
  factor := steady_factor h
  pattern := steady_pattern h
  hole := steady_hole h

theorem sane_reader (rounds : Nat) : Sane (reader rounds) := by
  induction rounds with
  | zero => exact ⟨fun _ => .fail, fun _ => .fail, fun _ => .fail, fun _ => .fail, fun _ => .fail, fun _ => .fail⟩
  | succ rounds ih => exact sane_rule ih

end Consolidation.Python.Grammar
