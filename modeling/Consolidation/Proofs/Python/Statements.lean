/-
# `Proofs.Python.Statements` — the statements of one line

A statement without blocks takes brackets in pairs and no end of a logical line, and there are no function definitions in
what is read of it (`steady_simpleStatement`).

There is one lemma for each kind of statement, which follows its reader.  Statements with blocks are not dealt with here:
they take line ends, and definitions stand in them (`Proofs.Python.Definitions`).
-/
import Consolidation.Proofs.Python.Expressions

namespace Consolidation.Python.Grammar

open Python.Parser

variable {self : Category → Parser Tree}

theorem steady_atLineEnd : Steady atLineEnd (fun _ => True) := by
  intro k
  refine .peek fun _ => ?_
  split
  · exact .pure trivial
  · exact .pure trivial

theorem steady_statementEnd : Steady statementEnd (fun _ => True) := fun k =>
  .peek fun _ => .ite (fun _ => .pure trivial) fun _ => (steady_atLineEnd.reads k).bind fun _ _ =>
    .ite (fun _ => .pure trivial) fun _ => .fail

theorem steady_assigned (h : Sane self) (fuel : Nat) : Steady (assigned self fuel) AllPlain := by
  induction fuel with
  | zero => exact fun _ => .fail
  | succ fuel ih =>
    intro k
    refine ((steady_value h).reads k).bind fun inner hinner => .peek fun t =>
      .ite (fun hequals => ?_) fun _ => .pure (allPlain_single hinner)
    extract_lets behind
    have hbehind : Reads (fun s => Any s ∧ s.front = t) k (behind ()) k AllPlain := by
      refine .advance (fun s hs => ?_) ((ih.reads k).bind fun rest hrest => .pure (allPlain_cons hinner hrest))
      rw [hs.2]
      exact Token.edge_of_isSign hequals
    exact .ite (fun _ => reads_fail_bind) fun _ => hbehind

theorem steady_expressionStatement (h : Sane self) : Steady (expressionStatement self) Tree.Plain := by
  intro k
  have hassignment {start : Place} {children : List Tree} (hchildren : AllPlain children) :
      Reads Any k (do
        let assignment ← finishNode start .expression children
        finishNode start .expressionStatement [assignment]) k Tree.Plain :=
    (reads_node (by decide) hchildren).bind fun assignment h => reads_unary (by decide) h
  refine .here fun start => .peek fun t => .ite (fun _ => ?_) fun _ => ?_
  · exact ((steady_yielding h).reads k).bind fun inner hinner => reads_unary (by decide) hinner
  · refine ((steady_elements h).reads k).bind fun found hitems => ?_
    obtain ⟨items, comma⟩ := found
    refine .peek fun t => .ite (fun hequals => ?_) fun _ => .ite (fun hcolon => ?_) fun _ => .ite (fun hoperator => ?_)
      fun _ => reads_node (by decide) hitems
    · extract_lets behind
      have hbehind : Reads (fun s => Any s ∧ s.front = t) k (behind ()) k Tree.Plain := by
        refine .advance (fun s hs => ?_) (.bound fun n => ((steady_assigned h n).reads k).bind fun rest hrest => ?_)
        · rw [hs.2]
          exact Token.edge_of_isSign hequals
        · exact hassignment (allPlain_append hitems hrest)
      exact .ite (fun _ => reads_fail_bind) fun _ => hbehind
    · rw [Bool.and_eq_true] at hcolon
      refine .advance (fun s hs => ?_) ((h.expression.reads k).bind fun type htype =>
        (reads_sign? rfl).bind fun equals _ => ?_)
      · rw [hs.2]
        exact Token.edge_of_isSign hcolon.1
      · extract_lets finish
        have hfinish (preset : List Tree) (hpreset : AllPlain preset) : Reads Any k (finish preset) k Tree.Plain :=
          hassignment (allPlain_append hitems (allPlain_cons htype hpreset))
        refine .ite (fun _ => ?_) fun _ => (Reads.pure allPlain_nil).bind hfinish
        exact ((steady_value h).reads k).bind fun t ht => (Reads.pure (allPlain_single ht)).bind hfinish
    · rw [Bool.and_eq_true] at hoperator
      refine .advance (fun s hs => ?_) (((steady_value h).reads k).bind fun inner hinner =>
        hassignment (allPlain_append hitems (allPlain_single hinner)))
      rw [hs.2]
      exact edge_of_any (by decide) hoperator.1

theorem steady_aliasedName : Steady aliasedName Tree.Plain := by
  intro k
  refine .here fun start => (steady_dottedName.reads k).bind fun full hfull => (reads_word? _).bind fun _ _ =>
    .ite (fun _ => ?_) fun _ => .pure hfull
  exact (steady_name.reads k).bind fun short hshort => reads_binary (by decide) hfull hshort

theorem steady_nameList {item : Parser Tree} (hitem : Steady item Tree.Plain) : Steady (nameList item) AllPlain := by
  intro k
  have hnext (k : List Bracket) : Reads (fun s => s.front.isSign "," = true) k (do
      advance
      item) k Tree.Plain :=
    .advance (fun s hs => Token.edge_of_isSign hs) (hitem.reads k)
  exact (hitem.reads k).bind fun first hfirst => .bound fun n =>
    ((steady_repeatWhile hnext n).reads k).bind fun rest hrest => .pure (allPlain_cons hfirst hrest)

theorem steady_importFrom : Steady importFrom AllPlain := by
  intro k
  have hdot (k : List Bracket) :
      Reads (fun s => (s.front.isSign "." || s.front.isSign "...") = true) k advance k (fun _ => True) := by
    refine reads_advance fun s hs => ?_
    rw [Bool.or_eq_true] at hs
    rcases hs with hs | hs
    · rw [Token.edge_of_isSign hs]
      rfl
    · rw [Token.edge_of_isSign hs]
      rfl
  refine .bound fun n => ((steady_repeatWhile hdot n).reads k).bind fun dots _ => .peek fun t => ?_
  extract_lets behind
  have hbehind : Reads Any k (behind ()) k AllPlain := by
    refine (reads_word _).bind fun _ _ => (reads_sign? rfl).bind fun star _ => .ite (fun _ => .pure allPlain_nil) fun _ =>
      .ifSign rfl (.bound fun n => ?_) ((steady_nameList steady_aliasedName).reads k)
    refine ((steady_commaList steady_aliasedName n).reads (.round :: k)).bind fun items hitems => ?_
    exact .ite (fun _ => reads_fail_bind) fun _ => (reads_sign rfl).bind fun _ _ => .pure hitems
  exact .ite (fun _ => (steady_dottedName.reads k).bind fun _ _ => hbehind) fun _ => hbehind.weaken

theorem steady_raised (h : Sane self) : Steady (raised self) AllPlain := by
  intro k
  refine .peek fun t => .ite (fun _ => ?_) fun _ => .pure allPlain_nil
  refine ((steady_expressions h).reads k).bind fun error herror => (reads_word? _).bind fun _ _ =>
    .ite (fun _ => ?_) fun _ => .pure (allPlain_single herror)
  exact (h.expression.reads k).bind fun cause hcause => .pure (allPlain_cons herror (allPlain_single hcause))

theorem steady_typeAlias (h : Sane self) : Steady (typeAlias self) Tree.Plain := by
  intro k
  exact .here fun start => (reads_word _).bind fun _ _ => (steady_name.reads k).bind fun named hnamed =>
    ((steady_typeParameters h).reads k).bind fun typeNames htypeNames => (reads_sign rfl).bind fun _ _ =>
      (h.expression.reads k).bind fun inner hinner =>
        reads_node (by decide) (allPlain_append (allPlain_cons hnamed htypeNames) (allPlain_single hinner))

theorem steady_printing (h : Sane self) : Steady (printing self) Tree.Plain := fun k =>
  .here fun start => (reads_word _).bind fun _ _ => ((steady_elements h).reads k).bind fun found hitems =>
    reads_node (by decide) hitems

theorem steady_executing (h : Sane self) : Steady (executing self) Tree.Plain := by
  intro k
  refine .here fun start => (reads_word _).bind fun _ _ => .peek fun t => ?_
  extract_lets spaces
  have hspaces (code : Tree) (hcode : code.Plain) : Reads Any k (spaces code) k Tree.Plain := by
    refine (reads_word? _).bind fun _ _ => ?_
    extract_lets finish
    have hfinish (names : List Tree) (hnames : AllPlain names) : Reads Any k (finish names) k Tree.Plain :=
      reads_node (by decide) (allPlain_cons hcode hnames)
    exact .ite (fun _ => ((steady_nameList h.expression).reads k).bind hfinish) fun _ =>
      (Reads.pure allPlain_nil).bind hfinish
  exact .ite (fun _ => ((steady_strings h).reads k).bind hspaces) fun _ => (steady_name.reads k).bind hspaces

theorem steady_simpleStatement (h : Sane self) : Steady (simpleStatement self) Tree.Plain := by
  intro k
  refine .here fun start => .peek fun t => ?_
  extract_lets finished plain
  have hfinished (children : List Tree) (hchildren : AllPlain children) : Reads Any k (finished children) k Tree.Plain :=
    reads_node (by decide) hchildren
  have hplain : Reads Any k plain k Tree.Plain :=
    ((steady_expressionStatement h).reads k).bind fun statement hstatement =>
      (steady_statementEnd.reads k).bind fun _ _ => .pure hstatement
  refine .ite (fun _ => hplain.weaken) fun hname => ?_
  have hword (s : ParseState) (hs : Any s ∧ s.front = t) : s.front.edge = .inside := by
    rw [hs.2]
    exact Token.edge_of_name (by simpa using hname)
  refine .ite (fun _ => .advance hword (hfinished _ allPlain_nil)) fun _ =>
    .ite (fun _ => .advance hword (.peek fun _ => ?_)) fun _ =>
    .ite (fun _ => .advance hword (((steady_raised h).reads k).bind hfinished)) fun _ =>
    .ite (fun _ => .advance hword (((steady_elements h).reads k).bind fun found hitems =>
      .ite (fun _ => hfinished _ hitems) fun _ => .fail)) fun _ =>
    .ite (fun _ => .advance hword (((steady_nameList h.expression).reads k).bind hfinished)) fun _ =>
    .ite (fun _ => .advance hword (((steady_nameList steady_name).reads k).bind hfinished)) fun _ =>
    .ite (fun _ => .advance hword (((steady_nameList steady_aliasedName).reads k).bind hfinished)) fun _ =>
    .ite (fun _ => .advance hword ((steady_importFrom.reads k).bind hfinished)) fun _ =>
    .ite (fun _ => .orElse ((steady_typeAlias h).reads k) hplain.weaken) fun _ =>
    .ite (fun _ => .orElse hplain.weaken ((steady_printing h).reads k)) fun _ =>
    .ite (fun _ => .orElse hplain.weaken ((steady_executing h).reads k)) fun _ => hplain.weaken
  refine .ite (fun _ => ?_) fun _ => (Reads.pure allPlain_nil).bind hfinished
  exact ((steady_expressions h).reads k).bind fun value hvalue => (Reads.pure (allPlain_single hvalue)).bind hfinished

end Consolidation.Python.Grammar
