/-
# `Python.Definition` — the function definitions of a syntax tree

`definitions` lists the functions and methods of a tree in the order of the source.  The complexity of a
definition is one more than the number of its decisions: branching statements, and chains of one
boolean operator, however long.  Decisions of definitions inside it count as its own.
-/
import Consolidation.Python.Tree
import Consolidation.Python.StringLiteral

namespace Consolidation.Python

/-- A function definition: what a file says about it. -/
structure Definition where
  name : List Char
  args : List (List Char)
  /-- The first line of the header, counted from one. -/
  firstLine : Nat
  /-- The last line of the body. -/
  lastLine : Nat
  docstring : Option (List Char)
  complexity : Nat
  /-- The text from the header to the end of the body. -/
  source : List Char
deriving DecidableEq, Repr

/-! ## Decisions -/

namespace NodeKind

/-- Does a node of this kind, under a node of the kind `parent`, add a decision? -/
def isDecision (parent : NodeKind) : NodeKind → Bool
  | ifStatement => true
  | elifClause => true
  | whileStatement => true
  | forStatement => true
  | booleanOperator op => parent != booleanOperator op
  | _ => false

end NodeKind

namespace Tree

mutual

/-- The number of decisions in a tree, under a node of the kind `parent`. -/
def decisions (parent : NodeKind) : Tree → Nat
  | node kind _ children =>
    (if NodeKind.isDecision parent kind then 1 else 0) + decisionsAll kind children

/-- The number of decisions in some trees. -/
def decisionsAll (parent : NodeKind) : List Tree → Nat
  | [] => 0
  | t :: rest => decisions parent t + decisionsAll parent rest

end

/-- One more than the number of decisions below a node. -/
def complexity (t : Tree) : Nat := 1 + decisionsAll t.kind t.children

/-! ## Parameters and docstrings -/

/-- The node that names a parameter: below annotations and stars the first child. -/
def namingNode? : Tree → Option Tree
  | t@(node .identifier _ _) => some t
  | node .defaultParameter _ (first :: _) => some first
  | node .typedDefaultParameter _ (first :: _) => some first
  | node .typedParameter _ (first :: _) => namingNode? first
  | node .listSplat _ (first :: _) => namingNode? first
  | node .dictionarySplat _ (first :: _) => namingNode? first
  | _ => none

/-- The names of the parameters of a definition. -/
def parameterNames (source : List Char) (t : Tree) : List (List Char) :=
  match t.child? .parameters with
  | some parameters => parameters.children.filterMap (fun p => p.namingNode?.map (·.text source))
  | none => []

/-- The text of the docstring of a block: its first statement, if that is a string. -/
def docstring? (source : List Char) (block : Tree) : Option (List Char) := do
  let first ← block.children.head?
  if first.kind != .expressionStatement then none
  let literal ← first.children.head?
  if literal.kind != .string then none
  literalText? (literal.text source)

/-- The function definition that a node is, if it is one. -/
def definition? (source : List Char) (t : Tree) : Option Definition := do
  if t.kind != .functionDefinition then none
  let name ← t.child? .identifier
  some {
    name := name.text source
    args := t.parameterNames source
    firstLine := t.extent.start.row + 1
    lastLine := t.extent.stop.row + 1
    docstring := (t.child? .block).bind (docstring? source)
    complexity := t.complexity
    source := t.text source }

/-- The function definitions in a tree, each before those inside it. -/
def definitions (source : List Char) (t : Tree) : List Definition :=
  t.preorder.filterMap (definition? source)

end Tree

end Consolidation.Python
