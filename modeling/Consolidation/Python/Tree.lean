/-
# `Python.Tree` — syntax trees

A node has a kind, the extent of source that it covers, and the nodes below it in the order of
the source.  Keywords, signs and comments are not nodes.  `Tree.preorder` lists a tree's nodes, each
before the ones below it.
-/
import Consolidation.Python.Token

namespace Consolidation.Python

inductive BooleanOperator where
  | and
  | or
deriving DecidableEq, Repr

inductive NodeKind where
  | module
  | block
  | functionDefinition
  | classDefinition
  | decoratedDefinition
  | ifStatement
  | elifClause
  | elseClause
  | whileStatement
  | forStatement
  | tryStatement
  | exceptClause
  | finallyClause
  | withStatement
  | matchStatement
  | caseClause
  | expressionStatement
  /-- Any other statement of one line. -/
  | simpleStatement
  /-- The parameters of a definition or a lambda. -/
  | parameters
  | typedParameter
  | defaultParameter
  | typedDefaultParameter
  | listSplat
  | dictionarySplat
  /-- The sign that ends the positional parameters, or starts those given by keyword. -/
  | separator
  | identifier
  | string
  | concatenatedString
  | member
  | subscript
  | call
  | tuple
  | list
  | parenthesized
  | booleanOperator (op : BooleanOperator)
  /-- Any other expression, pattern or type. -/
  | expression
deriving DecidableEq, Repr

/-- The part of a source from one place up to another. -/
structure Extent where
  start : Place
  stop : Place
deriving DecidableEq, Repr

namespace Extent

/-- The text that an extent covers. -/
def text (e : Extent) (source : List Char) : List Char :=
  (source.drop e.start.offset).take (e.stop.offset - e.start.offset)

end Extent

/-- A syntax tree. -/
inductive Tree where
  | node (kind : NodeKind) (extent : Extent) (children : List Tree)

namespace Tree

def kind : Tree → NodeKind
  | node k _ _ => k

def extent : Tree → Extent
  | node _ e _ => e

def children : Tree → List Tree
  | node _ _ c => c

instance : Inhabited Tree := ⟨node .expression ⟨.start, .start⟩ []⟩

mutual

/-- The nodes of a tree, each before the ones below it. -/
def preorder : Tree → List Tree
  | node k e c => node k e c :: preorderAll c

/-- The nodes of some trees, tree by tree. -/
def preorderAll : List Tree → List Tree
  | [] => []
  | t :: rest => preorder t ++ preorderAll rest

end

/-- The first child of a kind. -/
def child? (t : Tree) (k : NodeKind) : Option Tree := t.children.find? (·.kind == k)

/-- The text that a tree covers. -/
def text (t : Tree) (source : List Char) : List Char := t.extent.text source

end Tree

end Consolidation.Python
