/-
# `Python.SourceFault` — why a source has no syntax tree

A source is refused by the grammar or, if that accepts it, for its indentation.  `treeOf` gives the
tree of a source that passes both.
-/
import Consolidation.Python.Grammar
import Consolidation.Python.Indentation

namespace Consolidation.Python

/-- Why a source is refused. -/
inductive SourceFault where
  /-- It stops making sense at a place. -/
  | grammar (place : Place)
  | indentation (fault : IndentationFault)
deriving DecidableEq, Repr

namespace SourceFault

/-- The line that a fault points at, counted from one. -/
def line : SourceFault → Nat
  | grammar place => place.row + 1
  | indentation fault => fault.line

/-- The column that a fault points at, counted from one. -/
def column : SourceFault → Nat
  | grammar place => place.column + 1
  | indentation fault => fault.column

def reason : SourceFault → String
  | grammar _ => "invalid syntax"
  | indentation fault => fault.cause.message

def message (fault : SourceFault) : String :=
  "syntax error: " ++ fault.reason ++ " (column " ++ toString fault.column ++ ")"

end SourceFault

/-- The tree of a source, or why it has none; the grammar speaks first. -/
def treeOf (source : List Char) : Except SourceFault Tree :=
  match parse source with
  | .error place => .error (.grammar place)
  | .ok tree =>
    match checkIndentation source with
    | .error fault => .error (.indentation fault)
    | .ok () => .ok tree

end Consolidation.Python
