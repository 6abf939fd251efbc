/-
# `Cluster.Strategy` — how keys are chosen in a run

With an index and keywords, a function takes the key of a close one; otherwise it has the key of functions
that look alike.
-/
import Consolidation.Number.Decimal

namespace Consolidation

open Number

inductive Strategy where
  /-- A function takes the key of one of so many functions that are at least so close. -/
  | semantic (threshold : Single) (count : Nat)
  | structural

namespace Strategy

def select (indexAvailable keywords : Bool) (threshold : Single) (count : Nat) : Strategy :=
  if indexAvailable && keywords then semantic threshold count else structural

def isSemantic : Strategy → Bool
  | semantic _ _ => true
  | structural => false

def display : Strategy → String
  | semantic threshold count =>
    "semantic (threshold " ++ threshold.toText ++ ", top_k " ++ toString count ++ ")"
  | structural => "structural"

end Strategy

end Consolidation
