/-
# `Text.CharSet` — sets of code points as sorted runs

A set is an array of runs `first, first + step, …, last`, sorted by `first` and
pairwise disjoint.  Membership is one binary search for the last run that starts
at or below the code point, then a comparison with the end of that run and its step.  A step
of two covers the blocks in which capital and small letters alternate.
-/

namespace Consolidation.Text

/-- The code points `first, first + step, …` up to and including `last`. -/
structure CharRun where
  first : Nat
  last : Nat
  step : Nat
deriving Repr, DecidableEq

/-- Does the run hold the code point `n`? -/
def CharRun.holds (r : CharRun) (n : Nat) : Bool :=
  r.first ≤ n && n ≤ r.last && (n - r.first) % r.step == 0

/-- How many of the items below `hi` have a key at or below `n`, where keys ascend and all items
below `lo` are known to.  The distance `hi - lo` halves at each step, so `fuel = hi` suffices. -/
def countAtOrBelow {α : Type} (items : Array α) (key : α → Nat) (n : Nat) :
    Nat → Nat → Nat → Nat
  | 0, lo, _ => lo
  | fuel + 1, lo, hi =>
    if lo < hi then
      let mid := (lo + hi) / 2
      match items[mid]? with
      | some item =>
        if key item ≤ n then countAtOrBelow items key n fuel (mid + 1) hi
        else countAtOrBelow items key n fuel lo mid
      | none => lo
    else lo

/-- The last item whose key is at or below `n`, where keys ascend. -/
def lastAtOrBelow {α : Type} (items : Array α) (key : α → Nat) (n : Nat) : Option α :=
  match countAtOrBelow items key n items.size 0 items.size with
  | 0 => none
  | k + 1 => items[k]?

/-- A set of code points: runs sorted by their first code point, pairwise disjoint. -/
structure CharSet where
  runs : Array CharRun

namespace CharSet

/-- Membership of a code point. -/
def containsCode (s : CharSet) (n : Nat) : Bool :=
  match lastAtOrBelow s.runs CharRun.first n with
  | some r => r.holds n
  | none => false

/-- Membership of a character. -/
def contains (s : CharSet) (c : Char) : Bool :=
  s.containsCode c.toNat

end CharSet

end Consolidation.Text
