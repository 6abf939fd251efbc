/-
# `Json.Basic` — JSON values

A value keeps what a reader may have to tell apart: the order of the members of an object,
repeated keys, and whether a number was written as an integer.  Strings may escape half of a pair
that makes a character; such a string is well formed, but it is no text.
-/
import Consolidation.Collection.Dict
import Consolidation.Number.Decimal

namespace Consolidation

/-- A JSON number: its value, and whether it was written without fraction and exponent. -/
structure JsonNumber where
  value : Number.Decimal
  integral : Bool
deriving DecidableEq, Repr

/-- A JSON value. -/
inductive Json where
  | null
  | bool (value : Bool)
  | num (value : JsonNumber)
  | str (value : String)
  | arr (items : List Json)
  | obj (members : List (String × Json))
  /-- A string that is no text, or an object with such a key: it can be skipped, but not be used. -/
  | noText

namespace Json

instance : Inhabited Json := ⟨null⟩

/-- A non-negative integer. -/
def nat (n : Nat) : Json := num ⟨⟨false, n, 0⟩, true⟩

/-- A text or nothing. -/
def optStr : Option String → Json
  | some s => str s
  | none => null

/-- An integer or nothing. -/
def optNat : Option Nat → Json
  | some n => nat n
  | none => null

/-- A list of texts. -/
def strs (texts : List String) : Json := arr (texts.map str)

/-- A dictionary as an object, in key order. -/
def ofDict {β : Type} (f : β → Json) (d : Dict β) : Json :=
  obj (d.entries.map (fun e => (e.1, f e.2)))

/-- The values of the members with a given key. -/
def memberValues (key : String) : List (String × Json) → List Json
  | [] => []
  | (k, v) :: rest => if k = key then v :: memberValues key rest else memberValues key rest

/-- The first member with a given key. -/
def member? (key : String) : Json → Option Json
  | obj members => (memberValues key members).head?
  | _ => none

end Json

end Consolidation
