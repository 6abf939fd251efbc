/-
# `Json.Record` — reading records from JSON values

A record is read from an object by the names of its fields, or from an array by their order.  Keys that
name no field are ignored; a field that is given twice, an array with too many items, and a value
of another type than its field are refused.
-/
import Consolidation.Json.Basic
import Consolidation.Number.Estimate

namespace Consolidation.Json

def asBool? : Json → Option Bool
  | bool b => some b
  | _ => none

def asStr? : Json → Option String
  | str s => some s
  | _ => none

/-- An integer between zero and `limit`, written as one. -/
def asNatUpTo? (limit : Nat) : Json → Option Nat
  | num ⟨⟨false, n, _⟩, true⟩ => if n ≤ limit then some n else none
  | _ => none

/-- A single precision number.  Integers of eight bytes are rounded once, other numbers are taken for
doubles first; what is too large for a double is refused. -/
def asSingle? : Json → Option Number.Single
  | num n =>
    if n.integral && n.value.digits ≤ (if n.value.negative then 0x8000000000000000 else maxLong) then
      some n.value.toSingle
    else n.value.toSingleByEstimate?
  | _ => none

def asList? {α : Type} (item : Json → Option α) : Json → Option (List α)
  | arr items => items.mapM item
  | _ => none

/-- A dictionary; of repeated keys the last one counts. -/
def asDict? {α : Type} (value : Json → Option α) : Json → Option (Dict α)
  | obj members => (members.mapM (fun m => (value m.2).map (fun v => (m.1, v)))).map Dict.ofList
  | _ => none

/-- Nothing, or what `inner` reads. -/
def asOption? {α : Type} (inner : Json → Option α) : Json → Option (Option α)
  | null => some none
  | j => (inner j).map some

/-- One of several names, also as an object with that name and nothing under it. -/
def asName? {α : Type} (name : String → Option α) : Json → Option α
  | str s => name s
  | obj [(key, null)] => name key
  | _ => none

/-- The fields of a record: look-up by name, and whether they were given by their order. -/
structure RecordView where
  get? : String → Option Json
  positional : Bool

/-- The value under the first of some names that `members` has, or a refusal if two of them, or
one of them twice, are there. -/
def oneOf (names : List String) (members : List (String × Json)) : Option (Option Json) :=
  match members.filter (fun m => names.contains m.1) with
  | [] => some none
  | [m] => some (some m.2)
  | _ => none

/-- Reads a value as a record whose fields have the given names, each with its other spellings. -/
def recordWith? (fields : List (String × List String)) : Json → Option RecordView
  | obj members => do
    let values ← fields.mapM (fun f => (oneOf (f.1 :: f.2) members).map (fun v => (f.1, v)))
    some ⟨fun name => (values.lookup name).join, false⟩
  | arr items =>
    if items.length ≤ fields.length then
      let values := (fields.map (·.1)).zip items
      some ⟨fun name => values.lookup name, true⟩
    else none
  | _ => none

/-- Reads a value as a record whose fields have the given names. -/
def record? (names : List String) : Json → Option RecordView :=
  recordWith? (names.map (fun name => (name, [])))

namespace RecordView

/-- A field that has to be there. -/
def required {α : Type} (r : RecordView) (name : String) (read : Json → Option α) : Option α :=
  (r.get? name).bind read

/-- A field with a default. -/
def withDefault {α : Type} (r : RecordView) (name : String) (read : Json → Option α)
    (default : α) : Option α :=
  match r.get? name with
  | some j => read j
  | none => some default

/-- A field that an object may leave out, which means the same as giving nothing. -/
def optional {α : Type} (r : RecordView) (name : String) (read : Json → Option α) :
    Option (Option α) :=
  match r.get? name with
  | some j => asOption? read j
  | none => if r.positional then none else some none

end RecordView

end Consolidation.Json
