/-
# `Toml.Section` — reading sections of settings

A section is read by the names of its fields.  A field that is not there keeps a default, and what names no field is
ignored.  A section may also be a list of its values in order.
-/
import Consolidation.Toml.Basic

namespace Consolidation

open Number

namespace Toml

def asText? : Toml → Option String
  | text s => some s
  | _ => none

def asFlag? : Toml → Option Bool
  | flag b => some b
  | _ => none

/-- A whole number between zero and `limit`. -/
def asNatUpTo? (limit : Nat) : Toml → Option Nat
  | whole n => if 0 ≤ n && n ≤ limit then some n.toNat else none
  | _ => none

def asSingle? : Toml → Option Single
  | whole n => some (.ofInt n)
  | real x => some x.toSingle
  | _ => none

def asList? {α : Type} (item : Toml → Option α) : Toml → Option (List α)
  | list items => items.mapM item
  | _ => none

/-- One of several names, also as a table with that name and nothing under it. -/
def asName? {α : Type} (name : String → Option α) : Toml → Option α
  | text s => name s
  | table [(key, table [])] => name key
  | table [(key, list [])] => name key
  | _ => none

/-- Gives the fields of a section by name.  A date is a section without fields. -/
def section? (names : List String) : Toml → Option (String → Option Toml)
  | table members => some (fun name => members.lookup name)
  | list items => some (fun name => (names.zip items).lookup name)
  | moment _ => some (fun _ => none)
  | _ => none

end Toml

/-- A field of a section, or its default. -/
def fieldOr {α : Type} (fields : String → Option Toml) (name : String) (read : Toml → Option α)
    (default : α) : Option α :=
  match fields name with
  | some v => read v
  | none => some default

/-- A field of a section that need not have a value. -/
def optionalField {α : Type} (fields : String → Option Toml) (name : String)
    (read : Toml → Option α) (default : Option α) : Option (Option α) :=
  match fields name with
  | some v => (read v).map some
  | none => some default

end Consolidation
