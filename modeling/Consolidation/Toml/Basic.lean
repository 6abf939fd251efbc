/-
# `Toml.Basic` — the values of a configuration file

A value keeps what a reader of settings may have to tell apart.  A whole number has eight bytes with sign; a
real number is kept as it was written; of a date or a time the text is all that is kept.
-/
import Consolidation.Number.Decimal

namespace Consolidation

open Number

/-- A number with a fraction or an exponent, or one of the two that have neither. -/
inductive TomlReal where
  | finite (value : Decimal)
  | infinite (negative : Bool)
  | notANumber
deriving DecidableEq, Repr

namespace TomlReal

/-- The nearest double, rounded to a single. -/
def toSingle : TomlReal → Single
  | finite d => d.toSingleViaDouble
  | infinite negative => .infinite negative
  | notANumber => .nan

end TomlReal

/-- A value of a configuration file. -/
inductive Toml where
  | text (value : String)
  | whole (value : Int)
  | real (value : TomlReal)
  | flag (value : Bool)
  /-- A date, a time of day, or both. -/
  | moment (written : String)
  | list (items : List Toml)
  | table (members : List (String × Toml))

namespace Toml

instance : Inhabited Toml := ⟨table []⟩

/-- The least whole number. -/
def leastWhole : Int := -9223372036854775808

/-- The greatest whole number. -/
def greatestWhole : Int := 9223372036854775807

/-- Lists, tables and dotted keys have fewer levels than this. -/
def levelLimit : Nat := 80

end Toml

end Consolidation
