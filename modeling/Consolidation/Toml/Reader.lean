/-
# `Toml.Reader` — reading a configuration file

A file is a sequence of lines: headers of tables, and keys with values.  A value is a text, a number, a date, a
truth value, a list over any number of lines, or a table on one line.
-/
import Consolidation.Text.Utf8
import Consolidation.Toml.Number
import Consolidation.Toml.Table

namespace Consolidation.Toml

/-! ## Values -/

mutual

/-- One value with at most `levels` levels of lists and tables. -/
def readValue? : Nat → Nat → List Char → Option (Toml × List Char)
  | 0, _, _ => none
  | fuel + 1, levels, s =>
    match s with
    | '[' :: rest =>
      if levels = 0 then none
      else do
        let rest ← skipBetween? false rest
        match rest with
        | ']' :: after => some (list [], after)
        | _ =>
          let (items, after) ← readItems? fuel (levels - 1) rest
          some (list items, after)
    | '\x7b' :: rest =>
      if levels = 0 then none
      else match skipGaps rest with
        | '\x7d' :: after => some (table [], after)
        | _ => do
          let (members, after) ← readMembers? fuel (levels - 1) [] rest
          some (table (Node.valuesOf members), after)
    | 't' :: 'r' :: 'u' :: 'e' :: rest => some (flag true, rest)
    | 'f' :: 'a' :: 'l' :: 's' :: 'e' :: rest => some (flag false, rest)
    | '"' :: _ => (readText? s).map (fun (t, rest) => (text (String.ofList t), rest))
    | '\'' :: _ => (readText? s).map (fun (t, rest) => (text (String.ofList t), rest))
    | _ => (readMoment? s).or (readNumber? s)

/-- The items of a list up to its closing bracket; a comma may stand behind the last one. -/
def readItems? : Nat → Nat → List Char → Option (List Toml × List Char)
  | 0, _, _ => none
  | fuel + 1, levels, s => do
    let (item, rest) ← readValue? fuel levels (← skipBetween? false s)
    match ← skipBetween? false rest with
    | ',' :: rest =>
      match ← skipBetween? false rest with
      | ']' :: after => some ([item], after)
      | rest =>
        let (items, after) ← readItems? fuel levels rest
        some (item :: items, after)
    | ']' :: after => some ([item], after)
    | _ => none

/-- The members of a table on one line, behind those that were read before, up to its closing brace. -/
def readMembers? : Nat → Nat → Node.Members → List Char → Option (Node.Members × List Char)
  | 0, _, _, _ => none
  | fuel + 1, levels, members, s => do
    let (key, rest) ← readKey? s
    let rest ← skipChar? '=' rest
    let (value, rest) ← readValue? fuel levels (skipGaps rest)
    let members ← Node.insert key.dropLast (key.getLastD "") value .header members
    match skipGaps rest with
    | ',' :: rest => readMembers? fuel levels members rest
    | '\x7d' :: after => some (members, after)
    | _ => none

end

/-! ## Lines -/

/-- A file as far as it was read: the header of the open table, and everything that was given. -/
structure Draft where
  header : List String
  root : Node.Members

namespace Draft

def empty : Draft := ⟨[], []⟩

/-- Opens a table by its header. -/
def openTable (d : Draft) (key : List String) : Option Draft :=
  (Node.openTable key.dropLast (key.getLastD "") d.root).map (fun root => ⟨key, root⟩)

/-- Opens a table by a repeated header. -/
def openElement (d : Draft) (key : List String) : Option Draft :=
  (Node.openElement key.dropLast (key.getLastD "") d.root).map (fun root => ⟨key, root⟩)

/-- Gives a key of the open table a value. -/
def insert (d : Draft) (key : List String) (value : Toml) : Option Draft :=
  (Node.change false (Node.insert key.dropLast (key.getLastD "") value) d.header .header
    d.root).map (fun root => ⟨d.header, root⟩)

end Draft

/-- Reads what starts a line that is not blank. -/
def readLine? (d : Draft) (s : List Char) : Option (Draft × List Char) := do
  match s with
  | '#' :: _ => some (d, ← skipLine? s)
  | '[' :: '[' :: rest =>
    let (key, rest) ← readKey? rest
    let rest ← skipChar? ']' (← skipChar? ']' rest)
    some (← d.openElement key, ← skipLine? rest)
  | '[' :: rest =>
    let (key, rest) ← readKey? rest
    some (← d.openTable key, ← skipLine? (← skipChar? ']' rest))
  | _ =>
    let (key, rest) ← readKey? s
    let rest ← skipChar? '=' rest
    let (value, rest) ← readValue? (2 * rest.length + 2) (levelLimit - 1) (skipGaps rest)
    some (← d.insert key value, ← skipLine? rest)

/-- Reads line by line to the end. -/
def readLines? : Nat → Draft → List Char → Option Draft
  | 0, _, _ => none
  | fuel + 1, d, s =>
    match skipGaps s with
    | [] => some d
    | s =>
      match skipNewline? s with
      | some rest => readLines? fuel d rest
      | none => (readLine? d s).bind (fun (d, rest) => readLines? fuel d rest)

/-- The members of the table that a text writes. -/
def ofText? (s : List Char) : Option Toml :=
  let s := match s with
    | '\ufeff' :: rest => rest
    | _ => s
  (readLines? (s.length + 1) .empty s).map (fun d => table (Node.valuesOf d.root))

end Consolidation.Toml
