/-
# `CommandLine.Options` — the arguments of the program

An option has a long name; its value stands behind an equals sign or is the next argument.  Two switches also have
a short name of one letter, and short names may be joined.  Each option is given at most once, and what
is no option is the project.  The first thing that is wrong, or that asks for help or
the version, decides.
-/
import Consolidation.Number.Reading
import Consolidation.Number.Width
import Consolidation.Embedding.Settings
import Consolidation.ParseError

namespace Consolidation

open Number

/-- What the arguments ask for. -/
structure Options where
  root : String
  limit : Option Nat
  /-- Is a report to be left in the project? -/
  report : Bool
  jsonPath : Option String
  settingsPath : Option String
  workers : Option Nat
  batchSize : Option Nat
  threshold : Option Single
  mode : Option EmbeddingMode
  noModel : Bool
  fresh : Bool
  verbose : Bool
  quiet : Bool
deriving DecidableEq

/-- Why arguments ask for no run. -/
inductive UsageEnd where
  | help
  | version
  | unknown (argument : String)
  | repeated (option : String)
  | noValue (option : String)
  | unwantedValue (option : String)
  | badValue (option value : String)
  | noProject
deriving DecidableEq, Repr

namespace Options

/-- Arguments that ask for nothing in a project. -/
def plain (root : String) : Options :=
  ⟨root, none, false, none, none, none, none, none, none, false, false, false, false⟩

/-! ## Switches and options with values -/

/-- Turns on the switch of a long name. -/
def switch? (name : String) : Option (Options → Options) :=
  if name == "report" then some (fun o => { o with report := true })
  else if name == "no-llm" then some (fun o => { o with noModel := true })
  else if name == "fresh" then some (fun o => { o with fresh := true })
  else if name == "verbose" then some (fun o => { o with verbose := true })
  else if name == "quiet" then some (fun o => { o with quiet := true })
  else none

/-- The long name of a short one. -/
def longName? (c : Char) : Option String :=
  if c == 'v' then some "verbose"
  else if c == 'q' then some "quiet"
  else if c == 'h' then some "help"
  else if c == 'V' then some "version"
  else none

def count? (value : String) : Option Nat := readNatUpTo? maxLong value.toList

/-- A path is not empty. -/
def path? (value : String) : Option String := if value.isEmpty then none else some value

/-- Takes the value of the option of a long name; the value may be a bad one. -/
def valued? (name : String) : Option (String → Options → Option Options) :=
  if name == "max-files" then
    some (fun v o => (count? v).map (fun n => { o with limit := some n }))
  else if name == "json" then
    some (fun v o => (path? v).map (fun p => { o with jsonPath := some p }))
  else if name == "config" then
    some (fun v o => (path? v).map (fun p => { o with settingsPath := some p }))
  else if name == "max-workers" then
    some (fun v o => (count? v).map (fun n => { o with workers := some n }))
  else if name == "batch-size" then
    some (fun v o => (count? v).map (fun n => { o with batchSize := some n }))
  else if name == "threshold" then
    some (fun v o => (Single.ofText? v).map (fun x => { o with threshold := some x }))
  else if name == "embed-mode" then
    some (fun v o => (EmbeddingMode.ofName? v).map (fun m => { o with mode := some m }))
  else none

/-! ## Reading arguments -/

/-- Arguments that have been read. -/
structure Draft where
  options : Options
  /-- The names of the options given so far, and of the project. -/
  given : List String

namespace Draft

def empty : Draft := ⟨.plain "", []⟩

/-- Changes the options once for a name. -/
def once (d : Draft) (name : String) (f : Options → Except UsageEnd Options) :
    Except UsageEnd Draft :=
  if d.given.contains name then .error (.repeated name)
  else (f d.options).map (fun o => ⟨o, name :: d.given⟩)

/-- Takes a switch. -/
def addSwitch (d : Draft) (name : String) : Except UsageEnd Draft :=
  if name == "help" then .error .help
  else if name == "version" then .error .version
  else match switch? name with
    | some f => d.once name (fun o => .ok (f o))
    | none => .error (.unknown name)

/-- Takes an option with its value. -/
def addValue (d : Draft) (name value : String) (f : String → Options → Option Options) :
    Except UsageEnd Draft :=
  d.once name (fun o =>
    match f value o with
    | some o => .ok o
    | none => .error (.badValue name value))

/-- Takes short switches. -/
def addShort (d : Draft) : List Char → Except UsageEnd Draft
  | [] => .ok d
  | c :: rest =>
    match longName? c with
    | none => .error (.unknown (String.ofList ['-', c]))
    | some name =>
      match d.addSwitch name with
      | .ok d => addShort d rest
      | .error e => .error e

/-- Takes an argument that is no option. -/
def addProject (d : Draft) (root : String) : Except UsageEnd Draft :=
  if d.given.contains "root" then .error (.unknown root)
  else match path? root with
    | some root => d.once "root" (fun o => .ok { o with root := root })
    | none => .error (.noValue "root")

/-- Takes arguments none of which is an option. -/
def addProjects (d : Draft) (args : List String) : Except UsageEnd Draft := args.foldlM addProject d

end Draft

/-- Is an argument an option, or several short ones? -/
def isOption (arg : String) : Bool :=
  match arg.toList with
  | '-' :: _ :: _ => true
  | _ => false

/-- Reads arguments. -/
def readArgs (d : Draft) : List String → Except UsageEnd Draft
  | [] => .ok d
  | arg :: rest =>
    match arg.toList with
    | ['-', '-'] => d.addProjects rest
    | '-' :: '-' :: long =>
      match Text.splitOnce? ['='] long with
      | some (name, value) =>
        let name := String.ofList name
        match valued? name with
        | some f =>
          match d.addValue name (String.ofList value) f with
          | .ok d => readArgs d rest
          | .error e => .error e
        | none =>
          if (switch? name).isSome || name == "help" || name == "version" then
            .error (.unwantedValue name)
          else .error (.unknown name)
      | none =>
        let name := String.ofList long
        match valued? name with
        | some f =>
          match rest with
          | value :: rest =>
            if isOption value then .error (.noValue name)
            else match d.addValue name value f with
              | .ok d => readArgs d rest
              | .error e => .error e
          | [] => .error (.noValue name)
        | none =>
          match d.addSwitch name with
          | .ok d => readArgs d rest
          | .error e => .error e
    | '-' :: c :: short =>
      match d.addShort (c :: short) with
      | .ok d => readArgs d rest
      | .error e => .error e
    | _ =>
      match d.addProject arg with
      | .ok d => readArgs d rest
      | .error e => .error e

/-- The options that arguments give. -/
def ofArgs (args : List String) : Except UsageEnd Options :=
  match readArgs .empty args with
  | .error e => .error e
  | .ok d => if d.given.contains "root" then .ok d.options else .error .noProject

end Options

end Consolidation
