/-
# `Proposal.Formatter` — programs that format code

A formatter takes code and either gives it back formatted or leaves it as it was and may say why.  A command
formats what it reads; how the command went is told by what runs it.
-/
import Consolidation.Text.Utf8
import Consolidation.Text.Lines
import Consolidation.Text.Duration

namespace Consolidation

structure Formatted where
  /-- The formatted code, or the code as it was. -/
  output : String
  success : Bool
  diagnostics : Option String
deriving DecidableEq, Repr

abbrev Formatter := String → Formatted

namespace Formatted

/-- The code as it was, and why. -/
def refused (source diagnostics : String) : Formatted := ⟨source, false, some diagnostics⟩

end Formatted

/-- How the run of a program ended. -/
inductive ProgramEnd where
  | exited (code : Nat) (output errors : List UInt8)
  | killed (signal : String) (errors : List UInt8)
  | notStarted (reason : String)
  | timedOut
deriving DecidableEq, Repr

/-- A program with arguments and what it reads. -/
structure ProgramRun where
  program : String
  args : List String
  input : List UInt8
  timeout : Nat

/-- Runs programs. -/
abbrev Runner := ProgramRun → ProgramEnd

namespace Formatter

/-- The formatter that is not there. -/
def absent : Formatter := fun source => .refused source "no formatter configured"

/-- What a program wrote to its errors, as it is quoted. -/
def said (errors : List UInt8) : String :=
  String.ofList (Text.trim (Text.Utf8.decodeLossy errors))

/-- What the end of a program says of the code that it read. -/
def ofEnd (program : String) (timeout : Nat) (source : String) : ProgramEnd → Formatted
  | .notStarted reason => .refused source (program ++ ": " ++ reason)
  | .timedOut => .refused source (program ++ " timed out after " ++ Text.durationText timeout)
  | .killed signal errors =>
    .refused source (program ++ " exited with signal: " ++ signal ++ ": " ++ said errors)
  | .exited code output errors =>
    if code != 0 then
      .refused source (program ++ " exited with exit status: " ++ toString code ++ ": " ++
        said errors)
    else match Text.Utf8.decode? output with
      | some text => ⟨String.ofList text, true, none⟩
      | none => .refused source (program ++ " wrote invalid UTF-8")

/-- The formatter that a command is. -/
def ofCommand (run : Runner) (command : List String) (timeout : Nat) : Formatter :=
  match command with
  | [] => absent
  | program :: args => fun source =>
    ofEnd program timeout source (run ⟨program, args, Text.Utf8.encode source.toList, timeout⟩)

end Formatter

end Consolidation
