/-
# `Settings.Fault` — why settings cannot be used

Settings can be hard to get, written in a form that cannot be read, or ask for what makes no sense.
-/
import Consolidation.Number.Decimal
import Consolidation.Embedding.Settings

namespace Consolidation

open Number

inductive SettingsFault where
  /-- The file cannot be read. -/
  | file (fault : Files.FileFault)
  /-- The file is no text. -/
  | encoding
  /-- The file does not say what settings are. -/
  | form
  /-- A variable does not hold a number. -/
  | unreadable (key raw : String)
  | embedding (error : StoreError)
  /-- No provider of models has this name. -/
  | provider (name : String)
  | noWorkers
  | noBatch
  | threshold (value : Single)
  | noNeighbours
  | noPatterns
  | noFiles
  | noCommand
deriving DecidableEq

namespace SettingsFault

/-- What is wrong with settings that could be read, without the words about settings in front. -/
def complaint : SettingsFault → String
  | unreadable key raw => key ++ ": cannot parse '" ++ raw ++ "'"
  | provider name => Provider.complaint "LLM" name
  | noWorkers => "max_workers must be > 0"
  | noBatch => "batch_size must be > 0"
  | threshold value => "threshold (" ++ value.toText ++ ") must be within [0, 1]"
  | noNeighbours => "top_k must be > 0"
  | noPatterns => "scan.include needs at least one pattern"
  | noFiles => "max_files must be > 0"
  | noCommand => "formatter.command is empty; set formatter.enabled = false instead"
  | file fault => fault.message
  | encoding => "stream did not contain valid UTF-8"
  | form => "unexpected content"
  | embedding error => error.message

def message (f : SettingsFault) : String :=
  match f with
  | file _ => "IO error: " ++ f.complaint
  | encoding => "IO error: " ++ f.complaint
  | form => "Config parse error: " ++ f.complaint
  | embedding _ => "Vector store error: " ++ f.complaint
  | _ => "Invalid configuration: " ++ f.complaint

end SettingsFault

end Consolidation
