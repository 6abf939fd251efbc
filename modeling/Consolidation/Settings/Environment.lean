/-
# `Settings.Environment` — settings from variables of the environment

A variable changes one setting.  Blanks around its value do not count, and a variable that holds nothing changes
nothing.  The variables are looked at in a fixed order, and the first one that cannot be used
is reported.
-/
import Consolidation.Number.Reading
import Consolidation.Settings.Basic
import Consolidation.Settings.Fault

namespace Consolidation

open Number

/-- The values of variables by name. -/
abbrev Environment := String → Option String

namespace Environment

/-- The variables that are looked at. -/
def names : List String := [
  "CONSOLIDATOR_MAX_WORKERS", "CONSOLIDATOR_BATCH_SIZE", "CONSOLIDATOR_THRESHOLD",
  "CONSOLIDATOR_EMBEDDING_MODE", "CONSOLIDATOR_EMBEDDING_PROVIDER",
  "CONSOLIDATOR_EMBEDDING_ENDPOINT", "CONSOLIDATOR_EMBEDDING_MODEL",
  "CONSOLIDATOR_EMBEDDING_API_KEY", "CONSOLIDATOR_LLM_PROVIDER", "CONSOLIDATOR_LLM_ENDPOINT",
  "CONSOLIDATOR_LLM_MODEL", "CONSOLIDATOR_LLM_API_KEY", "CONSOLIDATOR_FORMATTER"]

/-- The value of a variable without blanks around it, if it holds anything. -/
def value? (e : Environment) (key : String) : Option String :=
  ((e key).map (Text.mapText Text.trim)).filter (!·.isEmpty)

/-- Changes settings by a variable whose value has to be readable. -/
def change {α : Type} (e : Environment) (key : String) (read : String → Except SettingsFault α)
    (set : α → Settings → Settings) (s : Settings) : Except SettingsFault Settings :=
  match e.value? key with
  | none => .ok s
  | some raw => (read raw).map (fun v => set v s)

def readCount (key raw : String) : Except SettingsFault Nat :=
  match readNatUpTo? maxLong raw.toList with
  | some n => .ok n
  | none => .error (.unreadable key raw)

def readSingle (key raw : String) : Except SettingsFault Single :=
  match Single.ofText? raw with
  | some x => .ok x
  | none => .error (.unreadable key raw)

def readMode (raw : String) : Except SettingsFault EmbeddingMode :=
  (EmbeddingMode.ofText raw).mapError .embedding

def readEmbeddingProvider (raw : String) : Except SettingsFault Provider :=
  (Provider.ofText raw).mapError (fun name => .embedding (.settings (Provider.complaint "embedding" name)))

def readModelProvider (raw : String) : Except SettingsFault Provider :=
  (Provider.ofText raw).mapError .provider

/-- The value as it is. -/
def readText (raw : String) : Except SettingsFault String := .ok raw

/-- The words of a command. -/
def readCommand (raw : String) : Except SettingsFault (List String) :=
  .ok ((Text.fields raw.toList).map String.ofList)

end Environment

namespace Settings

open Environment

/-- Changes the settings of a run. -/
def withRunVariables (e : Environment) (s : Settings) : Except SettingsFault Settings := do
  let s ← e.change "CONSOLIDATOR_MAX_WORKERS" (readCount "CONSOLIDATOR_MAX_WORKERS")
    (fun n s => { s with run := { s.run with workers := n } }) s
  let s ← e.change "CONSOLIDATOR_BATCH_SIZE" (readCount "CONSOLIDATOR_BATCH_SIZE")
    (fun n s => { s with run := { s.run with batchSize := n } }) s
  e.change "CONSOLIDATOR_THRESHOLD" (readSingle "CONSOLIDATOR_THRESHOLD")
    (fun x s => { s with clustering := { s.clustering with threshold := x } }) s

/-- Changes the settings of embeddings. -/
def withEmbeddingVariables (e : Environment) (s : Settings) : Except SettingsFault Settings := do
  let s ← e.change "CONSOLIDATOR_EMBEDDING_MODE" readMode
    (fun m s => { s with embedding := { s.embedding with mode := m } }) s
  let s ← e.change "CONSOLIDATOR_EMBEDDING_PROVIDER" readEmbeddingProvider
    (fun p s => { s with embedding := { s.embedding with provider := p } }) s
  let s ← e.change "CONSOLIDATOR_EMBEDDING_ENDPOINT" readText
    (fun t s => { s with embedding := { s.embedding with endpoint := t } }) s
  let s ← e.change "CONSOLIDATOR_EMBEDDING_MODEL" readText
    (fun t s => { s with embedding := { s.embedding with model := t } }) s
  e.change "CONSOLIDATOR_EMBEDDING_API_KEY" readText
    (fun t s => { s with embedding := { s.embedding with token := some t } }) s

/-- Changes the settings of models and formatters. -/
def withModelVariables (e : Environment) (s : Settings) : Except SettingsFault Settings := do
  let s ← e.change "CONSOLIDATOR_LLM_PROVIDER" readModelProvider
    (fun p s => { s with model := { s.model with provider := p } }) s
  let s ← e.change "CONSOLIDATOR_LLM_ENDPOINT" readText
    (fun t s => { s with model := { s.model with endpoint := t } }) s
  let s ← e.change "CONSOLIDATOR_LLM_MODEL" readText
    (fun t s => { s with model := { s.model with model := t } }) s
  let s ← e.change "CONSOLIDATOR_LLM_API_KEY" readText
    (fun t s => { s with model := { s.model with token := some t } }) s
  e.change "CONSOLIDATOR_FORMATTER" readCommand
    (fun c s => { s with formatter := { s.formatter with command := c } }) s

/-- Changes settings by the variables of the environment. -/
def withEnvironment (e : Environment) (s : Settings) : Except SettingsFault Settings := do
  let s ← s.withRunVariables e
  let s ← s.withEmbeddingVariables e
  s.withModelVariables e

end Settings

end Consolidation
