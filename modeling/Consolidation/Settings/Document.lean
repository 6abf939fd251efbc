/-
# `Settings.Document` — settings from a file

A file of settings has a table for each section.  What a section leaves out keeps its default, and what it adds
is ignored.
-/
import Consolidation.Settings.Basic
import Consolidation.Settings.Fault
import Consolidation.Toml.Reader
import Consolidation.Toml.Section

namespace Consolidation

open Number Toml

def ScanSettings.ofToml? (v : Toml) : Option ScanSettings := do
  let fields ← v.section? ["include", "exclude", "max_files"]
  let d := ScanSettings.default
  some {
    patterns := ← fieldOr fields "include" (asList? asText?) d.patterns
    excluded := ← fieldOr fields "exclude" (asList? asText?) d.excluded
    limit := ← optionalField fields "max_files" (asNatUpTo? maxLong) d.limit }

def ClusterSettings.ofToml? (v : Toml) : Option ClusterSettings := do
  let fields ← v.section? ["threshold", "top_k", "keywords", "max_keywords"]
  let d := ClusterSettings.default
  some {
    threshold := ← fieldOr fields "threshold" asSingle? d.threshold
    neighbours := ← fieldOr fields "top_k" (asNatUpTo? maxLong) d.neighbours
    keywords := ← fieldOr fields "keywords" asFlag? d.keywords
    maxKeywords := ← fieldOr fields "max_keywords" (asNatUpTo? maxLong) d.maxKeywords }

def RunSettings.ofToml? (v : Toml) : Option RunSettings := do
  let fields ← v.section? ["max_workers", "batch_size", "checkpoint_path", "index_path"]
  let d := RunSettings.default
  some {
    workers := ← fieldOr fields "max_workers" (asNatUpTo? maxLong) d.workers
    batchSize := ← fieldOr fields "batch_size" (asNatUpTo? maxLong) d.batchSize
    checkpointPath := ← optionalField fields "checkpoint_path" asText? d.checkpointPath
    indexPath := ← optionalField fields "index_path" asText? d.indexPath }

def EmbeddingSettings.ofToml? (v : Toml) : Option EmbeddingSettings := do
  let fields ← v.section? ["mode", "provider", "endpoint", "model", "api_key", "timeout_ms"]
  let d := EmbeddingSettings.default
  some {
    mode := ← fieldOr fields "mode" (asName? EmbeddingMode.ofName?) d.mode
    provider := ← fieldOr fields "provider" (asName? Provider.ofName?) d.provider
    endpoint := ← fieldOr fields "endpoint" asText? d.endpoint
    model := ← fieldOr fields "model" asText? d.model
    token := ← optionalField fields "api_key" asText? d.token
    timeout := ← fieldOr fields "timeout_ms" (asNatUpTo? maxLong) d.timeout }

def ModelSettings.ofToml? (v : Toml) : Option ModelSettings := do
  let fields ← v.section? [
    "enabled", "provider", "endpoint", "model", "api_key", "temperature", "max_tokens",
    "timeout_ms"]
  let d := ModelSettings.default
  some {
    enabled := ← fieldOr fields "enabled" asFlag? d.enabled
    provider := ← fieldOr fields "provider" (asName? Provider.ofName?) d.provider
    endpoint := ← fieldOr fields "endpoint" asText? d.endpoint
    model := ← fieldOr fields "model" asText? d.model
    token := ← optionalField fields "api_key" asText? d.token
    temperature := ← fieldOr fields "temperature" asSingle? d.temperature
    maxTokens := ← fieldOr fields "max_tokens" (asNatUpTo? maxWord) d.maxTokens
    timeout := ← fieldOr fields "timeout_ms" (asNatUpTo? maxLong) d.timeout }

def FormatterSettings.ofToml? (v : Toml) : Option FormatterSettings := do
  let fields ← v.section? ["enabled", "command", "timeout_ms"]
  let d := FormatterSettings.default
  some {
    enabled := ← fieldOr fields "enabled" asFlag? d.enabled
    command := ← fieldOr fields "command" (asList? asText?) d.command
    timeout := ← fieldOr fields "timeout_ms" (asNatUpTo? maxLong) d.timeout }

namespace Settings

def ofToml? (v : Toml) : Option Settings := do
  let fields ← v.section? ["scan", "clustering", "pipeline", "embedding", "llm", "formatter"]
  let d := Settings.default
  some {
    scan := ← fieldOr fields "scan" ScanSettings.ofToml? d.scan
    clustering := ← fieldOr fields "clustering" ClusterSettings.ofToml? d.clustering
    run := ← fieldOr fields "pipeline" RunSettings.ofToml? d.run
    embedding := ← fieldOr fields "embedding" EmbeddingSettings.ofToml? d.embedding
    model := ← fieldOr fields "llm" ModelSettings.ofToml? d.model
    formatter := ← fieldOr fields "formatter" FormatterSettings.ofToml? d.formatter }

/-- The settings that bytes write. -/
def ofBytes (bytes : List UInt8) : Except SettingsFault Settings :=
  match Text.Utf8.decode? bytes with
  | none => .error .encoding
  | some source =>
    match (Toml.ofText? source).bind ofToml? with
    | some s => .ok s
    | none => .error .form

/-- The name of the file of settings in a project. -/
def fileName : String := "consolidator.toml"

/-- The settings in a file. -/
def load (path : Files.Path) (tree : Files.Entry) : Except SettingsFault Settings :=
  match tree.read path with
  | .ok bytes => ofBytes bytes
  | .error fault => .error (.file fault)

/-- The settings in a file that is asked for, or in the one of the project if it is there, or the
defaults. -/
def discover (project : Files.Path) (asked : Option Files.Path) (tree : Files.Entry) :
    Except SettingsFault Settings :=
  match asked with
  | some path => load path tree
  | none =>
    if tree.hasFile (project ++ [fileName]) then load (project ++ [fileName]) tree else .ok default

end Settings

end Consolidation
