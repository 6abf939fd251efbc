/-
# `Embedding.Settings` — how texts become vectors

Names of modes and providers are read without regard to case and to blanks around them.
-/
import Consolidation.Similarity.StoreError

namespace Consolidation

open Text

/-- A name without blanks around it, in small letters. -/
def plainName (raw : String) : String := mapText (fun s => (trim s).map smallLatin) raw

inductive EmbeddingMode where
  /-- By a server. -/
  | http
  /-- By hashing words. -/
  | hashed
  /-- Not at all. -/
  | off
deriving DecidableEq, Repr

namespace EmbeddingMode

def name : EmbeddingMode → String
  | http => "http"
  | hashed => "stub"
  | off => "off"

/-- The mode of exactly this name. -/
def ofName? (s : String) : Option EmbeddingMode := [http, hashed, off].find? (fun m => m.name == s)

def ofText (raw : String) : Except StoreError EmbeddingMode :=
  let text := plainName raw
  if text == "none" || text == "disabled" then .ok off
  else match ofName? text with
    | some mode => .ok mode
    | none => .error (.settings
        ("Unsupported embedding mode '" ++ text ++ "' (expected 'http', 'stub' or 'off')"))

end EmbeddingMode

/-- The servers that are spoken to. -/
inductive Provider where
  | ollama
  | openAi
deriving DecidableEq, Repr

namespace Provider

def name : Provider → String
  | ollama => "ollama"
  | openAi => "openai"

/-- The provider of exactly this name, or the longer name of the second one. -/
def ofName? (s : String) : Option Provider :=
  if s == "ollama" then some ollama
  else if s == "openai" || s == "openai-compatible" then some openAi
  else none

/-- The provider that a text names, or what the text is instead. -/
def ofText (raw : String) : Except String Provider :=
  match ofName? (plainName raw) with
  | some p => .ok p
  | none => .error (plainName raw)

/-- The complaint about a name that is no provider of something. -/
def complaint (of text : String) : String :=
  "Unsupported " ++ of ++ " provider '" ++ text ++ "' (expected 'ollama' or 'openai')"

end Provider

structure EmbeddingSettings where
  mode : EmbeddingMode
  provider : Provider
  /-- The address of the server, without the path of the request. -/
  endpoint : String
  model : String
  token : Option String
  timeout : Nat
deriving DecidableEq, Repr

namespace EmbeddingSettings

def default : EmbeddingSettings :=
  ⟨.http, .ollama, "http://localhost:11434", "nomic-embed-text", none, 30000⟩

end EmbeddingSettings

/-- An address without slashes at its end. -/
def withoutSlashes (endpoint : String) : String := mapText (dropEndWhile (· == '/')) endpoint

end Consolidation
