/-
# `Proposal.Generator` — models that answer prompts

A generator answers a prompt with a text, fails, or breaks down.  One behind a server is asked in the form of
its provider, and its answer is taken from the reply.
-/
import Consolidation.Embedding.Settings
import Consolidation.Http
import Consolidation.Json.Record
import Consolidation.ParseError
import Consolidation.Text.Duration

namespace Consolidation

open Number

/-- How a model is asked. -/
structure ModelSettings where
  enabled : Bool
  provider : Provider
  /-- The address of the server, without the path of the request. -/
  endpoint : String
  model : String
  token : Option String
  temperature : Single
  maxTokens : Nat
  timeout : Nat
deriving DecidableEq

namespace ModelSettings

def default : ModelSettings where
  enabled := true
  provider := .ollama
  endpoint := "http://localhost:11434"
  model := "qwen2.5-coder:7b"
  token := none
  temperature := Decimal.toSingle ⟨false, 2, -1⟩
  maxTokens := 2048
  timeout := 120000

end ModelSettings

/-- What a generator makes of a prompt. -/
inductive GeneratorAnswer where
  | text (answer : String)
  | failed (reason : String)
  | brokeDown (message : String)
deriving DecidableEq, Repr

structure Generator where
  name : String
  generate : String → GeneratorAnswer

namespace ModelServer

open Consolidation.Json

def singleToJson (x : Single) : Json := if x.isFinite then .num ⟨.shortest x, false⟩ else .null

/-- The address without slashes at its end. -/
def base (s : ModelSettings) : String := withoutSlashes s.endpoint

/-- Where requests go. -/
def url (s : ModelSettings) : String :=
  base s ++
    match s.provider with
    | .ollama => "/api/generate"
    | .openAi => "/v1/chat/completions"

def requestBody (s : ModelSettings) (prompt : String) : Json :=
  match s.provider with
  | .ollama => .obj [
      ("model", .str s.model),
      ("prompt", .str prompt),
      ("stream", .bool false),
      ("options", .obj [
        ("temperature", singleToJson s.temperature), ("num_predict", .nat s.maxTokens)])]
  | .openAi => .obj [
      ("model", .str s.model),
      ("messages", .arr [.obj [("role", .str "user"), ("content", .str prompt)]]),
      ("temperature", singleToJson s.temperature),
      ("max_tokens", .nat s.maxTokens)]

def request (s : ModelSettings) (prompt : String) : HttpRequest :=
  ⟨url s, s.token, requestBody s prompt⟩

/-- The answer in a body that holds one. -/
def ofSingle (j : Json) : Option GeneratorAnswer := do
  let r ← record? ["response", "done"] j
  let answer ← r.required "response" asStr?
  let _ ← r.withDefault "done" asBool? false
  some (.text answer)

/-- What one of several choices says, if it says anything. -/
def choice? (j : Json) : Option (Option String) := do
  let r ← record? ["message"] j
  r.required "message" (fun m => do
    let r ← record? ["content"] m
    r.withDefault "content" (asOption? asStr?) none)

/-- The answer in a body that holds choices: the first of them. -/
def ofChoices (j : Json) : Option GeneratorAnswer := do
  let r ← record? ["choices"] j
  let choices ← r.required "choices" (asList? choice?)
  match choices.head?.join with
  | some answer => some (.text answer)
  | none => some (.failed "response has no choices")

def ofBody (provider : Provider) (j : Json) : Option GeneratorAnswer :=
  match provider with
  | .ollama => ofSingle j
  | .openAi => ofChoices j

/-- What a reply says. -/
def ofReply (s : ModelSettings) : HttpReply → GeneratorAnswer
  | .answered status body =>
    if !Http.isSuccess status then
      .failed (url s ++ " returned HTTP " ++ toString status ++ ": " ++
        String.ofList (Text.Utf8.decodeLossy body))
    else ((ofBytes? body).bind (ofBody s.provider)).getD (.failed "invalid response")
  | .timedOut => .failed ("request to " ++ base s ++ " timed out after " ++ Text.durationText s.timeout)
  | .notConnected => .failed ("cannot connect to " ++ base s)
  | .unsendable => .failed "request failed"

end ModelServer

namespace Generator

/-- The generator behind a server. -/
def remote (transport : Transport) (s : ModelSettings) : Generator where
  name := s.model
  generate prompt := ModelServer.ofReply s (Http.post transport (ModelServer.request s prompt))

end Generator

end Consolidation
