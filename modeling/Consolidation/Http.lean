/-
# `Http` — requests to servers and their replies

A transport carries a request to a server and says what came back.  `post` carries only requests that can be
sent at all: the address has to be that of a server, and a token must not hold control characters.
-/
import Consolidation.Text.Lines
import Consolidation.Json.Writer
import Consolidation.Json.Reader

namespace Consolidation

/-- A request that posts a JSON value. -/
structure HttpRequest where
  url : String
  /-- The token that proves who asks. -/
  token : Option String
  body : Json

/-- What comes back. -/
inductive HttpReply where
  | answered (status : Nat) (body : List UInt8)
  | timedOut
  | notConnected
  /-- The request could not be sent. -/
  | unsendable

/-- Carries requests to servers. -/
abbrev Transport := HttpRequest → HttpReply

namespace Http

open Text

/-- Characters that no host may hold. -/
def isForbiddenInHost (c : Char) : Bool :=
  c.toNat ≤ 0x20 || c.toNat == 0x7F || " #%/:<>?@[\\]^|".toList.contains c

/-- Is a text the number of a service? -/
def isServiceNumber (s : List Char) : Bool :=
  s.all Char.isDigit && s.foldl (fun n c => n * 10 + (c.toNat - 48)) 0 ≤ 65535

/-- Is a text a host, with the number of a service or without? -/
def isHost (s : List Char) : Bool :=
  match s with
  | '[' :: rest =>
    match splitOnce? [']'] rest with
    | some (inner, behind) =>
      !inner.isEmpty && inner.all (fun c => c.isAlphanum || c == ':' || c == '.') &&
        (match behind with
          | [] => true
          | ':' :: digits => isServiceNumber digits
          | _ => false)
    | none => false
  | _ =>
    let (host, number) := (splitOnce? [':'] s).getD (s, [])
    !host.isEmpty && !host.any isForbiddenInHost && isServiceNumber number

/-- The part of an address between its slashes and the next slash, question mark or hash. -/
def authorityOf (s : List Char) : List Char :=
  let behind := s.dropWhile (fun c => c == '/' || c == '\\')
  let authority := behind.takeWhile (fun c => !"/\\?#".toList.contains c)
  match splitLast? '@' authority with
  | some (_, host) => host
  | none => authority

/-- Is an address that of a server? -/
def isServerUrl (url : String) : Bool :=
  match splitOnce? [':'] (trim url.toList) with
  | some (scheme, rest) =>
    [ "http".toList, "https".toList].contains (scheme.map smallLatin) && isHost (authorityOf rest)
  | none => false

/-- Can a token be sent? -/
def isToken (token : String) : Bool :=
  token.toList.all (fun c => (c == '\t' || 0x20 ≤ c.toNat) && c.toNat != 0x7F)

/-- Sends a request if it can be sent. -/
def post (transport : Transport) (r : HttpRequest) : HttpReply :=
  if isServerUrl r.url && r.token.all isToken then transport r else .unsendable

/-- Does a status say that all went well? -/
def isSuccess (status : Nat) : Bool := 200 ≤ status && status < 300

end Http

end Consolidation
