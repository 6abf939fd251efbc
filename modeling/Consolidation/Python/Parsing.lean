/-
# `Python.Parsing` — readers of token lists

A reader takes what it understands from the front of the tokens, or fails at a place.  Beside
the tokens the state holds where the last token or comment taken ended, which is where a node that
is finished ends, and what the last line end said about the next line.
-/
import Consolidation.Python.Tree

namespace Consolidation.Python

structure ParseState where
  rest : List Token
  /-- The end of the last token or comment taken. -/
  last : Place
  /-- The comments on lines of their own before the next token. -/
  comments : List Comment
  /-- The indentation of the next token's line. -/
  indent : Nat

namespace ParseState

/-- The token at the front. -/
def front (s : ParseState) : Token :=
  s.rest.head?.getD ⟨.finish, "", s.last, s.last⟩

def here (s : ParseState) : Place := s.front.start

/-- The state behind the token at the front. -/
def advance (s : ParseState) : ParseState :=
  match s.rest with
  | [] => s
  | t :: rest =>
    match t.kind with
    | .lineEnd comments indent => ⟨rest, t.stop, comments, indent⟩
    | _ => { s with rest := rest, last := t.stop }

end ParseState

/-- A reader of tokens. -/
def Parser (α : Type) : Type := ParseState → Except Place (α × ParseState)

namespace Parser

variable {α β : Type}

instance : Monad Parser where
  pure a := fun s => .ok (a, s)
  bind p f := fun s =>
    match p s with
    | .ok (a, s') => f a s'
    | .error e => .error e

/-- Fails at the token at the front. -/
def fail : Parser α := fun s => .error s.here

/-- Tries the second reader where the first one fails.  If both do, the failure that lies
further behind in the source counts. -/
def orElse (p q : Parser α) : Parser α := fun s =>
  match p s with
  | .ok r => .ok r
  | .error e =>
    match q s with
    | .ok r => .ok r
    | .error e' => .error (if e.offset ≤ e'.offset then e' else e)

/-- The token at the front, which stays there. -/
def peek : Parser Token := fun s => .ok (s.front, s)

/-- The token behind the one at the front. -/
def peekSecond : Parser Token := fun s => .ok (s.advance.front, s)

/-- The end of the last token or comment taken. -/
def lastStop : Parser Place := fun s => .ok (s.last, s)

/-- Takes the token at the front. -/
def advance : Parser Unit := fun s => .ok ((), s.advance)

/-- Takes a sign. -/
def sign (text : String) : Parser Unit := do
  if (← peek).isSign text then advance else fail

/-- Takes a word. -/
def word (text : String) : Parser Unit := do
  if (← peek).isWord text then advance else fail

/-- Takes a sign if it is at the front. -/
def sign? (text : String) : Parser Bool := do
  if (← peek).isSign text then
    advance
    pure true
  else pure false

/-- Takes a word if it is at the front. -/
def word? (text : String) : Parser Bool := do
  if (← peek).isWord text then
    advance
    pure true
  else pure false

/-- Makes a node that starts at `start` and ends where the last token ended. -/
def finishNode (start : Place) (kind : NodeKind) (children : List Tree) : Parser Tree := do
  let stop ← lastStop
  pure (.node kind ⟨start, stop⟩ children)

/-- Reads items with commas between them, a comma being allowed at the end, up to a token that
`stops` recognises. -/
def commaList (stops : Token → Bool) (item : Parser α) : Nat → Parser (List α)
  | 0 => fail
  | fuel + 1 => do
    if stops (← peek) then pure []
    else
      let first ← item
      if ← sign? "," then
        let rest ← commaList stops item fuel
        pure (first :: rest)
      else if stops (← peek) then pure [first]
      else fail

/-- Repeats a reader as long as `goes` recognises the token at the front. -/
def repeatWhile (goes : Token → Bool) (item : Parser α) : Nat → Parser (List α)
  | 0 => fail
  | fuel + 1 => do
    if goes (← peek) then
      let first ← item
      let rest ← repeatWhile goes item fuel
      pure (first :: rest)
    else pure []

/-- Repeats a reader as long as `goes` says so. -/
def repeatWhen (goes : Parser Bool) (item : Parser α) : Nat → Parser (List α)
  | 0 => fail
  | fuel + 1 => do
    if ← goes then
      let first ← item
      let rest ← repeatWhen goes item fuel
      pure (first :: rest)
    else pure []

/-- Applies `more` to what was read so far as long as it reads something. -/
def extendWhile (more : Tree → Parser (Option Tree)) : Nat → Tree → Parser Tree
  | 0, _ => fail
  | fuel + 1, t => do
    match ← more t with
    | some t' => extendWhile more fuel t'
    | none => pure t

/-- Takes a token of a kind. -/
def token (kind : TokenKind) : Parser Unit := do
  if (← peek).kind == kind then advance else fail

/-- Where the token at the front starts. -/
def here : Parser Place := fun s => .ok (s.here, s)

/-! ## Lines -/

/-- Takes the end of a logical line. -/
def lineEnd : Parser Unit := do
  match (← peek).kind with
  | .lineEnd _ _ => advance
  | _ => fail

/-- Is the end of a logical line at the front? -/
def atLineEnd : Parser Bool := do
  match (← peek).kind with
  | .lineEnd _ _ => pure true
  | _ => pure false

/-- The indentation of the line that the last line end announced. -/
def indent : Parser Nat := fun s => .ok (s.indent, s)

/-- Takes the pending comments down to the first one that is indented less. -/
def takeComments (indent : Nat) : Parser Unit := fun s =>
  let own := s.comments.takeWhile (fun c => decide (indent ≤ c.indent))
  .ok ((), { s with
    comments := s.comments.drop own.length
    last := (own.getLast?.map Comment.stop).getD s.last })

/-- A bound on the number of repetitions: the number of tokens left. -/
def bound : Parser Nat := fun s => .ok (s.rest.length + 1, s)

end Parser

end Consolidation.Python
