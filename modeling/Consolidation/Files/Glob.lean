/-
# `Files.Glob` — patterns for names and paths

A pattern is a list of pieces, each of which takes some bytes from the front of a text.  `Piece.after` gives all
that may be left behind a piece; a pattern matches if nothing may be left behind the last one.

A question mark stands for one byte and a star for any number of them, in a pattern for paths none
of them a slash.  Two stars between slashes stand for any number of folders.  Square brackets hold
bytes and ranges, curly ones alternatives, and a backslash takes away the meaning of a character.
-/
import Consolidation.Text.Utf8

namespace Consolidation.Files

/-- The byte of a slash. -/
def slash : UInt8 := 47

/-! ## Pieces -/

inductive Piece where
  /-- One character. -/
  | char (c : Char)
  | anyByte
  | anyBytes
  /-- Nothing, or any number of folders at the front. -/
  | foldersBefore
  /-- All below a folder. -/
  | allBelow
  /-- A slash, or any number of folders between two slashes. -/
  | foldersBetween
  /-- A byte in one of some ranges, or in none of them. -/
  | oneOf (negated : Bool) (ranges : List (UInt8 × UInt8))
  | alternatives (patterns : List (List Piece))

/-- All ends of a text, itself first. -/
def endsOf : List UInt8 → List (List UInt8)
  | [] => [[]]
  | b :: rest => (b :: rest) :: endsOf rest

/-- The ends of a text that a run of bytes other than slashes may leave; of any bytes if `crossing`. -/
def endsAfterRun (crossing : Bool) : List UInt8 → List (List UInt8)
  | [] => [[]]
  | b :: rest =>
    (b :: rest) :: if crossing || b != slash then endsAfterRun crossing rest else []

/-- The ends of a text that start behind one of its slashes. -/
def endsAfterSlash : List UInt8 → List (List UInt8)
  | [] => []
  | b :: rest => if b == slash then rest :: endsAfterSlash rest else endsAfterSlash rest

/-- Ends of one text without repetitions: those of one length are equal. -/
def distinctEnds (ends : List (List UInt8)) : List (List UInt8) :=
  ends.foldl (fun acc e => if acc.any (·.length == e.length) then acc else e :: acc) []

namespace Piece

/-- What a piece may leave of a text, where a piece stands for no others.  `crossing` says that runs may
cross slashes. -/
def afterSimple (crossing : Bool) (text : List UInt8) : Piece → List (List UInt8)
  | char c =>
    let bytes := Text.Utf8.encodeChar c
    if bytes.isPrefixOf text then [text.drop bytes.length] else []
  | anyByte =>
    match text with
    | b :: rest => if crossing || b != slash then [rest] else []
    | [] => []
  | anyBytes => endsAfterRun crossing text
  | foldersBefore => text :: endsAfterSlash text
  | allBelow =>
    match text with
    | b :: rest => if b == slash then endsOf rest else []
    | [] => []
  | foldersBetween =>
    match text with
    | b :: rest => if b == slash then rest :: endsAfterSlash rest else []
    | [] => []
  | oneOf negated ranges =>
    match text with
    | b :: rest =>
      if ranges.any (fun r => r.1 ≤ b && b ≤ r.2) != negated then [rest] else []
    | [] => []
  | alternatives _ => []

mutual

/-- What a piece may leave of some texts. -/
def after (crossing : Bool) (texts : List (List UInt8)) : Piece → List (List UInt8)
  | alternatives patterns => distinctEnds (afterAny crossing texts patterns)
  | p => distinctEnds (texts.flatMap (fun text => afterSimple crossing text p))

/-- What some pieces, one after the other, may leave of some texts. -/
def afterAll (crossing : Bool) (texts : List (List UInt8)) : List Piece → List (List UInt8)
  | [] => texts
  | p :: rest => afterAll crossing (after crossing texts p) rest

/-- What one of some patterns may leave of some texts. -/
def afterAny (crossing : Bool) (texts : List (List UInt8)) : List (List Piece) → List (List UInt8)
  | [] => []
  | pattern :: rest => afterAll crossing texts pattern ++ afterAny crossing texts rest

end

end Piece

/-- A pattern. -/
structure Glob where
  pieces : List Piece
  /-- May runs of bytes cross slashes? -/
  crossing : Bool

namespace Glob

/-- Does a pattern match a whole text? -/
def isMatch (g : Glob) (text : String) : Bool :=
  match g.pieces with
  | [.foldersBefore] => true
  | pieces => (Piece.afterAll g.crossing [Text.Utf8.encode text.toList] pieces).any List.isEmpty

/-! ## Reading -/

/-- What has been read of a pattern. -/
structure Reading where
  /-- The finished branches of the open groups, the innermost group and the last branch first, each with its
  pieces in reverse. -/
  groups : List (List (List Piece))
  /-- The pieces of the pattern or of the innermost branch, in reverse. -/
  pieces : List Piece
  /-- The pieces around each open group, in reverse. -/
  around : List (List Piece)
  /-- The character just before. -/
  before : Option Char

/-- The ranges of square brackets as bytes: a character of several bytes counts as each of them. -/
def byteRanges (ranges : List (Char × Char)) : List (UInt8 × UInt8) :=
  ranges.flatMap (fun (a, b) =>
    let single (bytes : List UInt8) := bytes.map (fun x => (x, x))
    let first := Text.Utf8.encodeChar a
    if a == b then single first
    else
      let last := Text.Utf8.encodeChar b
      single first.dropLast ++ [(first.getLastD 0, last.headD 0)] ++ single last.tail)

/-- Reads what square brackets hold, up to the closing one.  `ranges` are those so far, the last one first;
`inRange` says that a hyphen waits for the end of a range. -/
def readRanges (first inRange : Bool) (ranges : List (Char × Char)) :
    List Char → Option (List (Char × Char) × List Char)
  | [] => none
  | c :: rest =>
    if c == ']' && !first then
      some ((if inRange then ('-', '-') :: ranges else ranges).reverse, rest)
    else if c == '-' && !first && !inRange then readRanges false true ranges rest
    else
      match inRange, ranges with
      | true, (a, _) :: others =>
        if c < a then none else readRanges false false ((a, c) :: others) rest
      | _, _ => readRanges false false ((c, c) :: ranges) rest

/-- Reads square brackets from behind the opening one. -/
def readOneOf (s : List Char) : Option (Piece × List Char) :=
  let negated := s.head? == some '!' || s.head? == some '^'
  (readRanges true false [] (if negated then s.tail else s)).map
    (fun (ranges, rest) => (.oneOf negated (byteRanges ranges), rest))

/-- Puts a piece for folders in the place of the last piece, unless that is for the first or the last
folders already. -/
def replaceLast (pieces : List Piece) (p : Piece) : List Piece :=
  match pieces with
  | .foldersBefore :: rest => .foldersBefore :: rest
  | .allBelow :: rest => .allBelow :: rest
  | _ :: rest => p :: rest
  | [] => [p]

/-- Reads the pieces for two stars from behind them; `s` is the text behind. -/
def readStars (r : Reading) (s : List Char) : List Piece × List Char :=
  let plain := (.anyBytes :: .anyBytes :: r.pieces, s)
  let nested := !r.around.isEmpty
  if r.pieces.isEmpty then
    match s with
    | [] => ([.foldersBefore], [])
    | c :: rest => if c == '/' then ([.foldersBefore], rest) else plain
  else if r.before != some '/' && !(nested && (r.before == some ',' || r.before == some '\x7b')) then
    plain
  else match s with
    | [] => (replaceLast r.pieces .allBelow, [])
    | c :: rest =>
      if nested && (c == ',' || c == '\x7d') then (replaceLast r.pieces .allBelow, s)
      else if c == '/' then (replaceLast r.pieces .foldersBetween, rest)
      else plain

/-- Closes the innermost group: its branches that are not empty become one piece. -/
def closeGroup (r : Reading) : Option (List Piece × List (List (List Piece)) × List (List Piece)) :=
  match r.groups, r.around with
  | branches :: outer, around :: others =>
    let patterns := ((r.pieces :: branches).reverse.map List.reverse).filter (!·.isEmpty)
    let p : List Piece := if patterns.isEmpty then [] else [.alternatives patterns]
    some (p ++ around, outer, others)
  | _, _ => none

/-- Reads a pattern on.  Every round takes a character. -/
def readFrom : Nat → Reading → List Char → Option (List Piece)
  | 0, _, _ => none
  | _ + 1, r, [] => if r.around.isEmpty then some r.pieces.reverse else none
  | fuel + 1, r, c :: rest =>
    let add (p : Piece) (rest : List Char) := readFrom fuel { r with pieces := p :: r.pieces, before := some c } rest
    if c == '?' then add .anyByte rest
    else if c == '*' then
      match rest with
      | '*' :: rest' =>
        let (pieces, rest'') := readStars r rest'
        let last := if rest''.length < rest'.length then some '/' else some '*'
        readFrom fuel { r with pieces := pieces, before := last } rest''
      | _ => add .anyBytes rest
    else if c == '[' then
      match readOneOf rest with
      | some (p, rest') =>
        readFrom fuel { r with pieces := p :: r.pieces, before := some ']' } rest'
      | none => none
    else if c == '\x7b' then
      readFrom fuel ⟨[] :: r.groups, [], r.pieces :: r.around, some c⟩ rest
    else if c == '\x7d' then
      match closeGroup r with
      | some (pieces, outer, others) => readFrom fuel ⟨outer, pieces, others, some c⟩ rest
      | none => none
    else if c == ',' then
      match r.groups with
      | branches :: outer =>
        readFrom fuel { r with groups := (r.pieces :: branches) :: outer, pieces := [], before := some c } rest
      | [] => add (.char c) rest
    else if c == '\\' then
      match rest with
      | [] => none
      | d :: rest' =>
        readFrom fuel { r with pieces := .char d :: r.pieces, before := some d } rest'
    else add (.char c) rest

/-- Reads a pattern, if it is one. -/
def ofText? (crossing : Bool) (text : String) : Option Glob :=
  let s := text.toList
  (readFrom (s.length + 1) ⟨[], [], [], none⟩ s).map (fun pieces => ⟨pieces, crossing⟩)

end Glob

end Consolidation.Files
