/-
# `Files.Ignore` — files that list what to leave out

A line of such a file is a pattern for paths below its folder.  A pattern without a slash in it counts at any
depth, one that ends in a slash for folders alone, and one behind an exclamation mark takes back what
a line before it said: the last line that matches decides.
-/
import Consolidation.Files.Glob
import Consolidation.Files.Entry

namespace Consolidation.Files

open Text

/-- What is said of an entry. -/
inductive Verdict where
  | leftOut
  | keptIn
deriving DecidableEq, Repr

structure IgnoreRule where
  glob : Glob
  verdict : Verdict
  onlyFolders : Bool

namespace IgnoreRule

/-- The text of a pattern that matches at any depth if `anywhere`, and not the folder itself where it
is about all below one. -/
def patternText (anywhere : Bool) (s : List Char) : List Char :=
  let s :=
    if anywhere && !startsWith ['*', '*', '/'] s && s != ['*', '*'] then '*' :: '*' :: '/' :: s else s
  if (stripEnd? ['/', '*', '*'] s).isSome then s ++ ['/', '*'] else s

/-- The rule of a line without its marks; `anchored` says that a slash stood in front. -/
def ofBody? (verdict : Verdict) (anchored : Bool) (s : List Char) : Option IgnoreRule :=
  let onlyFolders := s.getLast? == some '/'
  let s :=
    if onlyFolders then
      let s := s.dropLast
      if s.getLast? == some '\\' then s.dropLast else s
    else s
  let text := patternText (!anchored && !s.contains '/') s
  (Glob.ofText? false (String.ofList text)).map (fun glob => ⟨glob, verdict, onlyFolders⟩)

/-- The rule of a line, if it has one. -/
def ofLine? (line : List Char) : Option IgnoreRule :=
  if line.head? == some '#' then none
  else
    let line := if (stripEnd? ['\\', ' '] line).isSome then line else trimEnd line
    match line with
    | [] => none
    | '\\' :: '!' :: rest => ofBody? .leftOut false ('!' :: rest)
    | '\\' :: '#' :: rest => ofBody? .leftOut false ('#' :: rest)
    | _ =>
      let (verdict, line) : Verdict × List Char :=
        match line with
        | '!' :: rest => (.keptIn, rest)
        | _ => (.leftOut, line)
      match line with
      | '/' :: rest => ofBody? verdict true rest
      | _ => ofBody? verdict false line

/-- Does a rule speak of an entry at a path below its folder? -/
def applies (r : IgnoreRule) (path : Path) (isFolder : Bool) : Bool :=
  (isFolder || !r.onlyFolders) && r.glob.isMatch path.toText

end IgnoreRule

/-- The rules of a file, the last line first. -/
abbrev IgnoreFile := List IgnoreRule

namespace IgnoreFile

/-- The lines of a file as bytes, without their ends. -/
def byteLines (bytes : List UInt8) : List (List UInt8) :=
  let step (b : UInt8) (lines : List (List UInt8)) : List (List UInt8) :=
    if b == 10 then [] :: lines
    else match lines with
      | line :: rest => (b :: line) :: rest
      | [] => [[b]]
  (bytes.foldr step [[]]).map (fun line => if line.getLast? == some 13 then line.dropLast else line)

/-- The lines of a file up to the first that is not text. -/
def textLines (bytes : List UInt8) : List (List Char) :=
  ((byteLines bytes).map Utf8.decode?).takeWhile Option.isSome |>.filterMap id

/-- Takes the mark of the byte order off the first line. -/
def withoutMark : List (List Char) → List (List Char)
  | first :: rest => first.dropWhile (· == '\ufeff') :: rest
  | [] => []

def ofBytes (bytes : List UInt8) : IgnoreFile :=
  ((withoutMark (textLines bytes)).filterMap IgnoreRule.ofLine?).reverse

/-- What a file says of an entry at a path below its folder. -/
def verdict? (rules : IgnoreFile) (path : Path) (isFolder : Bool) : Option Verdict :=
  (rules.find? (fun r => r.applies path isFolder)).map (·.verdict)

/-- The rules of the file at a path, none if there is no such file. -/
def ofEntry (path : Path) (folder : Entry) : IgnoreFile :=
  match folder.read path with
  | .ok bytes => ofBytes bytes
  | .error _ => []

end IgnoreFile

/-- The ignore files of one folder, those that count first in front. -/
structure FolderRules where
  /-- Where the folder is. -/
  path : Path
  own : IgnoreFile
  tracked : IgnoreFile
  untracked : IgnoreFile

namespace FolderRules

def ofFolder (path : Path) (folder : Entry) : FolderRules :=
  ⟨path, .ofEntry [".ignore"] folder, .ofEntry [".gitignore"] folder,
    .ofEntry [".git", "info", "exclude"] folder⟩

/-- What one kind of file says of an entry, the innermost folder first. -/
def verdictOf (kind : FolderRules → IgnoreFile) (folders : List FolderRules) (path : Path)
    (isFolder : Bool) : Option Verdict :=
  folders.findSome? (fun f => (kind f).verdict? (path.drop f.path.length) isFolder)

/-- What the folders around an entry, the innermost first, say of it. -/
def verdict? (folders : List FolderRules) (path : Path) (isFolder : Bool) : Option Verdict :=
  (verdictOf own folders path isFolder).or
    ((verdictOf tracked folders path isFolder).or (verdictOf untracked folders path isFolder))

end FolderRules

end Consolidation.Files
