/-
# `Files.Scan` — the source files of a project

A scan walks a project folder by folder, in the order of names.  It passes over hidden entries and those that
ignore files leave out, and over excluded names wherever they stand, and gives the files whose
name matches one of the include patterns.  With a limit it stops at so many files.
-/
import Consolidation.Files.Ignore

namespace Consolidation.Files

/-- What to look for. -/
structure ScanOptions where
  patterns : List Glob
  excluded : List String
  limit : Option Nat

namespace ScanOptions

/-- The options with these patterns, blank ones left out; none if one of them is no pattern. -/
def ofPatterns? (patterns excluded : List String) (limit : Option Nat) : Option ScanOptions :=
  let texts := (patterns.map (fun p => String.ofList (Text.trim p.toList))).filter (!·.isEmpty)
  (texts.mapM (Glob.ofText? true)).map (fun globs => ⟨globs, excluded, limit⟩)

/-- Is a file of this name looked for? -/
def includes (o : ScanOptions) (name : String) : Bool := o.patterns.any (·.isMatch name)

/-- Is an entry visited, whatever folder it is in? -/
def visits (o : ScanOptions) (rules : List FolderRules) (path : Path) (name : String)
    (isFolder : Bool) : Bool :=
  !o.excluded.contains name &&
    match FolderRules.verdict? rules path isFolder with
    | some .leftOut => false
    | some .keptIn => true
    | none => name.toList.head? != some '.'

end ScanOptions

mutual

/-- The files found in an entry at a path, in the order of the walk. -/
def walk (o : ScanOptions) (rules : List FolderRules) (path : Path) (name : String) :
    Entry → List Path
  | .file _ => if o.includes name then [path] else []
  | .folder entries =>
    walkAll o (FolderRules.ofFolder path (.folder entries) :: rules) path entries

/-- The files found among the entries of a folder at a path. -/
def walkAll (o : ScanOptions) (rules : List FolderRules) (above : Path) :
    List (String × Entry) → List Path
  | [] => []
  | (name, e) :: rest =>
    let path := above ++ [name]
    (if o.visits rules path name e.isFolder then walk o rules path name e else []) ++
      walkAll o rules above rest

end

/-- The rules of the folders on the way to a path, the innermost first. -/
def rulesAbove (above : Path) : Path → Entry → List FolderRules
  | [], _ => []
  | name :: rest, folder =>
    match folder.entries.lookup name with
    | some e => rulesAbove (above ++ [name]) rest e ++ [.ofFolder above folder]
    | none => []

/-- Does a path stand before another, name by name? -/
def Path.before : Path → Path → Bool
  | [], _ => true
  | _ :: _, [] => false
  | a :: as, b :: bs => if a = b then before as bs else decide (a < b)

/-- The files of the project at a path of a tree, in order. -/
def scan (o : ScanOptions) (project : Path) (tree : Entry) : List Path :=
  match tree.find project with
  | .error _ => []
  | .ok e =>
    let found := walk o (rulesAbove [] project tree) project (project.getLastD "") e
    (match o.limit with
      | some limit => found.take limit
      | none => found).mergeSort Path.before

/-- The text by which a file of a project goes: its path below the project, backslashes as slashes. -/
def relativeText (project path : Path) : String :=
  String.ofList ((Path.toText (path.drop project.length)).toList.map
    (fun c => if c == '\\' then '/' else c))

end Consolidation.Files
