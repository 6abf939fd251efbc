/-
# `Files.Entry` — trees of files and folders

An entry is a file or a folder; the entries of a folder are kept in the order of their names.  Every
operation takes the entry in which a path starts, and either gives the new one or says what is in
the way.
-/
import Consolidation.Text.Lines

namespace Consolidation.Files

/-- The names that lead from a folder down to an entry. -/
abbrev Path := List String

/-- What can be in the way of reading or writing. -/
inductive FileFault where
  | notFound
  | alreadyExists
  | notFolder
  | isFolder
deriving DecidableEq, Repr

namespace FileFault

def message : FileFault → String
  | notFound => "No such file or directory (os error 2)"
  | alreadyExists => "File exists (os error 17)"
  | notFolder => "Not a directory (os error 20)"
  | isFolder => "Is a directory (os error 21)"

end FileFault

inductive Entry where
  | file (bytes : List UInt8)
  | folder (entries : List (String × Entry))

namespace Entry

/-- A folder without entries. -/
def empty : Entry := folder []

instance : Inhabited Entry := ⟨empty⟩

def isFolder : Entry → Bool
  | folder _ => true
  | file _ => false

/-- The entries with their names; a file has none. -/
def entries : Entry → List (String × Entry)
  | folder entries => entries
  | file _ => []

/-- Puts an entry under a name into its place in the order of names. -/
def insertNamed (name : String) (e : Entry) : List (String × Entry) → List (String × Entry)
  | [] => [(name, e)]
  | (n, e') :: rest =>
    if name = n then (name, e) :: rest
    else if name < n then (name, e) :: (n, e') :: rest
    else (n, e') :: insertNamed name e rest

/-- The entry at a path. -/
def find : Path → Entry → Except FileFault Entry
  | [], e => .ok e
  | _ :: _, file _ => .error .notFolder
  | name :: rest, folder entries =>
    match entries.lookup name with
    | some e => find rest e
    | none => .error .notFound

/-- Changes the entry at a path by `change`. -/
def edit (change : Entry → Except FileFault Entry) : Path → Entry → Except FileFault Entry
  | [], e => change e
  | _ :: _, file _ => .error .notFolder
  | name :: rest, folder entries =>
    match entries.lookup name with
    | some e => (edit change rest e).map (fun e' => folder (insertNamed name e' entries))
    | none => .error .notFound

/-- The bytes of the file at a path. -/
def read (path : Path) (root : Entry) : Except FileFault (List UInt8) :=
  match root.find path with
  | .ok (file bytes) => .ok bytes
  | .ok (folder _) => .error .isFolder
  | .error fault => .error fault

/-- Is there a folder at a path? -/
def hasFolder (path : Path) (root : Entry) : Bool :=
  match root.find path with
  | .ok e => e.isFolder
  | .error _ => false

/-- Is there a file at a path? -/
def hasFile (path : Path) (root : Entry) : Bool :=
  match root.find path with
  | .ok e => !e.isFolder
  | .error _ => false

/-- Is there anything at a path? -/
def has (path : Path) (root : Entry) : Bool := root.hasFolder path || root.hasFile path

/-- Writes a file into an existing folder, over the file of that name if there is one. -/
def write (path : Path) (bytes : List UInt8) (root : Entry) : Except FileFault Entry :=
  match path.getLast? with
  | none => .error .isFolder
  | some name =>
    root.edit (fun
      | file _ => .error .notFolder
      | folder entries =>
        match entries.lookup name with
        | some (folder _) => .error .isFolder
        | _ => .ok (folder (insertNamed name (file bytes) entries))) path.dropLast

/-- Makes the folders on a path that are missing. -/
def makeFolders : Path → Entry → Except FileFault Entry
  | [], file _ => .error .alreadyExists
  | [], folder entries => .ok (folder entries)
  | _ :: _, file _ => .error .notFolder
  | name :: rest, folder entries =>
    (makeFolders rest ((entries.lookup name).getD empty)).map
      (fun e => folder (insertNamed name e entries))

/-- Takes away what is at a path. -/
def remove (path : Path) (root : Entry) : Except FileFault Entry :=
  match path.getLast? with
  | none => .ok empty
  | some name =>
    root.edit (fun
      | file _ => .error .notFolder
      | folder entries =>
        if (entries.lookup name).isSome then .ok (folder (entries.filter (·.1 != name)))
        else .error .notFound) path.dropLast

/-- Moves a file over another place. -/
def rename (source target : Path) (root : Entry) : Except FileFault Entry := do
  let bytes ← root.read source
  let moved ← root.write target bytes
  moved.remove source

/-- Writes a file with the folders above it. -/
def place (path : Path) (bytes : List UInt8) (root : Entry) : Except FileFault Entry := do
  let root ← root.makeFolders path.dropLast
  root.write path bytes

/-- The name of the temporary file beside a file: its last extension gives way to `json.tmp`. -/
def temporaryName (name : String) : String :=
  let stem := match Text.splitLast? '.' name.toList with
    | some (before, _) => if before.isEmpty then name else String.ofList before
    | none => name
  stem ++ ".json.tmp"

/-- Writes a file with the folders above it: first under a temporary name, then moved to its own.  What was
done before a fault stays. -/
def save (path : Path) (bytes : List UInt8) (root : Entry) : Entry × Option FileFault :=
  match path.getLast? with
  | none => (root, some .isFolder)
  | some name =>
    let temporary := path.dropLast ++ [temporaryName name]
    match root.makeFolders path.dropLast with
    | .error fault => (root, some fault)
    | .ok root =>
      match root.write temporary bytes with
      | .error fault => (root, some fault)
      | .ok root =>
        match root.rename temporary path with
        | .error fault => (root, some fault)
        | .ok root => (root, none)

mutual

/-- The files below an entry, with their paths behind `above`, folder by folder. -/
def filesBelow (above : Path) : Entry → List (Path × List UInt8)
  | file bytes => [(above, bytes)]
  | folder entries => filesAmong above entries

/-- The files among some entries. -/
def filesAmong (above : Path) : List (String × Entry) → List (Path × List UInt8)
  | [] => []
  | (name, e) :: rest => filesBelow (above ++ [name]) e ++ filesAmong above rest

end

/-- All files below an entry. -/
def files (e : Entry) : List (Path × List UInt8) := filesBelow [] e

end Entry

/-! ## Paths as text -/

/-- The text of a path. -/
def Path.toText (path : Path) : String := String.intercalate "/" path

/-- Goes on from a path by the names of another; two dots go back, and nothing lies above the top. -/
def Path.follow : Path → List String → Path
  | path, [] => path
  | path, name :: rest =>
    if name = "" || name = "." then follow path rest
    else if name = ".." then follow path.dropLast rest
    else follow (path ++ [name]) rest

/-- The names between the slashes of a text. -/
def namesOf (text : String) : List String := (Text.splitOn '/' text.toList).map String.ofList

/-- Is a text an absolute path? -/
def isAbsolute (text : String) : Bool := text.toList.head? == some '/'

/-- The path that a text means in a folder. -/
def Path.ofText (folder : Path) (text : String) : Path :=
  Path.follow (if isAbsolute text then [] else folder) (namesOf text)

/-- A path text behind another; an absolute one stands for itself. -/
def joinText (base text : String) : String :=
  if isAbsolute text || base.isEmpty then text
  else if base.toList.getLast? == some '/' then base ++ text
  else base ++ "/" ++ text

end Consolidation.Files
