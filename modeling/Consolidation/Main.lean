/-
# `Main` — the program over the files of the machine

The files of the project are read into a tree, the program works on the tree, and what it has changed is written
back.  No servers and no other programs are within reach from here, so that requests fail and
code stays as it is.
-/
import Consolidation.CommandLine.Basic

namespace Consolidation.Main

open Files

/-- What lies at a place of the machine; links and what cannot be read are left out. -/
partial def readEntry (place : IO.FS.DirEntry) : IO (Option Entry) := do
  try
    match (← place.path.symlinkMetadata).type with
    | .file => return some (.file (← IO.FS.readBinFile place.path).toList)
    | .dir =>
      let mut entries := []
      for child in ← place.path.readDir do
        if let some e ← readEntry child then
          entries := Entry.insertNamed child.fileName e entries
      return some (.folder entries)
    | _ => return none
  catch _ => return none

/-- Puts what lies at a path of the machine into a tree. -/
def addFrom (tree : Entry) (path : Path) : IO Entry := do
  match ← readEntry ⟨absoluteText path, "."⟩, path.getLast? with
  | some (.file bytes), some _ => return (tree.place path bytes).toOption.getD tree
  | some e, some name =>
    let change : Entry → Except FileFault Entry
      | .folder entries => .ok (.folder (Entry.insertNamed name e entries))
      | .file _ => .error .notFolder
    return ((tree.makeFolders path.dropLast).bind (Entry.edit change path.dropLast)).toOption.getD tree
  | some e, none => return e
  | none, _ => return tree

/-- The part of the machine that arguments are about. -/
def readFor (folder : Path) (args : List String) : IO Entry := do
  match Options.ofArgs args with
  | .error _ => return .empty
  | .ok o =>
    let tree ← addFrom .empty (.ofText folder o.root)
    match o.settingsPath with
    | some path => addFrom tree (.ofText folder path)
    | none => return tree

/-- Writes what is new or changed in a tree, and takes away what is gone. -/
def writeBack (before after : Entry) : IO Unit := do
  for (path, bytes) in after.files do
    if (before.read path).toOption != some bytes then
      IO.FS.createDirAll (absoluteText path.dropLast)
      IO.FS.writeBinFile (absoluteText path) ⟨bytes.toArray⟩
  for (path, _) in before.files do
    if !after.hasFile path then IO.FS.removeFile (absoluteText path)

/-- The variables that the program looks at. -/
def readEnvironment : IO Environment := do
  let mut values : List (String × String) := []
  for key in Environment.names do
    if let some value ← IO.getEnv key then values := (key, value) :: values
  let found := values
  return fun key => found.lookup key

/-- Nothing outside can be reached. -/
def alone : Surroundings := ⟨fun _ => .notConnected, fun r => .notStarted (r.program ++ " is out of reach")⟩

/-- Runs the program. -/
def run (args : List String) : IO ProgramOutcome := do
  let begun ← IO.monoMsNow
  let folder := Path.follow [] (namesOf (← IO.currentDir).toString)
  let start : ProgramStart := ⟨← readEnvironment, alone, folder, ← readFor folder args⟩
  match start.consolidate args with
  | .error fault => return start.refuse fault
  | .ok p =>
    let outcome := start.finish p ((← IO.monoMsNow) - begun)
    writeBack start.files outcome.files
    return outcome

end Consolidation.Main

def main (args : List String) : IO UInt32 := do
  let outcome ← Consolidation.Main.run args
  IO.print outcome.output
  if let some fault := outcome.fault then IO.eprintln ("Error: " ++ fault.message)
  return outcome.exitCode.toUInt32
