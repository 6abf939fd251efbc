/-
# `Extraction` — the function records of one file

A file's functions come from its syntax tree.  Where the source has none, that is recorded as an error and
the functions are found line by line instead.  A file that cannot be read, or is not text, has
no functions at all, and its extraction has failed.

A function is identified by the path of its file and its name, with its line behind them where
the file has several functions of that name.  Lines and complexities are numbers of four bytes.
-/
import Consolidation.FunctionRecord
import Consolidation.ParseError
import Consolidation.Keywords
import Consolidation.Digest.Sha256
import Consolidation.Python.SourceFault
import Consolidation.Python.LineScan

namespace Consolidation

open Python

/-- What was found in one file. -/
structure FileExtraction where
  functions : List FunctionRecord
  errors : List ParseError
  /-- The digest of the file, if it could be read. -/
  contentHash : Option String
  failed : Bool
deriving DecidableEq, Repr

namespace Extraction

/-- Digits of the digest of the keywords. -/
def semanticHashDigits : Nat := 16

/-- The identifier of a function; `repeated` says that the file has several of its name. -/
def functionId (filePath name : String) (line : Nat) (repeated : Bool) : String :=
  if repeated then filePath ++ "::" ++ name ++ "@" ++ toString line else filePath ++ "::" ++ name

/-- Is a name given to more than one definition? -/
def isRepeated (definitions : List Definition) (name : List Char) : Bool :=
  1 < (definitions.filter (fun d => d.name == name)).length

/-- The record of one of the definitions of a file. -/
def recordOf (policy : KeywordPolicy) (path : ExtractionPath) (filePath contentHash : String)
    (definitions : List Definition) (d : Definition) : FunctionRecord :=
  let name := String.ofList d.name
  let line := min d.firstLine maxWord
  let keywords := policy.extract d.source
  {
    id := functionId filePath name line (isRepeated definitions d.name)
    name := name
    filePath := filePath
    args := d.args.map String.ofList
    lineNumber := line
    endLine := min d.lastLine maxWord
    docstring := d.docstring.map String.ofList
    complexity := d.complexity % (maxWord + 1)
    contentHash := contentHash
    contextKeywords := keywords
    semanticHash := if keywords.isEmpty then none else some (Digest.fingerprint keywords semanticHashDigits)
    extraction := path }

/-- The records of the definitions of a file. -/
def recordsOf (policy : KeywordPolicy) (path : ExtractionPath) (filePath contentHash : String)
    (definitions : List Definition) : List FunctionRecord :=
  definitions.map (recordOf policy path filePath contentHash definitions)

/-- The extraction of a file that cannot be analysed. -/
def failure (filePath message : String) (contentHash : Option String) : FileExtraction :=
  ⟨[], [⟨filePath, message, none⟩], contentHash, true⟩

/-- The functions that the line scanner finds in a text. -/
def scanned (policy : KeywordPolicy) (filePath contentHash : String) (source : List Char) :
    List FunctionRecord :=
  recordsOf policy .fallback filePath contentHash (scanLines source)

/-- The extraction of a file with these bytes. -/
def ofBytes (policy : KeywordPolicy) (filePath : String) (bytes : List UInt8) : FileExtraction :=
  let contentHash := Digest.sha256 bytes
  match Text.Utf8.decode? bytes with
  | none => failure filePath "file is not valid UTF-8" (some contentHash)
  | some source =>
    match treeOf source with
    | .ok tree =>
      ⟨recordsOf policy .formal filePath contentHash (tree.definitions source), [],
        some contentHash, false⟩
    | .error fault =>
      ⟨scanned policy filePath contentHash source,
        [⟨filePath, fault.message, some (min fault.line maxWord)⟩], some contentHash, false⟩

/-- The extraction of a file with these bytes by the line scanner alone; bytes that are no text
become replacement characters. -/
def ofBytesByLine (policy : KeywordPolicy) (filePath : String) (bytes : List UInt8) : FileExtraction :=
  let contentHash := Digest.sha256 bytes
  ⟨scanned policy filePath contentHash (Text.Utf8.decodeLossy bytes), [], some contentHash, false⟩

/-- The extraction of a file that was read, or could not be read for some reason. -/
def ofFile (policy : KeywordPolicy) (filePath : String) : Except String (List UInt8) → FileExtraction
  | .ok bytes => ofBytes policy filePath bytes
  | .error reason => failure filePath ("IO error: " ++ reason) none

end Extraction

end Consolidation
