/-
# `Proofs.Extraction` — what the extraction of a file gives

Everything in the extraction of a file is about that file: its errors name the file, and the identifiers of its functions
start with its path (`ofFile_errors`, `ofFile_ids`).

Two functions of one file have different identifiers if the definitions found in it are `Apart`: names hold no at sign,
and definitions of one name are recorded under different lines.  Scanned definitions are (`apart_scanLines`), as they
start on different lines (`discernible_scanLines`).  Here this is a hypothesis for definitions in syntax trees, together
with a bound on the lines of a text (`Identifiable`); the bound is enough (`identifiable_iff_lines`, of
`Proofs.Identifiers`).

| part of an identifier | what tells it from the rest |
| :-- | :-- |
| the path | all before the last two colons (`filePath_of_functionId`) |
| the name | all between these and an at sign, or the end (`name_of_functionId`) |
| the line | what stands behind the at sign, where the name is repeated in its file |

An extraction fails only where a file cannot be read or is no text; what the grammar does not accept is left to the line
scanner, and is no failure, though it comes with an error.
-/
import Mathlib.Data.List.Nodup
import Mathlib.Data.List.Pairwise
import Consolidation.Extraction
import Consolidation.Proofs.ParseError
import Consolidation.Proofs.Python.LineScan

namespace Consolidation

open Python

/-- Definitions that can be told apart by their names and recorded lines. -/
structure Apart (definitions : List Definition) : Prop where
  name_plain : ∀ d ∈ definitions, '@' ∉ d.name
  line_ne : definitions.Pairwise
    (fun a b => a.name = b.name → min a.firstLine maxWord ≠ min b.firstLine maxWord)

/-- Definitions of one name start on different lines. -/
def SeparateLines (definitions : List Definition) : Prop :=
  definitions.Pairwise (fun a b => a.name = b.name → a.firstLine ≠ b.firstLine)

/-- Definitions on separate lines whose names hold no sign of those that identifiers are put together with. -/
structure Discernible (definitions : List Definition) : Prop where
  name_plain : ∀ d ∈ definitions, ':' ∉ d.name ∧ '@' ∉ d.name
  line_ne : SeparateLines definitions

theorem discernible_nil : Discernible [] where
  name_plain := List.forall_mem_nil _
  line_ne := .nil

theorem discernible_scanLines (source : List Char) : Discernible (scanLines source) where
  name_plain := by
    intro d hd
    have hword := scanLines_name source d hd
    exact ⟨fun hc => absurd (hword ':' hc) (by decide +kernel), fun hc => absurd (hword '@' hc) (by decide +kernel)⟩
  line_ne := by
    refine List.Pairwise.imp ?_ (scanLines_pairwise source)
    exact fun hlt _ => Nat.ne_of_lt hlt

/-- Definitions that can be told apart by their lines can be told apart by their recorded lines, if they end in time. -/
theorem Discernible.apart {definitions : List Definition} (h : Discernible definitions)
    (hlines : ∀ d ∈ definitions, d.firstLine ≤ maxWord) : Apart definitions where
  name_plain := fun d hd => (h.name_plain d hd).2
  line_ne := by
    refine List.Pairwise.imp_of_mem ?_ h.line_ne
    intro a b ha hb hne hname
    rw [Nat.min_eq_left (hlines a ha), Nat.min_eq_left (hlines b hb)]
    exact hne hname

/-- Scanned definitions can be told apart. -/
theorem apart_scanLines {source : List Char} (h : (Text.lines source).length ≤ maxWord) : Apart (scanLines source) :=
  (discernible_scanLines source).apart fun d hd => (scanLines_le source d hd).trans h

namespace Extraction

/-! ## Identifiers -/

theorem functionId_toList (filePath name : String) (line : Nat) (repeated : Bool) :
    (functionId filePath name line repeated).toList =
      filePath.toList ++ ':' :: ':' ::
        (name.toList ++ if repeated then '@' :: Nat.toDigits 10 line else []) := by
  cases repeated <;> simp [functionId]

theorem filePath_of_functionId {path path' name name' : String} {line line' : Nat}
    {repeated repeated' : Bool} (hp : ':' ∉ path.toList) (hp' : ':' ∉ path'.toList)
    (h : functionId path name line repeated = functionId path' name' line' repeated') :
    path = path' := by
  have hlist := congrArg String.toList h
  rw [functionId_toList, functionId_toList] at hlist
  exact String.toList_inj.1 (Text.append_cons_inj hp hp' hlist).1

theorem name_of_functionId {path name name' : String} {line line' : Nat} {repeated repeated' : Bool}
    (hn : '@' ∉ name.toList) (hn' : '@' ∉ name'.toList)
    (h : functionId path name line repeated = functionId path name' line' repeated') :
    name = name' ∧ (repeated = true → repeated' = true → line = line') := by
  have hlist := congrArg String.toList h
  rw [functionId_toList, functionId_toList] at hlist
  have htail := List.append_cancel_left hlist
  simp only [List.cons.injEq, true_and] at htail
  cases repeated with
  | true =>
    cases repeated' with
    | true =>
      simp only [if_true] at htail
      obtain ⟨hname, hdigits⟩ := Text.append_cons_inj hn hn' htail
      exact ⟨String.toList_inj.1 hname, fun _ _ => toDigits_ten_inj.1 hdigits⟩
    | false =>
      simp only [if_true, Bool.false_eq_true, if_false, List.append_nil] at htail
      exact absurd (htail ▸ List.mem_append_right _ List.mem_cons_self) hn'
  | false =>
    cases repeated' with
    | true =>
      simp only [if_true, Bool.false_eq_true, if_false, List.append_nil] at htail
      exact absurd (htail.symm ▸ List.mem_append_right _ List.mem_cons_self) hn
    | false =>
      simp only [Bool.false_eq_true, if_false, List.append_nil] at htail
      exact ⟨String.toList_inj.1 htail, fun hr => absurd hr (by decide)⟩

/-- What a function identifier is made of can be told from it, whatever the path, if the names hold no colon and no
at sign: the name starts behind the last colon. -/
theorem functionId_inj {path path' name name' : String} {line line' : Nat} {repeated repeated' : Bool}
    (hcolon : ':' ∉ name.toList) (hcolon' : ':' ∉ name'.toList) (hat : '@' ∉ name.toList) (hat' : '@' ∉ name'.toList)
    (h : functionId path name line repeated = functionId path' name' line' repeated') :
    path = path' ∧ name = name' ∧ (repeated = true → repeated' = true → line = line') := by
  have hplain {name : String} (line : Nat) (repeated : Bool) (hcolon : ':' ∉ name.toList) :
      ':' ∉ name.toList ++ if repeated then '@' :: Nat.toDigits 10 line else [] := by
    rw [List.mem_append, not_or]
    refine ⟨hcolon, ?_⟩
    split
    · exact List.not_mem_cons_of_ne_of_not_mem (by decide) (not_mem_toDigits_ten (by decide) line)
    · exact List.not_mem_nil
  have hlist := congrArg String.toList h
  rw [functionId_toList, functionId_toList, List.append_cons path.toList, List.append_cons path'.toList] at hlist
  obtain ⟨hpath, -⟩ := Text.append_cons_inj_last (hplain line repeated hcolon) (hplain line' repeated' hcolon') hlist
  obtain rfl : path = path' := String.toList_inj.1 (List.append_cancel_right hpath)
  exact ⟨rfl, name_of_functionId hat hat' h⟩

theorem isRepeated_of_sublist {definitions : List Definition} {a b : Definition}
    (h : [a, b].Sublist definitions) (hname : a.name = b.name) :
    isRepeated definitions a.name = true := by
  have hfilter := (h.filter (fun d => d.name == a.name)).length_le
  have htwo : ([a, b].filter (fun d => d.name == a.name)).length = 2 := by simp [hname]
  rw [htwo] at hfilter
  exact decide_eq_true hfilter

theorem id_recordOf_eq_iff {definitions : List Definition} {a b : Definition} (hab : [a, b].Sublist definitions)
    (ha : '@' ∉ a.name) (hb : '@' ∉ b.name) (policy : KeywordPolicy) (path : ExtractionPath)
    (filePath contentHash : String) :
    (recordOf policy path filePath contentHash definitions a).id =
        (recordOf policy path filePath contentHash definitions b).id ↔
      a.name = b.name ∧ min a.firstLine maxWord = min b.firstLine maxWord := by
  constructor
  · intro hid
    obtain ⟨hname, hline⟩ := name_of_functionId (by simpa using ha) (by simpa using hb) hid
    have hname : a.name = b.name := String.ofList_injective hname
    have hrep := isRepeated_of_sublist hab hname
    exact ⟨hname, hline hrep (hname ▸ hrep)⟩
  · rintro ⟨hname, hline⟩
    simp only [recordOf, hname, hline]

theorem nodup_ids_recordsOf {definitions : List Definition} (h : Apart definitions)
    (policy : KeywordPolicy) (path : ExtractionPath) (filePath contentHash : String) :
    ((recordsOf policy path filePath contentHash definitions).map (·.id)).Nodup := by
  rw [recordsOf, List.map_map, List.Nodup, List.pairwise_map, List.pairwise_iff_forall_sublist]
  intro a b hab hid
  have ha := h.name_plain a (hab.subset (by simp))
  have hb := h.name_plain b (hab.subset (by simp))
  obtain ⟨hname, hline⟩ := (id_recordOf_eq_iff hab ha hb policy path filePath contentHash).1 hid
  exact List.pairwise_iff_forall_sublist.1 h.line_ne hab hname hline

/-! ## Files -/

/-- A file whose functions get different identifiers. -/
def Identifiable (bytes : List UInt8) : Prop :=
  ∀ source, Text.Utf8.decode? bytes = some source →
    (Text.lines source).length ≤ maxWord ∧
      ∀ tree, treeOf source = .ok tree → Apart (tree.definitions source)

variable {policy : KeywordPolicy} {filePath : String} {content : Except String (List UInt8)}

theorem ofFile_functions (policy : KeywordPolicy) (filePath : String)
    (content : Except String (List UInt8)) :
    ∃ path contentHash definitions,
      (ofFile policy filePath content).functions =
        recordsOf policy path filePath contentHash definitions ∧
      ((∀ bytes, content = .ok bytes → Identifiable bytes) → Apart definitions) := by
  have hnone : Apart [] := ⟨by simp, List.Pairwise.nil⟩
  cases content with
  | error reason => exact ⟨.formal, "", [], rfl, fun _ => hnone⟩
  | ok bytes =>
    simp only [ofFile, ofBytes]
    split
    · exact ⟨.formal, "", [], rfl, fun _ => hnone⟩
    · next source hsource =>
      split
      · next tree htree =>
        exact ⟨_, _, _, rfl, fun h => (h bytes rfl source hsource).2 tree htree⟩
      · exact ⟨_, _, _, rfl, fun h => apart_scanLines (h bytes rfl source hsource).1⟩

theorem nodup_ids_ofFile (h : ∀ bytes, content = .ok bytes → Identifiable bytes) :
    ((ofFile policy filePath content).functions.map (·.id)).Nodup := by
  obtain ⟨path, contentHash, definitions, heq, hapart⟩ := ofFile_functions policy filePath content
  rw [heq]
  exact nodup_ids_recordsOf (hapart h) policy path filePath contentHash

/-- The identifiers of a file's functions start with its path. -/
theorem ofFile_ids {f : FunctionRecord} (hf : f ∈ (ofFile policy filePath content).functions) :
    ∃ name line repeated, f.id = functionId filePath name line repeated := by
  obtain ⟨path, contentHash, definitions, heq, -⟩ := ofFile_functions policy filePath content
  rw [heq, recordsOf, List.mem_map] at hf
  obtain ⟨d, -, rfl⟩ := hf
  exact ⟨_, _, _, rfl⟩

theorem ofFile_filePath {f : FunctionRecord} (hf : f ∈ (ofFile policy filePath content).functions) :
    f.filePath = filePath := by
  obtain ⟨path, contentHash, definitions, heq, -⟩ := ofFile_functions policy filePath content
  rw [heq, recordsOf, List.mem_map] at hf
  obtain ⟨d, -, rfl⟩ := hf
  rfl

theorem ofFile_numbers {f : FunctionRecord} (hf : f ∈ (ofFile policy filePath content).functions) :
    f.lineNumber ≤ maxWord ∧ f.endLine ≤ maxWord ∧ f.complexity ≤ maxWord := by
  obtain ⟨path, contentHash, definitions, heq, -⟩ := ofFile_functions policy filePath content
  rw [heq, recordsOf, List.mem_map] at hf
  obtain ⟨d, -, rfl⟩ := hf
  refine ⟨Nat.min_le_right _ _, Nat.min_le_right _ _, ?_⟩
  exact Nat.le_of_lt_succ (Nat.mod_lt _ (Nat.succ_pos _))

/-- The errors of a file name the file, and a line that can be written. -/
theorem ofFile_errors {e : ParseError} (he : e ∈ (ofFile policy filePath content).errors) :
    e.filePath = filePath ∧ ∀ line ∈ e.lineNumber, line ≤ maxWord := by
  cases content with
  | error reason =>
    obtain rfl := List.mem_singleton.1 he
    exact ⟨rfl, by simp⟩
  | ok bytes =>
    simp only [ofFile, ofBytes] at he
    split at he
    · obtain rfl := List.mem_singleton.1 he
      exact ⟨rfl, by simp⟩
    · split at he
      · cases he
      · obtain rfl := List.mem_singleton.1 he
        refine ⟨rfl, ?_⟩
        rintro line hline
        cases hline
        exact Nat.min_le_right _ _

theorem ofBytes_contentHash (policy : KeywordPolicy) (filePath : String) (bytes : List UInt8) :
    (ofBytes policy filePath bytes).contentHash = some (Digest.sha256 bytes) := by
  simp only [ofBytes]
  split
  · rfl
  · split <;> rfl

theorem ofBytes_failed_iff (policy : KeywordPolicy) (filePath : String) (bytes : List UInt8) :
    (ofBytes policy filePath bytes).failed = true ↔ Text.Utf8.decode? bytes = none := by
  simp only [ofBytes]
  split
  · next h => simp [h, failure]
  · next h => split <;> simp [h]

theorem functions_of_failed (h : (ofFile policy filePath content).failed = true) :
    (ofFile policy filePath content).functions = [] := by
  cases content with
  | error reason => rfl
  | ok bytes =>
    simp only [ofFile, ofBytes] at h ⊢
    split at h
    · rfl
    · split at h <;> cases h

end Extraction

end Consolidation
