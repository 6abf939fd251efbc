/-
# `Proofs.Identifiers` — which functions of a project share an identifier

The identifier of a function puts together the path of its file, its name and, where the file has several functions of the
name, its line.  A path may be any text and look like an identifier itself; but a name is an identifier of the language,
by the grammar (`isIdentChar_of_mem_definitions`) and for the line scanner alike, so that the last colon tells where it
starts and an at sign behind that where it ends (`functionId_inj`).

No two definitions start on one line, whether the line scanner finds them or they are in a syntax tree
(`separateLines_definitions`).  So all functions of a project have different identifiers (`id_eq_iff_in_project`), but for
what no line number can tell apart: functions of one name in one file, at or behind the largest line that can be recorded
(`ShareLastLine`).  There are none in a file where all lines can be recorded (`identifiable_iff_lines`).

## What is proved

For every policy and all sources with different paths, each to be looked at in its syntax tree or by lines: two functions
at different places in the list of all functions have one identifier if and only if they share the last line that can be
recorded, of one file and with one name; and functions with one identifier agree in path, name and line.

## How it goes

A name has no colon in it, so the last colon of an identifier is the one before the name, whatever the path is.  Behind it
the line follows only where the name occurs more than once in its file, so one identifier may have a line and another
none; but whether a name occurs more than once is the same for both, if they agree in path and name
(`id_recordOf_eq_iff`).
-/
import Mathlib.Data.List.Pairwise
import Consolidation.Proofs.Extraction
import Consolidation.Proofs.Python.DefinitionLines
import Consolidation.Proofs.Text.Utf8

namespace Consolidation

open Python

/-- Are functions of one file and one name recorded under the largest line there is? -/
def FunctionRecord.ShareLastLine (f g : FunctionRecord) : Prop :=
  f.filePath = g.filePath ∧ f.name = g.name ∧ f.lineNumber = maxWord ∧ g.lineNumber = maxWord

/-! ## Definitions -/

theorem separateLines_definitions {source : List Char} {tree : Tree} (htree : treeOf source = .ok tree) :
    SeparateLines (tree.definitions source) := by
  refine List.Pairwise.imp ?_ (definitions_pairwise (parse_of_treeOf htree))
  exact fun hlt _ => Nat.ne_of_lt hlt

theorem discernible_definitions {source : List Char} {tree : Tree} (htree : treeOf source = .ok tree) :
    Discernible (tree.definitions source) where
  name_plain := by
    intro d hd
    have hident := List.all_eq_true.1 (isIdentChar_of_mem_definitions (parse_of_treeOf htree) hd)
    exact ⟨fun hc => absurd (hident ':' hc) (by decide +kernel), fun hc => absurd (hident '@' hc) (by decide +kernel)⟩
  line_ne := separateLines_definitions htree

namespace Extraction

/-- The functions of a file can be told apart by their identifiers if each of its lines has a number of its own. -/
theorem identifiable_iff_lines {bytes : List UInt8} :
    Identifiable bytes ↔ ∀ source, Text.Utf8.decode? bytes = some source → (Text.lines source).length ≤ maxWord := by
  constructor
  · exact fun h source hsource => (h source hsource).1
  · intro h source hsource
    refine ⟨h source hsource, fun tree htree => ?_⟩
    refine (discernible_definitions htree).apart fun d hd => ?_
    exact (definitions_le (parse_of_treeOf htree) hd).trans (h source hsource)

theorem identifiable_encode {source : List Char} (h : (Text.lines source).length ≤ maxWord) :
    Identifiable (Text.Utf8.encode source) := by
  refine identifiable_iff_lines.2 fun source' hsource => ?_
  rw [Text.Utf8.decode?_encode] at hsource
  cases hsource
  exact h

variable {policy : KeywordPolicy} {path : ExtractionPath} {filePath contentHash : String}
  {definitions : List Definition}

/-- Two functions of a file share an identifier exactly if they share the last line. -/
theorem id_eq_iff_in_file (h : Discernible definitions) :
    (recordsOf policy path filePath contentHash definitions).Pairwise (fun f g => f.id = g.id ↔ f.ShareLastLine g) := by
  rw [recordsOf, List.pairwise_map, List.pairwise_iff_forall_sublist]
  intro a b hab
  have ha := (h.name_plain a (hab.subset (by simp))).2
  have hb := (h.name_plain b (hab.subset (by simp))).2
  have hne := List.pairwise_iff_forall_sublist.1 h.line_ne hab
  rw [id_recordOf_eq_iff hab ha hb]
  simp only [FunctionRecord.ShareLastLine, recordOf, String.ofList_inj, true_and]
  constructor
  · rintro ⟨hname, hline⟩
    have := hne hname
    exact ⟨hname, by omega, by omega⟩
  · rintro ⟨hname, haline, hbline⟩
    exact ⟨hname, haline.trans hbline.symm⟩

end Extraction

/-! ## Projects -/

/-- A file to look for functions in, and the way in which to look. -/
structure Source where
  filePath : String
  bytes : List UInt8
  path : ExtractionPath

namespace Source

open Extraction

/-- The functions found in a file: in its syntax tree, with the line scanner where it has none, or by the line scanner alone. -/
def functions (policy : KeywordPolicy) (s : Source) : List FunctionRecord :=
  match s.path with
  | .formal => (ofBytes policy s.filePath s.bytes).functions
  | .fallback => (ofBytesByLine policy s.filePath s.bytes).functions

theorem exists_discernible (policy : KeywordPolicy) (s : Source) :
    ∃ path contentHash definitions,
      s.functions policy = recordsOf policy path s.filePath contentHash definitions ∧ Discernible definitions := by
  unfold functions
  split
  · simp only [ofBytes]
    split
    · exact ⟨.formal, "", [], rfl, discernible_nil⟩
    · next source hsource =>
      split
      · next tree htree => exact ⟨_, _, _, rfl, discernible_definitions htree⟩
      · exact ⟨_, _, _, rfl, discernible_scanLines source⟩
  · exact ⟨_, _, _, rfl, discernible_scanLines _⟩

theorem exists_functionId {policy : KeywordPolicy} {s : Source} {f : FunctionRecord}
    (hf : f ∈ s.functions policy) :
    f.filePath = s.filePath ∧ ':' ∉ f.name.toList ∧ '@' ∉ f.name.toList ∧
      ∃ repeated, f.id = functionId s.filePath f.name f.lineNumber repeated := by
  obtain ⟨path, contentHash, definitions, hfunctions, hdiscernible⟩ := exists_discernible policy s
  rw [hfunctions, recordsOf, List.mem_map] at hf
  obtain ⟨d, hd, rfl⟩ := hf
  obtain ⟨hcolon, hat⟩ := hdiscernible.name_plain d hd
  exact ⟨rfl, by simpa [recordOf] using hcolon, by simpa [recordOf] using hat, _, rfl⟩

end Source

def functionsOf (policy : KeywordPolicy) (sources : List Source) : List FunctionRecord :=
  sources.flatMap (Source.functions policy)

/-- Functions of a project whose files have different paths have different identifiers, unless they share the last line of a
file; so functions with one identifier agree in path, name and line. -/
theorem id_eq_iff_in_project (policy : KeywordPolicy) {sources : List Source}
    (hpaths : (sources.map (·.filePath)).Nodup) :
    (functionsOf policy sources).Pairwise (fun f g => f.id = g.id ↔ f.ShareLastLine g) ∧
    ∀ f ∈ functionsOf policy sources, ∀ g ∈ functionsOf policy sources, f.id = g.id →
      f.filePath = g.filePath ∧ f.name = g.name ∧ f.lineNumber = g.lineNumber := by
  have hpairs : (functionsOf policy sources).Pairwise (fun f g => f.id = g.id ↔ f.ShareLastLine g) := by
    refine List.pairwise_flatMap.2 ⟨fun s _ => ?_, ?_⟩
    · obtain ⟨path, contentHash, definitions, hfunctions, hdiscernible⟩ := s.exists_discernible policy
      rw [hfunctions]
      exact Extraction.id_eq_iff_in_file hdiscernible
    · -- of two files the paths differ, and both the identifiers and the functions say so
      refine (List.pairwise_map.1 hpaths).imp fun hne f hf g hg => ?_
      obtain ⟨hfpath, hfcolon, hfat, _, hfid⟩ := Source.exists_functionId hf
      obtain ⟨hgpath, hgcolon, hgat, _, hgid⟩ := Source.exists_functionId hg
      constructor
      · intro hid
        rw [hfid, hgid] at hid
        exact absurd (Extraction.functionId_inj hfcolon hgcolon hfat hgat hid).1 hne
      · rintro ⟨hpath, -⟩
        rw [hfpath, hgpath] at hpath
        exact absurd hpath hne
  have hsymm : Std.Symm fun f g : FunctionRecord =>
      f.id = g.id → f.filePath = g.filePath ∧ f.name = g.name ∧ f.lineNumber = g.lineNumber := by
    refine ⟨fun f g h hid => ?_⟩
    obtain ⟨hpath, hname, hline⟩ := h hid.symm
    exact ⟨hpath.symm, hname.symm, hline.symm⟩
  refine ⟨hpairs, List.Pairwise.forall_of_forall (fun _ _ _ => ⟨rfl, rfl, rfl⟩) (hpairs.imp fun h hid => ?_)⟩
  obtain ⟨hpath, hname, hfline, hgline⟩ := h.1 hid
  exact ⟨hpath, hname, hfline.trans hgline.symm⟩

namespace Sample

/-- Files whose paths look like parts of identifiers; the grammar rejects the second one, and the third is left to the
line scanner. -/
def lookalikes : List Source :=
  [⟨"m.py", "def f():\n    pass\n\nclass A:\n    def f(self):\n        pass\n\ndef g(): pass\n".toUTF8.toList, .formal⟩,
    ⟨"m.py::f@1", "def f():\n    return (\n".toUTF8.toList, .formal⟩,
    ⟨"m.py:", "def f(): pass\ndef g(): pass\n".toUTF8.toList, .fallback⟩]

end Sample

theorem id_eq_iff_in_lookalikes :
    (functionsOf .off Sample.lookalikes).map (·.id) =
        ["m.py::f@1", "m.py::f@5", "m.py::g", "m.py::f@1::f", "m.py:::f", "m.py:::g"] ∧
      (functionsOf .off Sample.lookalikes).Pairwise (fun f g => f.id = g.id ↔ f.ShareLastLine g) :=
  ⟨by decide +kernel, (id_eq_iff_in_project .off (by decide)).1⟩

end Consolidation
