/-
# `Proofs.Checkpoint.Calls` — which checkpoints come back from their file

A checkpoint is made by calls that record files, forget files and set the clusters.  Whatever the calls are, what they
make can be written but for the texts of its errors (`Made`, kept by every call).  So it comes back from a file as it was
exactly if the path of each recorded error can be told from what follows it in the text of the error
(`load_save_afterCalls_iff`).  One path that cannot loses more than its own error, as a file that does not read as a
checkpoint reads as the empty one.

## What is proved

For all calls that fit, that is, that name a file, have errors of that file only and numbers of four bytes, and every
place where the checkpoint can be saved: loading gives the checkpoint that was saved if and only if each recorded error is
`Separable`.

An error is written as one text, with its path in front, and read back by looking for the first colon with a space behind
it; so a path with these two in it is cut too early, and one that ends in a colon and a number is taken for a path and a
line where no line follows.  Neither occurs in the name of a module, but a scan does not ask for that.
-/
import Consolidation.Proofs.Checkpoint.RoundTrip
import Consolidation.Proofs.Cluster.Calls
import Consolidation.Proofs.Files.Entry

namespace Consolidation.Checkpoint

/-! ## Calls -/

inductive Call where
  | recordFile (path : String) (contentHash : Option String) (functions : List FunctionRecord)
      (errors : List ParseError) (processed : Bool)
  | forgetFile (path : String)
  /-- Takes over the clusters of any clustering. -/
  | setClusters (c : Clustering)

namespace Call

def apply (s : Checkpoint) : Call → Checkpoint
  | recordFile path contentHash functions errors processed =>
    s.recordFile path contentHash functions errors processed
  | forgetFile path => s.forgetFile path
  | setClusters c => s.setClusters c

/-- Does a call name a file, with errors of that file only, and with numbers of four bytes? -/
def Fits : Call → Prop
  | recordFile path _ functions errors _ =>
    path ≠ "" ∧ (∀ f ∈ functions, f.Writable) ∧
      ∀ e ∈ errors, e.filePath = path ∧ ∀ line ∈ e.lineNumber, line ≤ maxWord
  | forgetFile path => path ≠ ""
  | setClusters _ => True

end Call

def afterCalls (calls : List Call) : Checkpoint := calls.foldl Call.apply empty

/-! ## What calls make -/

/-- What every checkpoint is that calls make: all of it can be written, but for the paths of errors. -/
structure Made (s : Checkpoint) : Prop where
  version_eq : s.version = checkpointVersion
  path_ne : ∀ e ∈ s.syntaxErrors, e.filePath ≠ ""
  line_le : ∀ e ∈ s.syntaxErrors, ∀ line ∈ e.lineNumber, line ≤ maxWord
  records : ∀ path fs, s.functions.find? path = some fs → ∀ f ∈ fs, f.Writable

theorem made_empty : empty.Made where
  version_eq := rfl
  path_ne := by simp [empty]
  line_le := by simp [empty]
  records := by simp [empty]

variable {s : Checkpoint}

theorem Made.forgetFile (h : s.Made) (path : String) : (s.forgetFile path).Made where
  version_eq := h.version_eq
  path_ne := fun e he => h.path_ne e (List.mem_filter.1 he).1
  line_le := fun e he => h.line_le e (List.mem_filter.1 he).1
  records := by
    intro path' fs hfs
    have hfind : (s.functions.erase path).find? path' = some fs := hfs
    rw [Dict.find?_erase] at hfind
    split at hfind
    · cases hfind
    · exact h.records path' fs hfind

theorem Made.recordFile (h : s.Made) {path : String} {contentHash : Option String}
    {functions : List FunctionRecord} {errors : List ParseError} {processed : Bool}
    (hfits : (Call.recordFile path contentHash functions errors processed).Fits) :
    (s.recordFile path contentHash functions errors processed).Made := by
  obtain ⟨hpath, hfunctions, herrors⟩ := hfits
  have hpath_ne : ∀ e ∈ s.syntaxErrors ++ errors, e.filePath ≠ "" := by
    intro e he
    rcases List.mem_append.1 he with he | he
    · exact h.path_ne e he
    · exact (herrors e he).1 ▸ hpath
  have hline_le : ∀ e ∈ s.syntaxErrors ++ errors, ∀ line ∈ e.lineNumber, line ≤ maxWord := by
    intro e he
    rcases List.mem_append.1 he with he | he
    · exact h.line_le e he
    · exact (herrors e he).2
  cases processed with
  | false => exact ⟨h.version_eq, hpath_ne, hline_le, h.records⟩
  | true =>
    refine ⟨h.version_eq, hpath_ne, hline_le, ?_⟩
    intro path' fs hfs
    have hfind : (s.functions.insert path functions).find? path' = some fs := hfs
    rw [Dict.find?_insert] at hfind
    split at hfind
    · cases hfind
      exact hfunctions
    · exact h.records path' fs hfind

theorem Made.apply (h : s.Made) {call : Call} (hfits : call.Fits) : (call.apply s).Made := by
  cases call with
  | recordFile path contentHash functions errors processed => exact h.recordFile hfits
  | forgetFile path => exact h.forgetFile path
  | setClusters c => exact ⟨h.version_eq, h.path_ne, h.line_le, h.records⟩

theorem Made.foldl (h : s.Made) {calls : List Call} (hfits : ∀ call ∈ calls, call.Fits) :
    (calls.foldl Call.apply s).Made := by
  induction calls generalizing s with
  | nil => exact h
  | cons call calls ih =>
    obtain ⟨hcall, hcalls⟩ := List.forall_mem_cons.1 hfits
    exact ih (h.apply hcall) hcalls

/-- What calls make can be written exactly if the paths of its errors can be told apart in their texts. -/
theorem Made.writable (h : s.Made) (hseparable : ∀ e ∈ s.syntaxErrors, e.Separable) :
    s.Writable where
  version_eq := h.version_eq
  errors := fun e he => ⟨h.path_ne e he, hseparable e he, h.line_le e he⟩
  records := by
    intro fs hfs
    obtain ⟨path, hpath⟩ := Dict.mem_values_iff.1 hfs
    exact h.records path fs hpath

/-! ## The file -/

theorem load_save {path : Files.Path} {tree : Files.Entry} (h : (s.save path tree).2 = none) :
    load path (s.save path tree).1 = ofBytes s.toBytes := by
  have hread : (s.save path tree).1.read path = .ok s.toBytes := Files.Entry.read_save h
  rw [load, hread]

/-- **What comes back from a file**: a checkpoint that calls made is loaded as it was saved exactly if
the path of each of its errors can be told from what follows it in the text of the error. -/
theorem load_save_afterCalls_iff {calls : List Call} (hfits : ∀ call ∈ calls, call.Fits)
    {path : Files.Path} {tree : Files.Entry} (hsave : ((afterCalls calls).save path tree).2 = none) :
    load path ((afterCalls calls).save path tree).1 = afterCalls calls ↔
      ∀ e ∈ (afterCalls calls).syntaxErrors, e.Separable := by
  have hmade : (afterCalls calls).Made := made_empty.foldl hfits
  rw [load_save hsave]
  constructor
  · exact fun h e he => (survives_of_ofBytes_toBytes h e he).separable
  · exact fun h => (hmade.writable h).ofBytes_toBytes

namespace Sample

/-- Two files are recorded, one of them with errors and again after it was forgotten, and clustered. -/
def plainCalls : List Call := [
  .recordFile "a.py" (some "1f") [Clustering.Sample.atTop "a.py" "load"] [] true,
  .recordFile "b:c.py" none [] [⟨"b:c.py", "cannot read: gone", none⟩] false,
  .forgetFile "b:c.py",
  .recordFile "b:c.py" (some "2e") [] [⟨"b:c.py", "syntax error", some 3⟩] true,
  .setClusters (Clustering.empty.insert "k" (Clustering.Sample.atTop "a.py" "load"))]

/-- A file whose name starts with a colon and a space is recorded with an error. -/
def spacedCalls : List Call :=
  [.recordFile ": b.py" (some "1f") [] [⟨": b.py", "syntax error", some 1⟩] true]

end Sample

theorem load_save_plainCalls :
    (∀ call ∈ Sample.plainCalls, call.Fits) ∧
      ((afterCalls Sample.plainCalls).save ["state", "checkpoint.json"] .empty).2 = none ∧
      load ["state", "checkpoint.json"]
        ((afterCalls Sample.plainCalls).save ["state", "checkpoint.json"] .empty).1 =
          afterCalls Sample.plainCalls := by
  have hfits : ∀ call ∈ Sample.plainCalls, call.Fits := by
    have hrecord : (Clustering.Sample.atTop "a.py" "load").Writable := by
      constructor <;> decide
    simp [Sample.plainCalls, Call.Fits, hrecord, maxWord]
  have hsave : ((afterCalls Sample.plainCalls).save ["state", "checkpoint.json"] .empty).2 = none := rfl
  refine ⟨hfits, hsave, (load_save_afterCalls_iff hfits hsave).2 ?_⟩
  have herrors : (afterCalls Sample.plainCalls).syntaxErrors = [⟨"b:c.py", "syntax error", some 3⟩] := by
    decide
  simp only [herrors, List.forall_mem_cons, List.not_mem_nil, false_implies, implies_true, and_true]
  exact ⟨by decide, nofun⟩

/-- The checkpoint is written, and another one is loaded. -/
theorem load_save_spacedCalls_ne :
    (∀ call ∈ Sample.spacedCalls, call.Fits) ∧
      ((afterCalls Sample.spacedCalls).save ["checkpoint.json"] .empty).2 = none ∧
      load ["checkpoint.json"] ((afterCalls Sample.spacedCalls).save ["checkpoint.json"] .empty).1 ≠
        afterCalls Sample.spacedCalls := by
  have hsave : ((afterCalls Sample.spacedCalls).save ["checkpoint.json"] .empty).2 = none := rfl
  refine ⟨by simp [Sample.spacedCalls, Call.Fits, maxWord], hsave, fun h => ?_⟩
  rw [load_save hsave] at h
  have hsurvives := survives_of_ofBytes_toBytes h ⟨": b.py", "syntax error", some 1⟩
    (by decide)
  exact hsurvives.separable.no_space (by decide)

end Consolidation.Checkpoint
