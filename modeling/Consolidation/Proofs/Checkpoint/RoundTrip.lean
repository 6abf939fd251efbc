/-
# `Proofs.Checkpoint.RoundTrip` — a checkpoint is read back as it was written

A checkpoint is `Writable` if its version is the current one, its errors survive as their texts, and the numbers of its
records are numbers of four bytes.  Such a checkpoint is read back from its bytes (`Writable.ofBytes_toBytes`); all other
fields may be anything.  No checkpoint is read back if an error of it does not survive (`survives_of_ofBytes_toBytes`).

A reader of records looks for each member by its name and gives a default where it is missing; what was written has all of
them, each once, so each is read where it was written (`ofJson?_toJson_eq`).  Of the members only errors are read from
texts that were not made for being read back, and they are the only ones that may be lost.
-/
import Consolidation.Checkpoint.File
import Consolidation.Proofs.Json.Record
import Consolidation.Proofs.Json.RoundTrip
import Consolidation.Proofs.ParseError

namespace Consolidation

open Consolidation.Json

/-! ## What is written is plain -/

namespace Json

theorem plain_strs (texts : List String) : Plain (strs texts) := by
  refine .arr ?_
  intro j hj
  obtain ⟨text, -, rfl⟩ := List.mem_map.1 hj
  exact .str text

theorem plain_optStr (text : Option String) : Plain (optStr text) := by
  cases text with
  | none => exact .null
  | some text => exact .str text

theorem plain_ofDict {α : Type} {f : α → Json} (h : ∀ a, Plain (f a)) (d : Dict α) :
    Plain (ofDict f d) := by
  refine .obj ?_
  intro m hm
  obtain ⟨e, -, rfl⟩ := List.mem_map.1 hm
  exact h e.2

end Json

/-! ## Function records -/

namespace FunctionRecord

/-- Are the numbers of a record numbers of four bytes? -/
structure Writable (f : FunctionRecord) : Prop where
  line_le : f.lineNumber ≤ maxWord
  endLine_le : f.endLine ≤ maxWord
  complexity_le : f.complexity ≤ maxWord

theorem plain_toJson (f : FunctionRecord) : Plain f.toJson := by
  refine .obj ?_
  simp only [members, List.forall_mem_cons, List.not_mem_nil, false_implies, implies_true, and_true]
  exact ⟨.str _, .str _, .str _, plain_strs _, .nat _, .nat _, plain_optStr _, .nat _, .str _,
    .str _, plain_optStr _, .str _⟩

theorem asName?_extraction (path : ExtractionPath) :
    asName? ExtractionPath.ofName? (str path.name) = some path := by
  cases path <;> rfl

theorem record?_toJson (f : FunctionRecord) :
    record? fieldNames f.toJson = some ⟨fun name => f.members.lookup name, false⟩ :=
  record?_obj (show (f.members.map (·.1)).Nodup by simp [members])

theorem Writable.ofJson?_toJson {f : FunctionRecord} (h : f.Writable) : ofJson? f.toJson = some f := by
  rw [ofJson?, record?_toJson]
  -- each field finds what was written for it
  show (do
    some {
      id := ← asStr? (.str f.id)
      name := ← asStr? (.str f.name)
      filePath := ← asStr? (.str f.filePath)
      args := ← asList? asStr? (strs f.args)
      lineNumber := ← asNatUpTo? maxWord (.nat f.lineNumber)
      endLine := ← asNatUpTo? maxWord (.nat f.endLine)
      docstring := ← asOption? asStr? (optStr f.docstring)
      complexity := ← asNatUpTo? maxWord (.nat f.complexity)
      contentHash := ← asStr? (.str f.contentHash)
      contextKeywords := ← asStr? (.str f.contextKeywords)
      semanticHash := ← asOption? asStr? (optStr f.semanticHash)
      extraction := ← asName? ExtractionPath.ofName? (.str f.extraction.name) : FunctionRecord }) =
    some f
  rw [asList?_strs, asNatUpTo?_nat h.line_le, asNatUpTo?_nat h.endLine_le, asOption?_optStr,
    asNatUpTo?_nat h.complexity_le, asOption?_optStr, asName?_extraction]
  rfl

end FunctionRecord

/-! ## Checkpoints -/

namespace Checkpoint

/-- Can a checkpoint be told from what is written of it? -/
structure Writable (s : Checkpoint) : Prop where
  version_eq : s.version = checkpointVersion
  errors : ∀ e ∈ s.syntaxErrors, e.Survives
  records : ∀ fs ∈ s.functions.values, ∀ f ∈ fs, f.Writable

theorem plain_toJson (s : Checkpoint) : Plain s.toJson := by
  have hpair : ∀ pair, Plain (pairToJson pair) := by
    intro pair
    refine .arr ?_
    simp only [List.forall_mem_cons, List.not_mem_nil, false_implies, implies_true, and_true]
    exact ⟨.str _, plain_strs _⟩
  have hrecords : ∀ fs : List FunctionRecord, Plain (.arr (fs.map FunctionRecord.toJson)) := by
    intro fs
    refine .arr ?_
    intro j hj
    obtain ⟨f, -, rfl⟩ := List.mem_map.1 hj
    exact f.plain_toJson
  have hlayout : Plain (.arr (s.layout.map pairToJson)) := by
    refine .arr ?_
    intro j hj
    obtain ⟨pair, -, rfl⟩ := List.mem_map.1 hj
    exact hpair pair
  refine .obj ?_
  simp only [members, List.forall_mem_cons, List.not_mem_nil, false_implies, implies_true, and_true]
  exact ⟨.nat _, plain_strs _, hlayout, plain_strs _, plain_ofDict .str _,
    plain_ofDict hrecords _, plain_ofDict .str _⟩

theorem pairOfJson?_pairToJson (pair : String × List String) :
    pairOfJson? (pairToJson pair) = some pair := by
  have h : asList? asStr? (strs pair.2) = some pair.2 := asList?_strs pair.2
  simp [pairOfJson?, pairToJson, asStr?, h]

theorem errorOfJson?_display {e : ParseError} :
    errorOfJson? (.str e.display) = some e ↔ e.Survives := by
  rw [← ParseError.ofText_display_iff]
  cases h : ParseError.ofText e.display <;> simp [errorOfJson?, asStr?, h]

theorem record?_toJson (s : Checkpoint) :
    record? fieldNames s.toJson = some ⟨fun name => s.members.lookup name, false⟩ :=
  record?_obj (show (s.members.map (·.1)).Nodup by simp [members])

theorem ofJson?_toJson_eq (s : Checkpoint) : ofJson? s.toJson = (do
    some {
      version := ← asNatUpTo? maxWord (.nat s.version)
      processed := TextSet.ofList (← asList? asStr? (strs s.processed.keys))
      layout := ← asList? pairOfJson? (.arr (s.layout.map pairToJson))
      syntaxErrors := ← asList? errorOfJson? (strs (s.syntaxErrors.map ParseError.display))
      fileHashes := ← asDict? asStr? (ofDict .str s.fileHashes)
      functions := ← asDict? (asList? FunctionRecord.ofJson?)
        (ofDict (fun fs => .arr (fs.map FunctionRecord.toJson)) s.functions)
      memberships := ← asDict? asStr? (ofDict .str s.memberships) : Checkpoint }) := by
  rw [ofJson?, record?_toJson]
  rfl

theorem errors_read_iff (s : Checkpoint) :
    asList? errorOfJson? (strs (s.syntaxErrors.map ParseError.display)) = some s.syntaxErrors ↔
      ∀ e ∈ s.syntaxErrors, e.Survives := by
  rw [strs, List.map_map]
  exact asList?_arr_iff.trans (forall₂_congr fun _ _ => errorOfJson?_display)

theorem Writable.ofJson?_toJson {s : Checkpoint} (h : s.Writable) : ofJson? s.toJson = some s := by
  have hversion : asNatUpTo? maxWord (.nat s.version) = some s.version := by
    rw [h.version_eq]
    rfl
  have hlayout : asList? pairOfJson? (.arr (s.layout.map pairToJson)) = some s.layout :=
    asList?_arr_iff.2 (fun pair _ => pairOfJson?_pairToJson pair)
  have hhashes : asDict? asStr? (ofDict .str s.fileHashes) = some s.fileHashes :=
    asDict?_ofDict (fun _ _ => rfl)
  have hmemberships : asDict? asStr? (ofDict .str s.memberships) = some s.memberships :=
    asDict?_ofDict (fun _ _ => rfl)
  have hfunctions : asDict? (asList? FunctionRecord.ofJson?)
      (ofDict (fun fs => .arr (fs.map FunctionRecord.toJson)) s.functions) = some s.functions :=
    asDict?_ofDict (fun fs hfs =>
      asList?_arr_iff.2 (fun f hf => (h.records fs hfs f hf).ofJson?_toJson))
  have hprocessed : TextSet.ofList s.processed.keys = s.processed :=
    TextSet.ofList_toList s.processed
  rw [ofJson?_toJson_eq, hversion, asList?_strs, hlayout, s.errors_read_iff.2 h.errors, hhashes,
    hfunctions, hmemberships]
  exact congrArg (fun processed => some { s with processed := processed }) hprocessed

/-- A checkpoint is read back from what is written of it. -/
theorem Writable.ofBytes_toBytes {s : Checkpoint} (h : s.Writable) : ofBytes s.toBytes = s := by
  rw [ofBytes, toBytes, (plain_toJson s).ofBytes?_toPrettyBytes, Option.bind_some,
    h.ofJson?_toJson]
  simp [h.version_eq]

theorem survives_of_ofJson?_toJson {s : Checkpoint} (h : ofJson? s.toJson = some s) :
    ∀ e ∈ s.syntaxErrors, e.Survives := by
  rw [ofJson?_toJson_eq] at h
  obtain ⟨version, -, h⟩ := Option.bind_eq_some_iff.1 h
  obtain ⟨processed, -, h⟩ := Option.bind_eq_some_iff.1 h
  obtain ⟨layout, -, h⟩ := Option.bind_eq_some_iff.1 h
  obtain ⟨errors, herrors, h⟩ := Option.bind_eq_some_iff.1 h
  obtain ⟨hashes, -, h⟩ := Option.bind_eq_some_iff.1 h
  obtain ⟨functions, -, h⟩ := Option.bind_eq_some_iff.1 h
  obtain ⟨memberships, -, h⟩ := Option.bind_eq_some_iff.1 h
  obtain rfl : errors = s.syntaxErrors := congrArg syntaxErrors (Option.some.inj h)
  exact s.errors_read_iff.1 herrors

/-- A checkpoint with an error that does not survive is not read back. -/
theorem survives_of_ofBytes_toBytes {s : Checkpoint} (h : ofBytes s.toBytes = s) :
    ∀ e ∈ s.syntaxErrors, e.Survives := by
  rw [ofBytes, toBytes, (plain_toJson s).ofBytes?_toPrettyBytes, Option.bind_some] at h
  split at h
  · next s' hread =>
    split at h
    · exact survives_of_ofJson?_toJson (h ▸ hread)
    · simp [← h, empty]
  · simp [← h, empty]

end Checkpoint

end Consolidation
