/-
# `Proofs.Report.Tables` — the shape of the tables in a report

The tables of the stages, of the members of each cluster and of the parse errors stand in the markdown with one row for
each of these (`tables_of_markdown?`).  A row keeps the shape of its table if it is one line and has as many separators as
the header: bars behind an even number of backslashes.

Escaping puts one backslash before a bar and does not look at those that are there, so a bar comes loose exactly if an odd
number of backslashes stands right before it (`separators_escapeCell`).  Only messages are put on one line; a line break
in any other cell breaks the row (`isLine_row_iff`).

| cell | on one line | bars |
| :-- | :-- | :-- |
| message of a stage or a parse error | always | of what is shown of it |
| signature and location of a member, path of a parse error | if it is one | of the whole text |
| all others | always | none |

How many bars a text has as separators depends on how many backslashes stand right before each, modulo two.  So the count
is `barsBehind`, which carries the parity along; a character that is neither bar nor backslash forgets it
(`barsBehind_append_cons`).  Escaping adds one backslash to each bar and so exchanges the parities (`barsBehind_escaped`).

That a table stands in a text means that its header, the line below it and its rows follow one another there.  For each of
the three tables there is then a lemma on its rows: when they are one line, and how many separators they have.
-/
import Mathlib.Algebra.GroupWithZero.Nat
import Consolidation.Proofs.Json.Record
import Consolidation.Proofs.ParseError
import Consolidation.Report.Markdown

namespace Consolidation.Report

open Text

/-! ## Bars -/

/-- How many bars stand behind a number of backslashes of some parity, `n` backslashes standing right before the text. -/
def barsBehind (parity : Nat) : Nat → List Char → Nat
  | _, [] => 0
  | n, c :: rest =>
    if c = '|' then (if n % 2 = parity then 1 else 0) + barsBehind parity 0 rest
    else barsBehind parity (if c = '\\' then n + 1 else 0) rest

/-- How many bars separate cells. -/
def separators (text : String) : Nat := barsBehind 0 0 text.toList

/-- How many bars would separate cells if a backslash were put before each bar. -/
def looseBars (text : String) : Nat := barsBehind 1 0 text.toList

section Bars

variable {parity : Nat} {s : List Char} {text : String}

theorem barsBehind_of_not_mem (h : '|' ∉ s) (n : Nat) : barsBehind parity n s = 0 := by
  induction s generalizing n with
  | nil => rfl
  | cons c s ih =>
    rw [List.mem_cons, not_or] at h
    rw [barsBehind, if_neg (Ne.symm h.1), ih h.2]

theorem barsBehind_one_of_no_backslash (h : '\\' ∉ s) : barsBehind 1 0 s = 0 := by
  induction s with
  | nil => rfl
  | cons c s ih =>
    rw [List.mem_cons, not_or] at h
    rw [barsBehind, ih h.2, if_neg (Ne.symm h.1), ih h.2]
    exact ite_self 0

theorem barsBehind_cons {c : Char} (hbar : c ≠ '|') (hslash : c ≠ '\\') (n : Nat) (s : List Char) :
    barsBehind parity n (c :: s) = barsBehind parity 0 s := by
  rw [barsBehind, if_neg hbar, if_neg hslash]

/-- A character that is neither bar nor backslash cuts a text in two. -/
theorem barsBehind_append_cons {c : Char} (hbar : c ≠ '|') (hslash : c ≠ '\\') (s : List Char) (n : Nat)
    (rest : List Char) : barsBehind parity n (s ++ c :: rest) = barsBehind parity n s + barsBehind parity 0 rest := by
  induction s generalizing n with
  | nil => exact (barsBehind_cons hbar hslash n rest).trans (Nat.zero_add _).symm
  | cons d s ih =>
    rw [List.cons_append, barsBehind, barsBehind]
    split
    · rw [ih, Nat.add_assoc]
    · exact ih _

theorem barsBehind_escaped (s : List Char) (n : Nat) :
    barsBehind 0 n (s.flatMap fun c => if c == '|' then ['\\', '|'] else [c]) = barsBehind 1 n s := by
  induction s generalizing n with
  | nil => rfl
  | cons c s ih =>
    rw [List.flatMap_cons]
    by_cases hc : c = '|'
    · subst hc
      have hparity : (n + 1) % 2 = 0 ↔ n % 2 = 1 := by omega
      simp only [beq_self_eq_true, if_true, List.cons_append, List.nil_append, barsBehind, ih,
        show ('\\' : Char) ≠ '|' by decide, if_false, hparity]
    · rw [if_neg (by simpa using hc), List.singleton_append, barsBehind, barsBehind, if_neg hc, if_neg hc, ih]

theorem separators_escapeCell (text : String) : separators (escapeCell text) = looseBars text := by
  rw [separators, escapeCell, mapText, String.toList_ofList, barsBehind_escaped, looseBars]

theorem separators_of_not_mem (h : '|' ∉ text.toList) : separators text = 0 := barsBehind_of_not_mem h 0

theorem looseBars_of_not_mem (h : '|' ∉ text.toList) : looseBars text = 0 := barsBehind_of_not_mem h 0

theorem looseBars_of_no_backslash (h : '\\' ∉ text.toList) : looseBars text = 0 := barsBehind_one_of_no_backslash h

theorem separators_code (text : String) : separators (code text) = separators text := by
  have hcode : (code text).toList = '\x60' :: (text.toList ++ ['\x60']) := by simp [code]
  rw [separators, hcode, barsBehind_cons (by decide) (by decide), barsBehind_append_cons (by decide) (by decide)]
  rfl

end Bars

/-! ## Rows -/

theorem row_toList (cell : String) (cells : List String) :
    (row (cell :: cells)).toList =
      (cell :: cells).flatMap (fun c => '|' :: ' ' :: (c.toList ++ [' '])) ++ ['|', '\n'] := by
  have hsep : " | ".toList = [' ', '|', ' '] := rfl
  have hends : (row (cell :: cells)).toList =
      '|' :: ' ' :: ([' ', '|', ' '].intercalate ((cell :: cells).map String.toList) ++ [' ', '|', '\n']) := by
    simp only [row, String.toList_append, String.toList_intercalate, hsep]
    rfl
  rw [hends]
  clear hends
  induction cells generalizing cell with
  | nil => simp
  | cons next cells ih =>
    rw [List.map_cons, List.map_cons, List.intercalate_cons_cons, List.flatMap_cons, ← List.map_cons,
      List.append_assoc _ _ ['|', '\n'], ← ih next]
    simp

theorem barsBehind_cells (cells : List String) (rest : List Char) :
    barsBehind 0 0 (cells.flatMap (fun c => '|' :: ' ' :: (c.toList ++ [' '])) ++ rest) =
      cells.length + (cells.map separators).sum + barsBehind 0 0 rest := by
  induction cells with
  | nil => simp
  | cons cell cells ih =>
    rw [List.flatMap_cons, List.append_assoc, List.cons_append, List.cons_append, List.append_assoc, List.singleton_append,
      barsBehind, if_pos rfl, if_pos rfl, barsBehind_cons (by decide) (by decide),
      barsBehind_append_cons (by decide) (by decide), ih, List.length_cons, List.map_cons, List.sum_cons, separators]
    omega

theorem separators_row (cell : String) (cells : List String) :
    separators (row (cell :: cells)) = (cell :: cells).length + 1 + ((cell :: cells).map separators).sum := by
  rw [separators, row_toList, barsBehind_cells]
  exact Nat.add_right_comm ..

/-! ## Lines -/

/-- Is no line broken in a text?  Line feeds and carriage returns do so. -/
def Unbroken (text : String) : Prop := '\n' ∉ text.toList ∧ '\r' ∉ text.toList

/-- Is a text one line with its end? -/
def IsLine (text : String) : Prop := ∃ line, text = line ++ "\n" ∧ Unbroken line

theorem isLine_append_iff {line : String} : IsLine (line ++ "\n") ↔ Unbroken line := by
  refine ⟨?_, fun h => ⟨line, rfl, h⟩⟩
  rintro ⟨line', heq, h⟩
  rw [String.append_left_inj] at heq
  rwa [heq]

/-- A row is one line if no cell is broken. -/
theorem isLine_row_iff (cell : String) (cells : List String) :
    IsLine (row (cell :: cells)) ↔ ∀ c ∈ cell :: cells, Unbroken c := by
  have hrow : row (cell :: cells) =
      String.ofList ((cell :: cells).flatMap (fun c => '|' :: ' ' :: (c.toList ++ [' '])) ++ ['|']) ++ "\n" := by
    apply String.toList_inj.1
    rw [row_toList, String.toList_append, String.toList_ofList, List.append_assoc]
    rfl
  -- the bars and spaces around the cells break no line
  have hmem {d : Char} (hbar : d ≠ '|') (hspace : d ≠ ' ') :
      d ∉ (cell :: cells).flatMap (fun c => '|' :: ' ' :: (c.toList ++ [' '])) ++ ['|'] ↔
        ∀ c ∈ cell :: cells, d ∉ c.toList := by
    simp [List.mem_flatMap, hbar, hspace]
  rw [hrow, isLine_append_iff, Unbroken, String.toList_ofList, hmem (by decide) (by decide), hmem (by decide) (by decide),
    ← forall₂_and]
  rfl

/-- Does a row keep the shape that a header gives to its table? -/
structure Fits (header row : String) : Prop where
  isLine : IsLine row
  separators_eq : separators row = separators header

theorem fits_iff {header row : String} {loose : Nat} (h : separators row = separators header + loose) :
    Fits header row ↔ IsLine row ∧ loose = 0 := by
  constructor
  · intro hfits
    exact ⟨hfits.isLine, Nat.left_eq_add.1 (hfits.separators_eq.symm.trans h)⟩
  · rintro ⟨hline, rfl⟩
    exact ⟨hline, h⟩

/-! ## Cells -/

section Cells

variable {text : String} {limit : Nat}

theorem unbroken_escapeCell : Unbroken (escapeCell text) ↔ Unbroken text := by
  have hmem {c : Char} (hbar : c ≠ '|') (hslash : c ≠ '\\') : c ∈ (escapeCell text).toList ↔ c ∈ text.toList := by
    rw [escapeCell, mapText, String.toList_ofList, List.mem_flatMap]
    constructor
    · rintro ⟨d, hd, hc⟩
      split at hc
      · simp [hbar, hslash] at hc
      · rwa [List.mem_singleton.1 hc]
    · intro hc
      refine ⟨c, hc, ?_⟩
      rw [if_neg (by simpa using hbar)]
      exact List.mem_singleton_self c
  rw [Unbroken, Unbroken, hmem (by decide) (by decide), hmem (by decide) (by decide)]

theorem unbroken_code : Unbroken (code text) ↔ Unbroken text := by simp [Unbroken, code]

/-- What is shown on one line is made of the characters of the text that are no blanks, of spaces and of the sign for what is
cut. -/
theorem mem_oneLine {c : Char} (h : c ∈ (oneLine limit text).toList) :
    (c ∈ text.toList ∧ isBlank c = false) ∨ c = ' ' ∨ c = '…' := by
  have hjoined (hc : c ∈ joinWith [' '] (fields text.toList)) :
      (c ∈ text.toList ∧ isBlank c = false) ∨ c = ' ' ∨ c = '…' := by
    rcases mem_of_mem_joinWith hc with hc | ⟨piece, hpiece, hc⟩
    · exact .inr (.inl (List.mem_singleton.1 hc))
    · exact .inl (mem_of_mem_splitWhere (List.mem_of_mem_filter hpiece) hc)
  simp only [oneLine] at h
  split at h
  · exact hjoined (by simpa using h)
  · rw [String.toList_ofList, List.mem_append, List.mem_singleton] at h
    rcases h with h | h
    · exact hjoined (List.mem_of_mem_take h)
    · exact .inr (.inr h)

theorem looseBars_oneLine (h : '|' ∉ text.toList) : looseBars (oneLine limit text) = 0 := by
  refine looseBars_of_not_mem fun hbar => ?_
  rcases mem_oneLine hbar with ⟨hmem, -⟩ | hspace | hcut
  · exact h hmem
  · exact absurd hspace (by decide)
  · exact absurd hcut (by decide)

theorem unbroken_oneLine (limit : Nat) (text : String) : Unbroken (oneLine limit text) := by
  have hblank {c : Char} (hblank : isBlank c = true) (hspace : c ≠ ' ') (hcut : c ≠ '…') :
      c ∉ (oneLine limit text).toList := by
    intro h
    rcases mem_oneLine h with ⟨-, hno⟩ | rfl | rfl
    · rw [hblank] at hno
      cases hno
    · exact hspace rfl
    · exact hcut rfl
  exact ⟨hblank (by decide) (by decide) (by decide), hblank (by decide) (by decide) (by decide)⟩

/-- A cell that breaks no line and has no separators of its own. -/
structure PlainCell (text : String) : Prop where
  unbroken : Unbroken text
  separators_eq : separators text = 0

theorem plainCell_of_not_mem (hbar : '|' ∉ text.toList) (h : Unbroken text) : PlainCell text :=
  ⟨h, separators_of_not_mem hbar⟩

theorem PlainCell.code (h : PlainCell text) : PlainCell (code text) :=
  ⟨unbroken_code.2 h.unbroken, (separators_code text).trans h.separators_eq⟩

theorem toString_toList (n : Nat) : (toString n).toList = Nat.toDigits 10 n := Nat.toList_repr

theorem plainCell_toString (n : Nat) : PlainCell (toString n) := by
  refine plainCell_of_not_mem ?_ ⟨?_, ?_⟩ <;>
  · rw [toString_toList]
    exact not_mem_toDigits_ten (by decide) n

theorem plainCell_stageName (stage : Stage) : PlainCell stage.name := by
  refine plainCell_of_not_mem ?_ ⟨?_, ?_⟩ <;> cases stage <;> decide

theorem plainCell_statusName (status : StageStatus) : PlainCell status.name := by
  refine plainCell_of_not_mem ?_ ⟨?_, ?_⟩ <;> cases status <;> decide

end Cells

/-! ## The rows of the tables -/

theorem isLine_stageRow (o : StageOutcome) : IsLine (stageRow o) := by
  rw [stageRow, isLine_row_iff]
  simp only [List.forall_mem_cons, List.not_mem_nil, false_implies, implies_true, and_true]
  exact ⟨(plainCell_stageName _).code.unbroken, (plainCell_statusName _).code.unbroken, (plainCell_toString _).code.unbroken,
    unbroken_escapeCell.2 (unbroken_oneLine _ _)⟩

theorem separators_stageRow (o : StageOutcome) :
    separators (stageRow o) = separators stageHeader + looseBars (oneLine maxCell (o.message.getD "")) := by
  rw [stageRow, separators_row]
  simp only [List.map_cons, List.map_nil, List.sum_cons, List.sum_nil, (plainCell_stageName _).code.separators_eq,
    (plainCell_statusName _).code.separators_eq, (plainCell_toString _).code.separators_eq, separators_escapeCell,
    Nat.zero_add, Nat.add_zero]
  rfl

theorem fits_stageRow_iff (o : StageOutcome) :
    Fits stageHeader (stageRow o) ↔ looseBars (oneLine maxCell (o.message.getD "")) = 0 := by
  rw [fits_iff (separators_stageRow o), and_iff_right (isLine_stageRow o)]

/-- A bar that was escaped before is one cell too many. -/
example : separators (stageRow ⟨.load, .failed, some "a\\|b", 0⟩) = separators stageHeader + 1 := by decide

theorem plainCell_marker (canonicalId id : String) : PlainCell (if id == canonicalId then "★" else "") := by
  split <;> exact plainCell_of_not_mem (by decide) ⟨by decide, by decide⟩

theorem plainCell_answer (answer : Bool) : PlainCell (if answer then "yes" else "no") := by
  split <;> exact plainCell_of_not_mem (by decide) ⟨by decide, by decide⟩

theorem isLine_memberRow_iff (canonicalId : String) (m : MemberSummary) :
    IsLine (memberRow canonicalId m) ↔ Unbroken m.signature ∧ Unbroken m.location := by
  rw [memberRow, isLine_row_iff]
  simp only [List.forall_mem_cons, List.not_mem_nil, false_implies, implies_true, and_true, unbroken_code,
    unbroken_escapeCell, (plainCell_marker _ _).unbroken, (plainCell_toString _).unbroken, (plainCell_answer _).unbroken,
    true_and]

theorem separators_memberRow (canonicalId : String) (m : MemberSummary) :
    separators (memberRow canonicalId m) = separators memberHeader + (looseBars m.signature + looseBars m.location) := by
  rw [memberRow, separators_row]
  simp only [List.map_cons, List.map_nil, List.sum_cons, List.sum_nil, (plainCell_marker _ _).separators_eq,
    (plainCell_toString _).code.separators_eq, (plainCell_answer _).separators_eq, separators_code, separators_escapeCell,
    Nat.zero_add, Nat.add_zero]
  rfl

theorem fits_memberRow_iff (canonicalId : String) (m : MemberSummary) :
    Fits memberHeader (memberRow canonicalId m) ↔
      (Unbroken m.signature ∧ Unbroken m.location) ∧ looseBars m.signature = 0 ∧ looseBars m.location = 0 := by
  rw [fits_iff (separators_memberRow canonicalId m), isLine_memberRow_iff, Nat.add_eq_zero_iff]

theorem exists_errorRow_eq (e : ParseError) : ∃ line, PlainCell line ∧
    errorRow e = row [code (escapeCell e.filePath), code line, escapeCell (oneLine maxCell e.message)] := by
  refine ⟨_, ?_, rfl⟩
  split
  · exact plainCell_toString _
  · exact plainCell_of_not_mem (by decide) ⟨by decide, by decide⟩

theorem isLine_errorRow_iff (e : ParseError) : IsLine (errorRow e) ↔ Unbroken e.filePath := by
  obtain ⟨line, hline, hrow⟩ := exists_errorRow_eq e
  rw [hrow, isLine_row_iff]
  simp only [List.forall_mem_cons, List.not_mem_nil, false_implies, implies_true, and_true, unbroken_code,
    unbroken_escapeCell, hline.unbroken, unbroken_oneLine]

theorem separators_errorRow (e : ParseError) :
    separators (errorRow e) =
      separators errorHeader + (looseBars e.filePath + looseBars (oneLine maxCell e.message)) := by
  obtain ⟨line, hline, hrow⟩ := exists_errorRow_eq e
  rw [hrow, separators_row]
  simp only [List.map_cons, List.map_nil, List.sum_cons, List.sum_nil, hline.code.separators_eq, separators_code,
    separators_escapeCell, Nat.zero_add, Nat.add_zero]
  rfl

theorem fits_errorRow_iff (e : ParseError) :
    Fits errorHeader (errorRow e) ↔
      Unbroken e.filePath ∧ looseBars e.filePath = 0 ∧ looseBars (oneLine maxCell e.message) = 0 := by
  rw [fits_iff (separators_errorRow e), isLine_errorRow_iff, Nat.add_eq_zero_iff]

/-! ## The tables -/

/-- A table: its header, the line below it, and its rows. -/
structure Table where
  header : String
  divider : String
  rows : List String

def Table.text (t : Table) : String := t.header ++ t.divider ++ String.join t.rows

def Table.StandsIn (t : Table) (text : String) : Prop := ∃ before after, text = before ++ t.text ++ after

def stageTable (r : Report) : Table := ⟨stageHeader, "|---|---|---:|---|\n", r.stages.map stageRow⟩

def memberTable (c : ClusterReport) : Table :=
  ⟨memberHeader, "|---|---|---|---:|---|\n", c.members.map (memberRow c.canonicalId)⟩

def errorTable (r : Report) : Table := ⟨errorHeader, "|---|---:|---|\n", r.parseErrors.map errorRow⟩

section StandsIn

variable {t : Table} {text : String}

theorem Table.standsIn_text (t : Table) : t.StandsIn t.text :=
  ⟨"", "", by rw [String.empty_append, String.append_empty]⟩

theorem Table.standsIn_append (t : Table) (front : String) :
    t.StandsIn (front ++ t.header ++ t.divider ++ String.join t.rows) :=
  ⟨front, "", by rw [Table.text, String.append_empty, String.append_assoc, String.append_assoc, String.append_assoc]⟩

theorem Table.StandsIn.append_left (h : t.StandsIn text) (front : String) : t.StandsIn (front ++ text) := by
  obtain ⟨before, after, rfl⟩ := h
  exact ⟨front ++ before, after, by simp only [String.append_assoc]⟩

theorem Table.StandsIn.append_right (h : t.StandsIn text) (rest : String) : t.StandsIn (text ++ rest) := by
  obtain ⟨before, after, rfl⟩ := h
  exact ⟨before, after ++ rest, by simp only [String.append_assoc]⟩

theorem Table.StandsIn.join (h : t.StandsIn text) {texts : List String} (htext : text ∈ texts) :
    t.StandsIn (String.join texts) := by
  obtain ⟨before, after, rfl⟩ := List.append_of_mem htext
  rw [String.join_append, String.join_cons]
  exact (h.append_right _).append_left _

end StandsIn

theorem stageTable_standsIn (r : Report) : r.stageTable.StandsIn (stageSection r) :=
  (r.stageTable.standsIn_append _).append_right _

theorem memberTable_standsIn (c : ClusterReport) : (memberTable c).StandsIn (clusterPart c) :=
  (((memberTable c).standsIn_append _).append_right _).append_right _

theorem errorTable_standsIn {r : Report} (h : r.parseErrors ≠ []) : r.errorTable.StandsIn (errorSection r) := by
  have hempty : ¬r.parseErrors.isEmpty = true := by simpa using h
  have hsection : errorSection r = "## Parse errors\n\n" ++ (r.errorTable.text ++ "\n") :=
    congrArg ("## Parse errors\n\n" ++ ·) (if_neg hempty)
  exact hsection ▸ (r.errorTable.standsIn_text.append_right _).append_left _

/-- The tables of a report stand in its markdown; that of the parse errors, if there are any. -/
theorem tables_of_markdown? {r : Report} {text : String} (h : r.markdown? = some text) :
    r.stageTable.StandsIn text ∧ (∀ c ∈ r.clusters, (memberTable c).StandsIn text) ∧
      (r.parseErrors ≠ [] → r.errorTable.StandsIn text) := by
  obtain ⟨duplicates, -, rfl⟩ := Option.map_eq_some_iff.1 h
  refine ⟨?_, fun c hc => ?_, fun herrors => ?_⟩
  · exact ((((stageTable_standsIn r).append_left _).append_right _).append_right _).append_right _
  · have hcluster : (memberTable c).StandsIn (clusterSection r) :=
      ((memberTable_standsIn c).join (List.mem_map_of_mem hc)).append_left _
    exact ((hcluster.append_left _).append_right _).append_right _
  · exact ((errorTable_standsIn herrors).append_left _).append_right _

/-! ## Digests -/

def IsCuttable (digest : String) : Prop := (takeBytes? digestBytes digest.toList).isSome

theorem takeBytes?_of_narrow {s : List Char} (h : ∀ c ∈ s, c.utf8Size = 1) (n : Nat) :
    takeBytes? n s = some (s.take n) := by
  induction s generalizing n with
  | nil => cases n <;> rfl
  | cons c s ih =>
    cases n with
    | zero => rfl
    | succ n =>
      obtain ⟨hc, hs⟩ := List.forall_mem_cons.1 h
      rw [takeBytes?, hc, if_pos (Nat.le_add_left 1 n), Nat.add_sub_cancel, ih hs, Option.map_some, List.take_succ_cons]

theorem isSome_markdown?_iff {r : Report} :
    r.markdown?.isSome ↔ ∀ g ∈ r.duplicateFiles, IsCuttable g.contentHash := by
  rw [markdown?, Option.isSome_map, duplicateSection?, Option.isSome_map, Json.isSome_mapM_iff]
  refine forall₂_congr fun g _ => ?_
  rw [duplicateLine?, Option.isSome_map, IsCuttable]

end Consolidation.Report
