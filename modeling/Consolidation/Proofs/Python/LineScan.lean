/-
# `Proofs.Python.LineScan` — the lines and names of scanned definitions

The definitions that the line scanner finds start on lines of the text, each one behind the one before
(`scanLines_pairwise`, `scanLines_le`), and their names are words (`scanLines_name`).

The scan goes on behind the header that it has found, so lines ascend (`scanFrom_pairwise`) and stay within the text
(`scanFrom_bounds`); a name is what the pattern for a header takes of a line, and consists of letters, digits and
underscores.
-/
import Mathlib.Data.List.TakeWhile
import Consolidation.Python.LineScan

namespace Consolidation.Python

namespace Line

/-! ## Lines -/

theorem continuation?_le {first : Line} {rest : List Line} {more : Nat}
    (h : continuation? first rest = some more) : more ≤ rest.length := by
  unfold continuation? at h
  split at h
  · cases h
    exact Nat.zero_le _
  · obtain ⟨i, hi, rfl⟩ := Option.map_eq_some_iff.1 h
    obtain ⟨hlt, -⟩ := List.findIdx?_eq_some_iff_getElem.1 hi
    rw [List.length_take] at hlt
    omega

theorem header?_le {first : Line} {rest : List Line} {start : HeaderStart} {more : Nat}
    (h : header? first rest = some (start, more)) : more ≤ rest.length := by
  unfold header? at h
  obtain ⟨start', -, h⟩ := Option.bind_eq_some_iff.1 h
  obtain ⟨more', hmore, h⟩ := Option.bind_eq_some_iff.1 h
  cases h
  exact continuation?_le hmore

theorem scanFrom_bounds (number : Nat) (lines : List Line) :
    ∀ d ∈ scanFrom number lines, number ≤ d.firstLine ∧ d.firstLine < number + lines.length := by
  induction number, lines using scanFrom.induct with
  | case1 => simp [scanFrom]
  | case2 number first rest start more hheader ih =>
    have hmore := header?_le hheader
    intro d hd
    rw [scanFrom, hheader] at hd
    rcases List.mem_cons.1 hd with rfl | hd
    · simp [definition]
    · obtain ⟨hlow, hhigh⟩ := ih d hd
      rw [List.length_drop] at hhigh
      rw [List.length_cons]
      omega
  | case3 number first rest hheader ih =>
    intro d hd
    rw [scanFrom, hheader] at hd
    obtain ⟨hlow, hhigh⟩ := ih d hd
    rw [List.length_cons]
    omega

theorem scanFrom_pairwise (number : Nat) (lines : List Line) :
    (scanFrom number lines).Pairwise (fun a b => a.firstLine < b.firstLine) := by
  induction number, lines using scanFrom.induct with
  | case1 => simp [scanFrom]
  | case2 number first rest start more hheader ih =>
    rw [scanFrom, hheader]
    refine List.pairwise_cons.2 ⟨?_, ih⟩
    intro d hd
    have := (scanFrom_bounds _ _ d hd).1
    show number < d.firstLine
    omega
  | case3 number first rest hheader ih =>
    rw [scanFrom, hheader]
    exact ih

/-! ## Names -/

theorem leadingName?_word {s name rest : List Char} (h : leadingName? s = some (name, rest)) :
    ∀ c ∈ name, Text.isWordChar c = true := by
  unfold leadingName? at h
  split at h
  · split at h
    · obtain ⟨rfl, -⟩ := Prod.mk.inj (Option.some.inj h)
      exact fun c hc => List.mem_takeWhile_imp hc
    · cases h
  · cases h

theorem headerStart?_name {line : Line} {start : HeaderStart} (h : headerStart? line = some start) :
    ∀ c ∈ start.name, Text.isWordChar c = true := by
  simp only [headerStart?, Option.bind_eq_bind, Option.bind_eq_some_iff] at h
  obtain ⟨afterDef, -, blanks, -, ⟨name, afterName⟩, hname, rest, -, heq⟩ := h
  rw [← Option.some.inj heq]
  exact leadingName?_word hname

theorem scanFrom_name (number : Nat) (lines : List Line) :
    ∀ d ∈ scanFrom number lines, ∀ c ∈ d.name, Text.isWordChar c = true := by
  induction number, lines using scanFrom.induct with
  | case1 => simp [scanFrom]
  | case2 number first rest start more hheader ih =>
    intro d hd
    rw [scanFrom, hheader] at hd
    rcases List.mem_cons.1 hd with rfl | hd
    · obtain ⟨start', hstart, h⟩ := Option.bind_eq_some_iff.1 hheader
      obtain ⟨more', -, h⟩ := Option.bind_eq_some_iff.1 h
      cases h
      exact headerStart?_name hstart
    · exact ih d hd
  | case3 number first rest hheader ih =>
    rw [scanFrom, hheader]
    exact ih

end Line

/-! ## Texts -/

theorem scanLines_le (source : List Char) :
    ∀ d ∈ scanLines source, d.firstLine ≤ (Text.lines source).length := by
  intro d hd
  obtain ⟨-, h⟩ := Line.scanFrom_bounds _ _ d hd
  rw [List.length_map] at h
  omega

theorem scanLines_pairwise (source : List Char) :
    (scanLines source).Pairwise (fun a b => a.firstLine < b.firstLine) :=
  Line.scanFrom_pairwise _ _

theorem scanLines_name (source : List Char) :
    ∀ d ∈ scanLines source, ∀ c ∈ d.name, Text.isWordChar c = true :=
  Line.scanFrom_name _ _

end Consolidation.Python
