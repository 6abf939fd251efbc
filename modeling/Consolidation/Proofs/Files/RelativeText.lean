/-
# `Proofs.Files.RelativeText` — which files go by the same text

The text by which a file goes is its path below the project with slashes for backslashes.  In names on a disk there is no
slash, but there may be backslashes, and so two files can go by one text: exactly if their paths have the same pieces,
when a backslash ends a piece as the end of a name does (`relativeText_eq_iff`).

A scan gives no file twice (`scan_nodup`).  So all scanned files go by different texts exactly if no two of them have the
same pieces (`nodup_relativeText_iff`), and they do if there is no backslash in their names.

| step | what it gives |
| :-- | :-- |
| the text of a path, with slashes | its pieces, with slashes between them (`map_slashed_toText`) |
| no piece holds a slash | the pieces can be told from the text (`Path.Named.splitOn_intercalate`) |
| no name holds a backslash | the pieces are the names (`Path.pieces_eq_map`) |

A name may consist of backslashes, or begin or end with one, so pieces may be empty; only a path as a whole is not one
empty piece.

That a scan gives no file twice is shown of trees with different names in each folder (`Proper`), which is what a file
system has; being in order (`Proofs.Files.Order`) is not asked for.
-/
import Mathlib.Data.List.Nodup
import Consolidation.Files.Scan
import Consolidation.Proofs.Files.Entry

namespace Consolidation.Files

/-! ## Pieces -/

/-- The pieces of a path: a backslash in a name ends one. -/
def Path.pieces (path : Path) : List (List Char) := path.flatMap (fun name => name.toList.splitOn '\\')

/-- A path of names as a file system has them: there is something in them, and no slash. -/
def Path.Named (path : Path) : Prop := ∀ name ∈ path, name ≠ "" ∧ '/' ∉ name.toList

/-- A character of a path in the text of the path. -/
def slashed (c : Char) : Char := if c == '\\' then '/' else c

theorem intercalate_append {sep : List Char} {l l' : List (List Char)} (h : l ≠ []) (h' : l' ≠ []) :
    sep.intercalate (l ++ l') = sep.intercalate l ++ sep ++ sep.intercalate l' := by
  induction l with
  | nil => exact absurd rfl h
  | cons a l ih =>
    cases l with
    | nil => rw [List.singleton_append, List.intercalate_cons_of_ne_nil h', List.intercalate_singleton]
    | cons b l =>
      rw [List.cons_append, List.intercalate_cons_of_ne_nil (by simp), ih (List.cons_ne_nil b l),
        List.intercalate_cons_cons]
      simp only [List.append_assoc]

theorem map_slashed (name : List Char) :
    name.map slashed = ['/'].intercalate (name.splitOn '\\') := by
  induction name with
  | nil => rfl
  | cons c name ih =>
    have hne : name.splitOn '\\' ≠ [] := List.splitOn_ne_nil _ _
    rw [List.map_cons, ih, List.splitOn_cons_eq_if_modifyHead, slashed]
    split
    · rw [List.intercalate_cons_of_ne_nil hne]
      rfl
    · obtain ⟨piece, pieces, hpieces⟩ := List.exists_cons_of_ne_nil hne
      rw [hpieces, List.modifyHead_cons, List.intercalate_cons_cons_left]

theorem Path.pieces_cons (name : String) (path : Path) :
    Path.pieces (name :: path) = name.toList.splitOn '\\' ++ path.pieces := rfl

theorem Path.pieces_ne_nil {path : Path} (h : path ≠ []) : path.pieces ≠ [] := by
  obtain ⟨name, path, rfl⟩ := List.exists_cons_of_ne_nil h
  rw [Path.pieces_cons]
  exact List.append_ne_nil_of_left_ne_nil (List.splitOn_ne_nil _ _) _

theorem map_slashed_toText (path : Path) :
    path.toText.toList.map slashed = ['/'].intercalate path.pieces := by
  rw [Path.toText, String.toList_intercalate]
  induction path with
  | nil => rfl
  | cons name path ih =>
    rw [Path.pieces_cons]
    cases path with
    | nil =>
      rw [List.map_singleton, List.intercalate_singleton, map_slashed]
      exact congrArg _ (List.append_nil _).symm
    | cons next path =>
      rw [intercalate_append (List.splitOn_ne_nil _ _) (Path.pieces_ne_nil (List.cons_ne_nil _ _)), ← ih,
        ← map_slashed, List.map_cons, List.map_cons, List.intercalate_cons_cons, List.map_append,
        List.map_append]
      rfl

theorem relativeText_toList (project path : Path) :
    (relativeText project path).toList = ['/'].intercalate (Path.pieces (path.drop project.length)) := by
  rw [relativeText, String.toList_ofList, ← map_slashed_toText]
  rfl

theorem mem_of_mem_splitOn {sep c : Char} {name piece : List Char} (hpiece : piece ∈ name.splitOn sep)
    (hc : c ∈ piece) : c ∈ name := by
  induction name generalizing piece with
  | nil =>
    obtain rfl := List.mem_singleton.1 hpiece
    exact hc
  | cons a name ih =>
    rw [List.splitOn_cons_eq_if_modifyHead] at hpiece
    split at hpiece
    · rcases List.mem_cons.1 hpiece with rfl | hpiece
      · cases hc
      · exact List.mem_cons_of_mem _ (ih hpiece hc)
    · obtain ⟨first, rest, hsplit⟩ := List.exists_cons_of_ne_nil (List.splitOn_ne_nil sep name)
      rw [hsplit, List.modifyHead_cons] at hpiece
      rw [hsplit] at ih
      rcases List.mem_cons.1 hpiece with rfl | hpiece
      · rcases List.mem_cons.1 hc with rfl | hc
        · exact List.mem_cons_self
        · exact List.mem_cons_of_mem _ (ih List.mem_cons_self hc)
      · exact List.mem_cons_of_mem _ (ih (List.mem_cons_of_mem _ hpiece) hc)

theorem Path.Named.not_mem_pieces {path : Path} (h : path.Named) {piece : List Char}
    (hpiece : piece ∈ path.pieces) : '/' ∉ piece := by
  obtain ⟨name, hname, hpiece⟩ := List.mem_flatMap.1 hpiece
  exact fun hslash => (h name hname).2 (mem_of_mem_splitOn hpiece hslash)

theorem Path.Named.pieces_ne_singleton_nil {path : Path} (h : path.Named) : path.pieces ≠ [[]] := by
  intro hpieces
  cases path with
  | nil => cases hpieces
  | cons name path =>
    refine (h name List.mem_cons_self).1 ?_
    have hname : (name.toList.splitOn '\\').length + (Path.pieces path).length = 1 := by
      rw [← List.length_append, ← Path.pieces_cons, hpieces]
      rfl
    have hne := List.length_pos_iff.2 (List.splitOn_ne_nil '\\' name.toList)
    have hnil : Path.pieces path = [] := List.length_eq_zero_iff.1 (by omega)
    rw [Path.pieces_cons, hnil, List.append_nil] at hpieces
    have hjoin : ['\\'].intercalate (name.toList.splitOn '\\') = name.toList :=
      List.intercalate_splitOn _
    rw [hpieces, List.intercalate_singleton] at hjoin
    exact String.toList_inj.1 hjoin.symm

theorem Path.Named.splitOn_intercalate {path : Path} (h : path.Named) :
    (['/'].intercalate path.pieces).splitOn '/' = if path = [] then [[]] else path.pieces := by
  split
  · next hnil =>
    subst hnil
    rfl
  · next hne =>
    exact List.splitOn_intercalate '/' (fun _ => h.not_mem_pieces) (Path.pieces_ne_nil hne)

theorem Path.Named.pieces_eq_of_intercalate {path path' : Path} (h : path.Named) (h' : path'.Named)
    (heq : ['/'].intercalate path.pieces = ['/'].intercalate path'.pieces) :
    path.pieces = path'.pieces := by
  have hsplit := congrArg (List.splitOn '/') heq
  rw [h.splitOn_intercalate, h'.splitOn_intercalate] at hsplit
  by_cases hnil : path = []
  · by_cases hnil' : path' = []
    · rw [hnil, hnil']
    · rw [if_pos hnil, if_neg hnil'] at hsplit
      exact absurd hsplit.symm h'.pieces_ne_singleton_nil
  · by_cases hnil' : path' = []
    · rw [if_neg hnil, if_pos hnil'] at hsplit
      exact absurd hsplit h.pieces_ne_singleton_nil
    · rwa [if_neg hnil, if_neg hnil'] at hsplit

/-- Two files of a project go by one text exactly if their paths below the project have the same pieces. -/
theorem relativeText_eq_iff {project path path' : Path} (h : Path.Named (path.drop project.length))
    (h' : Path.Named (path'.drop project.length)) :
    relativeText project path = relativeText project path' ↔
      Path.pieces (path.drop project.length) = Path.pieces (path'.drop project.length) := by
  rw [← String.toList_inj, relativeText_toList, relativeText_toList]
  exact ⟨h.pieces_eq_of_intercalate h', congrArg _⟩

theorem Path.pieces_eq_map {path : Path} (h : ∀ name ∈ path, '\\' ∉ name.toList) :
    path.pieces = path.map String.toList := by
  induction path with
  | nil => rfl
  | cons name path ih =>
    obtain ⟨hname, hpath⟩ := List.forall_mem_cons.1 h
    rw [Path.pieces_cons, List.splitOn_eq_singleton hname, ih hpath]
    rfl

/-! ## Trees -/

namespace Entry

mutual

/-- Has every folder different names of which there is something, without slashes? -/
def Proper : Entry → Prop
  | file _ => True
  | folder entries => (entries.map (·.1)).Nodup ∧ ProperAmong entries

def ProperAmong : List (String × Entry) → Prop
  | [] => True
  | (name, e) :: rest => (name ≠ "" ∧ '/' ∉ name.toList) ∧ e.Proper ∧ ProperAmong rest

end

theorem ProperAmong.of_lookup {entries : List (String × Entry)} (h : ProperAmong entries) {name : String}
    {e : Entry} (hlookup : entries.lookup name = some e) : e.Proper := by
  induction entries with
  | nil => cases hlookup
  | cons head rest ih =>
    obtain ⟨n, e'⟩ := head
    rw [ProperAmong] at h
    rw [lookup_cons_eq_ite] at hlookup
    split at hlookup
    · cases hlookup
      exact h.2.1
    · exact ih h.2.2 hlookup

theorem Proper.of_find {root e : Entry} (h : root.Proper) {path : Path}
    (hfind : root.find path = .ok e) : e.Proper := by
  induction path generalizing root with
  | nil =>
    cases hfind
    exact h
  | cons name path ih =>
    cases root with
    | file bytes => cases hfind
    | folder entries =>
      rw [find] at hfind
      rw [Proper] at h
      split at hfind
      · next below hlookup => exact ih (h.2.of_lookup hlookup) hfind
      · cases hfind

end Entry

/-! ## Scans -/

section Walk

variable (o : ScanOptions)

mutual

/-- A walk finds paths of names below the place where it starts. -/
theorem exists_of_mem_walk {rules : List FolderRules} {path : Path} {name : String} :
    ∀ {e : Entry}, e.Proper → ∀ p ∈ walk o rules path name e, ∃ below, p = path ++ below ∧ below.Named
  | .file bytes, _, p, hp => by
    rw [walk] at hp
    split at hp
    · obtain rfl := List.mem_singleton.1 hp
      exact ⟨[], (List.append_nil p).symm, nofun⟩
    · cases hp
  | .folder entries, h, p, hp => by
    rw [Entry.Proper] at h
    rw [walk] at hp
    obtain ⟨name, -, below, rfl, hnamed⟩ := exists_of_mem_walkAll h.2 p hp
    exact ⟨name :: below, rfl, hnamed⟩

theorem exists_of_mem_walkAll {rules : List FolderRules} {above : Path} :
    ∀ {entries : List (String × Entry)}, Entry.ProperAmong entries →
      ∀ p ∈ walkAll o rules above entries, ∃ name ∈ entries.map (·.1), ∃ below : Path,
        p = above ++ name :: below ∧ Path.Named (name :: below)
  | [], _, p, hp => by
    rw [walkAll] at hp
    cases hp
  | (name, e) :: rest, h, p, hp => by
    rw [Entry.ProperAmong] at h
    obtain ⟨hname, he, hrest⟩ := h
    rw [walkAll, List.mem_append] at hp
    rcases hp with hp | hp
    · split at hp
      · obtain ⟨below, rfl, hnamed⟩ := exists_of_mem_walk he p hp
        exact ⟨name, List.mem_cons_self, below, by simp, List.forall_mem_cons.2 ⟨hname, hnamed⟩⟩
      · cases hp
    · obtain ⟨other, hother, below, heq, hnamed⟩ := exists_of_mem_walkAll hrest p hp
      exact ⟨other, List.mem_cons_of_mem _ hother, below, heq, hnamed⟩

end

mutual

theorem nodup_walk {rules : List FolderRules} {path : Path} {name : String} :
    ∀ {e : Entry}, e.Proper → (walk o rules path name e).Nodup
  | .file bytes, _ => by
    rw [walk]
    split
    · exact List.nodup_singleton _
    · exact List.nodup_nil
  | .folder entries, h => by
    rw [Entry.Proper] at h
    rw [walk]
    exact nodup_walkAll h.1 h.2

theorem nodup_walkAll {rules : List FolderRules} {above : Path} :
    ∀ {entries : List (String × Entry)}, (entries.map (·.1)).Nodup → Entry.ProperAmong entries →
      (walkAll o rules above entries).Nodup
  | [], _, _ => by
    rw [walkAll]
    exact List.nodup_nil
  | (name, e) :: rest, hnodup, h => by
    rw [Entry.ProperAmong] at h
    obtain ⟨hname, he, hrest⟩ := h
    obtain ⟨hnot, hnodup⟩ := List.nodup_cons.1 hnodup
    rw [walkAll]
    refine List.Nodup.append ?_ (nodup_walkAll hnodup hrest) ?_
    · split
      · exact nodup_walk he
      · exact List.nodup_nil
    · intro p hp hp'
      obtain ⟨other, hother, below', rfl, -⟩ := exists_of_mem_walkAll o hrest p hp'
      split at hp
      · -- the names behind `above` are different
        obtain ⟨below, heq, -⟩ := exists_of_mem_walk o he _ hp
        rw [List.append_assoc] at heq
        obtain ⟨rfl, -⟩ := List.cons.inj (List.append_cancel_left heq)
        exact hnot hother
      · cases hp

end

end Walk

section Scan

variable {o : ScanOptions} {project : Path} {tree : Entry}

theorem exists_perm_scan (o : ScanOptions) (project : Path) {tree e : Entry}
    (hfind : tree.find project = .ok e) :
    ∃ found, found.Sublist (walk o (rulesAbove [] project tree) project (project.getLastD "") e) ∧
      (scan o project tree).Perm found := by
  unfold scan
  rw [hfind]
  dsimp only
  split
  · exact ⟨_, List.take_sublist _ _, List.mergeSort_perm _ _⟩
  · exact ⟨_, .refl _, List.mergeSort_perm _ _⟩

/-- A walk that meets the files in order is the scan. -/
theorem scan_eq_of_pairwise {e : Entry} (hfind : tree.find project = .ok e) (hlimit : o.limit = none)
    {found : List Path}
    (hwalk : walk o (rulesAbove [] project tree) project (project.getLastD "") e = found)
    (hsorted : found.Pairwise (fun path path' => path.before path' = true)) :
    scan o project tree = found := by
  rw [scan, hfind]
  dsimp only
  rw [hlimit, hwalk]
  exact List.mergeSort_of_pairwise hsorted

theorem scan_nodup (h : tree.Proper) : (scan o project tree).Nodup := by
  cases hfind : tree.find project with
  | error fault =>
    rw [scan, hfind]
    exact List.nodup_nil
  | ok e =>
    obtain ⟨found, hsub, hperm⟩ := exists_perm_scan o project hfind
    exact hperm.nodup_iff.2 ((nodup_walk o (h.of_find hfind)).sublist hsub)

theorem named_of_mem_scan (h : tree.Proper) {path : Path} (hpath : path ∈ scan o project tree) :
    path = project ++ path.drop project.length ∧ Path.Named (path.drop project.length) := by
  cases hfind : tree.find project with
  | error fault =>
    rw [scan, hfind] at hpath
    cases hpath
  | ok e =>
    obtain ⟨found, hsub, hperm⟩ := exists_perm_scan o project hfind
    obtain ⟨below, rfl, hnamed⟩ :=
      exists_of_mem_walk o (h.of_find hfind) path (hsub.subset (hperm.mem_iff.1 hpath))
    rw [List.drop_left]
    exact ⟨rfl, hnamed⟩

/-- Have no two files of a scan the same pieces? -/
def PiecesApart (o : ScanOptions) (project : Path) (tree : Entry) : Prop :=
  ∀ path ∈ scan o project tree, ∀ path' ∈ scan o project tree,
    Path.pieces (path.drop project.length) = Path.pieces (path'.drop project.length) → path = path'

/-- All scanned files go by different texts exactly if no two of them have the same pieces. -/
theorem nodup_relativeText_iff (h : tree.Proper) :
    ((scan o project tree).map (relativeText project)).Nodup ↔ PiecesApart o project tree := by
  rw [List.nodup_map_iff_inj_on (scan_nodup h)]
  refine forall₂_congr fun path hpath => forall₂_congr fun path' hpath' => ?_
  rw [relativeText_eq_iff (named_of_mem_scan h hpath).2 (named_of_mem_scan h hpath').2]

theorem piecesApart_of_no_backslash (h : tree.Proper)
    (hnames : ∀ path ∈ scan o project tree, ∀ name ∈ path.drop project.length, '\\' ∉ name.toList) :
    PiecesApart o project tree := by
  intro path hpath path' hpath' heq
  rw [Path.pieces_eq_map (hnames path hpath), Path.pieces_eq_map (hnames path' hpath')] at heq
  have hbelow := (List.map_injective_iff.2 fun _ _ => String.toList_inj.1) heq
  rw [(named_of_mem_scan h hpath).1, (named_of_mem_scan h hpath').1, hbelow]

end Scan

end Consolidation.Files
