/-
# `Proofs.Files.Scan` — what a scan finds, and that a limit cuts it

In a tree whose folders are in order the walk meets its files in the order of their paths, name by name (`pairwise_walk`):
a file that comes later leaves an earlier one at a name, and the names ascend.  So sorting what was found changes nothing,
and a walk that stops early has found the first files of the whole scan.

What the walk passes over it passes over with all that is below it.  That agrees with a condition on paths
(`mem_walk_iff`): a file is found if its name is looked for and nothing on the way to it is passed over.  Of the two
reasons for passing over an entry the ignore files and the dots depend on the place in the tree (`Entry.hides`), the
excluded names do not.  Both together give the files of a scan (`scan_limit`).

## What is proved

For all options, every project and every tree whose folders are in order:

* for each `k`, a scan with the limit `k` gives the first `k` files of the scan without one;
* the scan without a limit gives paths that ascend strictly, name by name;
* it gives just the files to which a walk comes (`Entry.Shows`), whose name is looked for and on whose way below the
  project no name is excluded.

## How it goes

A walk goes into a folder entry by entry, and what it finds in one stands together; so by induction over the tree what it
finds ascends.  The limit is not looked at by the walk itself (`walk_limit`), but by the scan, which cuts what was found
and sorts it.
-/
import Consolidation.Files.Scan
import Consolidation.Proofs.Files.Order

namespace Consolidation.Files

/-! ## The order of paths -/

theorem Path.before_iff_not_lt {path path' : Path} : path.before path' = true ↔ ¬path' < path := by
  induction path generalizing path' with
  | nil => simp [Path.before]
  | cons a as ih =>
    cases path' with
    | nil => simp [Path.before]
    | cons b bs =>
      rw [Path.before, List.cons_lt_cons_iff]
      by_cases h : a = b
      · subst h
        rw [if_pos rfl, ih, or_iff_right (String.lt_irrefl a), and_iff_right rfl]
      · have hnames : a < b ↔ ¬b < a := ⟨fun hlt hgt => String.lt_irrefl a (String.lt_trans hlt hgt), fun hnot => by grind⟩
        simp [h, Ne.symm h, hnames]

theorem Path.lt_of_branch {above path path' : Path} {name name' : String} (h : name < name')
    (hpath : above ++ [name] <+: path) (hpath' : above ++ [name'] <+: path') : path < path' := by
  obtain ⟨below, rfl⟩ := hpath
  obtain ⟨below', rfl⟩ := hpath'
  rw [List.append_assoc, List.append_assoc]
  exact List.append_left_lt (List.cons_lt_cons_iff.2 (.inl h))

/-! ## The rules on the way -/

theorem rulesAbove_cons {name : String} {entries : List (String × Entry)} {e : Entry}
    (h : entries.lookup name = some e) (above rest : Path) :
    rulesAbove above (name :: rest) (.folder entries) =
      rulesAbove (above ++ [name]) rest e ++ [.ofFolder above (.folder entries)] := by
  have hentry : (Entry.folder entries).entries.lookup name = some e := h
  rw [rulesAbove, hentry]

theorem rulesAbove_append {tree e : Entry} {path : Path} (h : tree.find path = .ok e) (above rest : Path) :
    rulesAbove above (path ++ rest) tree = rulesAbove (above ++ path) rest e ++ rulesAbove above path tree := by
  induction path generalizing tree above with
  | nil =>
    cases h
    simp [rulesAbove]
  | cons name path ih =>
    cases tree with
    | file bytes => cases h
    | folder entries =>
      rw [Entry.find] at h
      split at h
      · next below hlookup =>
        rw [List.cons_append, rulesAbove_cons hlookup, rulesAbove_cons hlookup, ih h]
        simp
      · cases h

/-- Do the ignore files around an entry, or else a dot in front of its name, keep a walk away from it? -/
def isHidden (rules : List FolderRules) (path : Path) (name : String) (isFolder : Bool) : Bool :=
  match FolderRules.verdict? rules path isFolder with
  | some .leftOut => true
  | some .keptIn => false
  | none => name.toList.head? == some '.'

theorem visits_iff {o : ScanOptions} {rules : List FolderRules} {path : Path} {name : String} {isFolder : Bool} :
    o.visits rules path name isFolder = true ↔ name ∉ o.excluded ∧ isHidden rules path name isFolder = false := by
  rw [ScanOptions.visits, isHidden]
  cases FolderRules.verdict? rules path isFolder with
  | none => simp [bne]
  | some verdict => cases verdict <;> simp

/-- Is what is at a path hidden by the ignore files and the dots in a tree? -/
def Entry.hides (tree : Entry) (path : Path) : Bool :=
  isHidden (rulesAbove [] path tree) path (path.getLastD "") (tree.hasFolder path)

/-- A file below a project that a walk comes to: nothing on the way from the project to it is hidden. -/
structure Entry.Shows (tree : Entry) (project path : Path) : Prop where
  below : project <+: path
  hasFile : tree.hasFile path = true
  not_hides : ∀ part, project <+: part → part <+: path → part ≠ project → tree.hides part = false

/-! ## What a walk finds -/

section Walk

variable (o : ScanOptions)

theorem mem_walkAll_iff {rules : List FolderRules} {above path : Path} {entries : List (String × Entry)} :
    path ∈ walkAll o rules above entries ↔
      ∃ entry ∈ entries, o.visits rules (above ++ [entry.1]) entry.1 entry.2.isFolder = true ∧
        path ∈ walk o rules (above ++ [entry.1]) entry.1 entry.2 := by
  induction entries with
  | nil => simp [walkAll]
  | cons head rest ih =>
    obtain ⟨name, e⟩ := head
    rw [walkAll, List.mem_append, ih, List.exists_mem_cons_iff]
    refine or_congr ?_ Iff.rfl
    dsimp only
    split
    · next hvisits => simp [hvisits]
    · next hvisits => simp [hvisits]

mutual

theorem prefix_of_mem_walk {rules : List FolderRules} {path found : Path} {name : String} :
    ∀ {e : Entry}, found ∈ walk o rules path name e → path <+: found
  | .file _, h => by
    rw [walk] at h
    split at h
    · rw [List.mem_singleton.1 h]
    · cases h
  | .folder entries, h => by
    rw [walk] at h
    obtain ⟨name, -, hprefix⟩ := exists_prefix_of_mem_walkAll h
    exact (List.prefix_append _ _).trans hprefix

theorem exists_prefix_of_mem_walkAll {rules : List FolderRules} {above found : Path} :
    ∀ {entries : List (String × Entry)}, found ∈ walkAll o rules above entries →
      ∃ entry ∈ entries, above ++ [entry.1] <+: found
  | [], h => by
    rw [walkAll] at h
    cases h
  | (name, e) :: rest, h => by
    rw [walkAll, List.mem_append] at h
    rcases h with h | h
    · split at h
      · exact ⟨_, List.mem_cons_self, prefix_of_mem_walk h⟩
      · cases h
    · obtain ⟨entry, hentry, hprefix⟩ := exists_prefix_of_mem_walkAll h
      exact ⟨entry, List.mem_cons_of_mem _ hentry, hprefix⟩

end

mutual

/-- A walk meets its files in the order of their paths. -/
theorem pairwise_walk {rules : List FolderRules} {path : Path} {name : String} :
    ∀ {e : Entry}, e.Ordered → (walk o rules path name e).Pairwise (· < ·)
  | .file _, _ => by
    rw [walk]
    split
    · exact List.pairwise_singleton _ _
    · exact .nil
  | .folder entries, h => by
    rw [Entry.Ordered] at h
    rw [walk]
    exact pairwise_walkAll h.1 h.2

theorem pairwise_walkAll {rules : List FolderRules} {above : Path} :
    ∀ {entries : List (String × Entry)}, entries.Pairwise (fun a b => a.1 < b.1) → Entry.OrderedAmong entries →
      (walkAll o rules above entries).Pairwise (· < ·)
  | [], _, _ => by
    rw [walkAll]
    exact .nil
  | (name, e) :: rest, hnames, h => by
    rw [Entry.OrderedAmong] at h
    obtain ⟨hfirst, hrest⟩ := List.pairwise_cons.1 hnames
    rw [walkAll]
    refine List.pairwise_append.2 ⟨?_, pairwise_walkAll hrest h.2, ?_⟩
    · split
      · exact pairwise_walk h.1
      · exact .nil
    · intro found hfound later hlater
      obtain ⟨entry, hentry, hprefix⟩ := exists_prefix_of_mem_walkAll o hlater
      split at hfound
      · exact Path.lt_of_branch (hfirst entry hentry) (prefix_of_mem_walk o hfound) hprefix
      · cases hfound

end

mutual

theorem walk_limit (limit : Option Nat) {rules : List FolderRules} {path : Path} {name : String} :
    ∀ {e : Entry}, walk { o with limit := limit } rules path name e = walk o rules path name e
  | .file _ => by
    rw [walk, walk]
    rfl
  | .folder entries => by
    rw [walk, walk]
    exact walkAll_limit limit

theorem walkAll_limit (limit : Option Nat) {rules : List FolderRules} {above : Path} :
    ∀ {entries : List (String × Entry)}, walkAll { o with limit := limit } rules above entries = walkAll o rules above entries
  | [] => by rw [walkAll, walkAll]
  | (name, e) :: rest => by
    rw [walkAll, walkAll, walkAll_limit limit, walk_limit limit]
    rfl

end

/-- Does a walk from an entry at a path visit what is at the end of a path below it? -/
def Passes (rules : List FolderRules) (path : Path) (e : Entry) (below : Path) : Prop :=
  o.visits (rulesAbove path below e ++ rules) (path ++ below) (below.getLastD "") (e.hasFolder below) = true

theorem passes_cons_iff {rules : List FolderRules} {path : Path} {entries : List (String × Entry)} {name : String}
    {e : Entry} (h : entries.lookup name = some e) {below : Path} (hne : below ≠ []) :
    Passes o rules path (.folder entries) (name :: below) ↔
      Passes o (.ofFolder path (.folder entries) :: rules) (path ++ [name]) e below := by
  have hlast : (name :: below).getLastD "" = below.getLastD "" := by
    rw [List.getLastD_cons, List.getLastD_eq_getLast?, List.getLastD_eq_getLast?, List.getLast?_eq_some_getLast hne]
    rfl
  have hfolder : (Entry.folder entries).hasFolder (name :: below) = e.hasFolder below := by
    rw [Entry.hasFolder, Entry.hasFolder, Entry.find, h]
  rw [Passes, Passes, hlast, hfolder, rulesAbove_cons h, List.append_assoc, List.append_assoc]
  rfl

theorem passes_singleton_iff {rules : List FolderRules} {path : Path} {entries : List (String × Entry)} {name : String}
    {e : Entry} (h : entries.lookup name = some e) :
    Passes o rules path (.folder entries) [name] ↔
      o.visits (.ofFolder path (.folder entries) :: rules) (path ++ [name]) name e.isFolder = true := by
  have hfolder : (Entry.folder entries).hasFolder [name] = e.isFolder := by
    rw [Entry.hasFolder, Entry.find, h]
    rfl
  rw [Passes, hfolder, rulesAbove_cons h]
  rfl

theorem forall_passes_cons_iff {rules : List FolderRules} {path below : Path} {entries : List (String × Entry)}
    {name : String} {e : Entry} (h : entries.lookup name = some e) :
    (∀ part, part <+: name :: below → part ≠ [] → Passes o rules path (.folder entries) part) ↔
      o.visits (.ofFolder path (.folder entries) :: rules) (path ++ [name]) name e.isFolder = true ∧
        ∀ part, part <+: below → part ≠ [] →
          Passes o (.ofFolder path (.folder entries) :: rules) (path ++ [name]) e part := by
  constructor
  · intro hpasses
    refine ⟨(passes_singleton_iff o h).1 ?_, fun part hpart hne => (passes_cons_iff o h hne).1 ?_⟩
    · exact hpasses [name] (List.cons_prefix_cons.2 ⟨rfl, List.nil_prefix⟩) (List.cons_ne_nil _ _)
    · exact hpasses (name :: part) (List.cons_prefix_cons.2 ⟨rfl, hpart⟩) (List.cons_ne_nil _ _)
  · rintro ⟨hvisits, hpasses⟩ part hpart hne
    rcases List.prefix_cons_iff.1 hpart with rfl | ⟨part, rfl, hbelow⟩
    · exact absurd rfl hne
    · by_cases hnil : part = []
      · subst hnil
        exact (passes_singleton_iff o h).2 hvisits
      · exact (passes_cons_iff o h hnil).2 (hpasses part hbelow hnil)

theorem not_mem_walk_folder {rules : List FolderRules} {path : Path} {name : String} {entries : List (String × Entry)} :
    path ∉ walk o rules path name (.folder entries) := by
  intro hmem
  rw [walk] at hmem
  obtain ⟨entry, -, hprefix⟩ := exists_prefix_of_mem_walkAll o hmem
  have hlength := hprefix.length_le
  rw [List.length_append, List.length_singleton] at hlength
  omega

/-- What is found in a folder is found in the entry through which its path goes. -/
theorem mem_walk_folder_iff {rules : List FolderRules} {path below : Path} {name n : String}
    {entries : List (String × Entry)} (hnames : entries.Pairwise (fun a b => a.1 < b.1)) :
    path ++ n :: below ∈ walk o rules path name (.folder entries) ↔
      ∃ e, entries.lookup n = some e ∧
        o.visits (.ofFolder path (.folder entries) :: rules) (path ++ [n]) n e.isFolder = true ∧
        (path ++ [n]) ++ below ∈ walk o (.ofFolder path (.folder entries) :: rules) (path ++ [n]) n e := by
  rw [walk, mem_walkAll_iff, List.append_assoc, List.singleton_append]
  constructor
  · rintro ⟨⟨n', e⟩, hentry, hvisits, hfound⟩
    obtain ⟨rest, hrest⟩ := prefix_of_mem_walk o hfound
    rw [List.append_assoc] at hrest
    obtain ⟨rfl, -⟩ := List.cons.inj (List.append_cancel_left hrest)
    exact ⟨e, (Entry.lookup_eq_some_iff hnames).2 hentry, hvisits, hfound⟩
  · rintro ⟨e, hlookup, hvisits, hfound⟩
    exact ⟨(n, e), (Entry.lookup_eq_some_iff hnames).1 hlookup, hvisits, hfound⟩

/-- A file is found if its name is looked for, and everything on the way to it is visited. -/
theorem mem_walk_iff {rules : List FolderRules} {path below : Path} {name : String} {e : Entry} (h : e.Ordered) :
    path ++ below ∈ walk o rules path name e ↔
      e.hasFile below = true ∧ o.includes (below.getLastD name) = true ∧
        ∀ part, part <+: below → part ≠ [] → Passes o rules path e part := by
  induction below generalizing rules path name e with
  | nil =>
    cases e with
    | file bytes =>
      rw [walk]
      simp +contextual [Entry.hasFile, Entry.find, Entry.isFolder]
    | folder entries =>
      rw [List.append_nil]
      refine iff_of_false (not_mem_walk_folder o) ?_
      rintro ⟨hfile, -⟩
      cases hfile
  | cons n below ih =>
    cases e with
    | file bytes =>
      have hnot : path ++ n :: below ∉ walk o rules path name (.file bytes) := by
        rw [walk]
        split <;> simp
      refine iff_of_false hnot ?_
      rintro ⟨hfile, -⟩
      cases hfile
    | folder entries =>
      rw [mem_walk_folder_iff o (Entry.ordered_folder_iff.1 h).1]
      cases hlookup : entries.lookup n with
      | none => simp [Entry.hasFile, Entry.find, hlookup]
      | some e =>
        have hfile : (Entry.folder entries).hasFile (n :: below) = e.hasFile below := by
          rw [Entry.hasFile, Entry.hasFile, Entry.find, hlookup]
        simp only [Option.some.injEq, exists_eq_left', hfile, List.getLastD_cons, ih (h.of_lookup hlookup),
          forall_passes_cons_iff o hlookup]
        constructor
        · rintro ⟨hvisits, hfound, hincludes, hpasses⟩
          exact ⟨hfound, hincludes, hvisits, hpasses⟩
        · rintro ⟨hfound, hincludes, hvisits, hpasses⟩
          exact ⟨hvisits, hfound, hincludes, hpasses⟩

end Walk

/-! ## Scans -/

section Scan

variable {o : ScanOptions} {project path : Path} {tree e : Entry}

theorem Entry.find_append_of_error {fault : FileFault} (h : tree.find path = .error fault) (rest : Path) :
    tree.find (path ++ rest) = .error fault := by
  induction path generalizing tree with
  | nil => cases h
  | cons name path ih =>
    cases tree with
    | file bytes => exact h
    | folder entries =>
      rw [Entry.find] at h
      rw [List.cons_append, Entry.find]
      split at h
      · next below hlookup => exact ih h
      · exact h

theorem passes_iff (hfind : tree.find project = .ok e) {part : Path} (hne : part ≠ []) :
    Passes o (rulesAbove [] project tree) project e part ↔
      part.getLastD "" ∉ o.excluded ∧ tree.hides (project ++ part) = false := by
  have hfolder : tree.hasFolder (project ++ part) = e.hasFolder part := by
    rw [Entry.hasFolder, Entry.hasFolder, Entry.find_append hfind]
  have hlast : (project ++ part).getLastD "" = part.getLastD "" := by
    rw [List.getLastD_eq_getLast?, List.getLastD_eq_getLast?, List.getLast?_append_of_ne_nil _ hne]
  rw [Passes, visits_iff, Entry.hides, rulesAbove_append hfind, hfolder, hlast]
  rfl

/-- The names of a path are the last names of the paths on the way to it. -/
theorem forall_getLastD_iff {names : Path} {p : String → Prop} :
    (∀ part, part <+: names → part ≠ [] → p (part.getLastD "")) ↔ ∀ name ∈ names, p name := by
  constructor
  · intro h name hname
    obtain ⟨front, back, rfl⟩ := List.append_of_mem hname
    have hpart := h (front ++ [name]) ⟨back, by simp⟩ (by simp)
    rwa [List.getLastD_concat] at hpart
  · intro h part hpart hne
    have hlast := List.getLast?_eq_some_getLast hne
    rw [List.getLastD_eq_getLast?, hlast]
    exact h _ (hpart.subset (List.mem_of_getLast? hlast))

theorem mem_walk_project_iff (h : tree.Ordered) (hfind : tree.find project = .ok e) :
    path ∈ walk o (rulesAbove [] project tree) project (project.getLastD "") e ↔
      tree.Shows project path ∧ o.includes (path.getLastD "") = true ∧
        ∀ name ∈ path.drop project.length, name ∉ o.excluded := by
  by_cases hbelow : project <+: path
  · obtain ⟨below, rfl⟩ := hbelow
    have hfile : tree.hasFile (project ++ below) = e.hasFile below := by
      rw [Entry.hasFile, Entry.hasFile, Entry.find_append hfind]
    have hlast : (project ++ below).getLastD "" = below.getLastD (project.getLastD "") := by
      cases below with
      | nil => rw [List.append_nil]; rfl
      | cons name below =>
        rw [List.getLastD_eq_getLast?, List.getLastD_eq_getLast?, List.getLast?_append_of_ne_nil _ (List.cons_ne_nil _ _),
          List.getLast?_eq_some_getLast (List.cons_ne_nil _ _)]
        rfl
    rw [mem_walk_iff o (h.of_find hfind), List.drop_left, hlast, ← forall_getLastD_iff]
    constructor
    · rintro ⟨hfound, hincludes, hpasses⟩
      refine ⟨⟨List.prefix_append _ _, hfile.trans hfound, ?_⟩, hincludes, fun part hpart hne => ?_⟩
      · rintro _ ⟨part, rfl⟩ hpart hne
        have hnil : part ≠ [] := by
          rintro rfl
          exact hne (List.append_nil project)
        exact ((passes_iff hfind hnil).1 (hpasses part ((List.prefix_append_right_inj project).1 hpart) hnil)).2
      · exact ((passes_iff hfind hne).1 (hpasses part hpart hne)).1
    · rintro ⟨hshows, hincludes, hexcluded⟩
      refine ⟨hfile.symm.trans hshows.hasFile, hincludes, fun part hpart hne => ?_⟩
      refine (passes_iff hfind hne).2 ⟨hexcluded part hpart hne, ?_⟩
      refine hshows.not_hides _ (List.prefix_append _ _) ((List.prefix_append_right_inj project).2 hpart) ?_
      simpa using hne
  · exact iff_of_false (fun hmem => hbelow (prefix_of_mem_walk o hmem)) fun hshows => hbelow hshows.1.below

theorem mergeSort_before_eq_self {found : List Path} (h : found.Pairwise (· < ·)) : found.mergeSort Path.before = found := by
  refine List.mergeSort_of_pairwise (h.imp fun {path path'} hlt => Path.before_iff_not_lt.2 fun hgt => ?_)
  exact List.lt_irrefl path (List.lt_trans hlt hgt)

theorem scan_eq (h : tree.Ordered) (hfind : tree.find project = .ok e) :
    scan o project tree =
      let found := walk o (rulesAbove [] project tree) project (project.getLastD "") e
      match o.limit with
      | some limit => found.take limit
      | none => found := by
  have hwalk : (walk o (rulesAbove [] project tree) project (project.getLastD "") e).Pairwise (· < ·) :=
    pairwise_walk o (h.of_find hfind)
  rw [scan, hfind]
  dsimp only
  cases o.limit with
  | none => exact mergeSort_before_eq_self hwalk
  | some limit => exact mergeSort_before_eq_self (hwalk.sublist (List.take_sublist _ _))

theorem scan_of_error {fault : FileFault} (hfind : tree.find project = .error fault) : scan o project tree = [] := by
  rw [scan, hfind]

/-- A scan with a limit gives the first files of the scan without one, and that gives the files that a walk comes to, whose
name is looked for and on whose way below the project there is no excluded name, each once and in the order of paths. -/
theorem scan_limit (o : ScanOptions) (project : Path) {tree : Entry} (h : tree.Ordered) :
    (∀ k, scan { o with limit := some k } project tree = (scan { o with limit := none } project tree).take k) ∧
      (scan { o with limit := none } project tree).Pairwise (· < ·) ∧
      ∀ path, path ∈ scan { o with limit := none } project tree ↔
        tree.Shows project path ∧ o.includes (path.getLastD "") = true ∧
          ∀ name ∈ path.drop project.length, name ∉ o.excluded := by
  cases hfind : tree.find project with
  | error fault =>
    rw [scan_of_error hfind]
    refine ⟨fun k => by rw [scan_of_error hfind, List.take_nil], .nil, fun path => ?_⟩
    refine iff_of_false List.not_mem_nil fun ⟨hshows, _⟩ => ?_
    obtain ⟨below, rfl⟩ := hshows.below
    have hfile := hshows.hasFile
    rw [Entry.hasFile, Entry.find_append_of_error hfind] at hfile
    cases hfile
  | ok e =>
    rw [scan_eq h hfind]
    refine ⟨fun k => ?_, pairwise_walk _ (h.of_find hfind), fun path => mem_walk_project_iff h hfind⟩
    rw [scan_eq h hfind]
    dsimp only
    rw [walk_limit o (some k), walk_limit o none]

end Scan

/-! ### A folder beside a file of its name with an extension -/

namespace Sample

/-- As text `a.py` stands before `a/b.py`, as a path behind it. -/
def mixed : Entry :=
  .folder [(".gitignore", .file "made/\n".toUTF8.toList), (".x.py", .file []), ("a", .folder [("b.py", .file [])]),
    ("a.py", .file []), ("made", .folder [("c.py", .file [])]), ("venv", .folder [("d.py", .file [])])]

def mixedFiles : List (Path × List UInt8) :=
  [(["venv", "d.py"], []), (["made", "c.py"], []), (["a.py"], []), (["a", "b.py"], []), ([".x.py"], []),
    ([".gitignore"], "made/\n".toUTF8.toList)]

theorem ordered_mixed : mixed.Ordered := by
  have hfiles : mixedFiles.foldlM (fun tree file => tree.place file.1 file.2) Entry.empty = .ok mixed := rfl
  exact Entry.ordered_placeAll hfiles

theorem isSome_pythonFiles : (ScanOptions.ofPatterns? ["*.py"] ["venv"] none).isSome = true := by decide

def pythonFiles : ScanOptions := (ScanOptions.ofPatterns? ["*.py"] ["venv"] none).get isSome_pythonFiles

theorem walk_mixed : walk pythonFiles [] [] "" mixed = [["a", "b.py"], ["a.py"]] := by decide +kernel

end Sample

theorem scan_limit_mixed :
    Sample.mixed.Ordered ∧ scan { Sample.pythonFiles with limit := some 1 } [] Sample.mixed = [["a", "b.py"]] ∧
      (scan { Sample.pythonFiles with limit := none } [] Sample.mixed).Pairwise (· < ·) ∧
      Sample.mixed.Shows [] ["a.py"] ∧ ¬(Sample.mixed.Shows [] ["made", "c.py"]) := by
  have hfull : scan { Sample.pythonFiles with limit := none } [] Sample.mixed = [["a", "b.py"], ["a.py"]] := by
    rw [scan_eq Sample.ordered_mixed rfl]
    exact (walk_limit Sample.pythonFiles none).trans Sample.walk_mixed
  obtain ⟨hlimit, hsorted, hmem⟩ := scan_limit Sample.pythonFiles [] Sample.ordered_mixed
  refine ⟨Sample.ordered_mixed, ?_, hsorted, ?_, ?_⟩
  · rw [hlimit, hfull]
    rfl
  · exact ((hmem _).1 (by rw [hfull]; decide)).1
  · intro hshows
    have hfound := (hmem _).2 ⟨hshows, by decide, by decide⟩
    rw [hfull] at hfound
    revert hfound
    decide

end Consolidation.Files
