/-
# `Proofs.Files.Order` — folders that keep their entries in the order of names

`Entry.Ordered` says that in every folder of a tree the names ascend, so that no name stands twice.  Every change of a
tree keeps that: a new entry is put into its place (`ordered_insertNamed`), a change goes down to one folder and puts what
it made of it back (`Ordered.edit`), and a file that is saved, faults on the way included, leaves an ordered tree
(`Ordered.save`).  So all trees that are filled from the empty one are ordered (`ordered_placeAll`).

Being ordered is a property of each folder by itself and of all that is below it, so it is defined by recursion over the
tree, together with that for the entries of a folder.  Names ascend strictly; looking up a name then finds the one entry
under it (`lookup_eq_some_iff`).
-/
import Consolidation.Proofs.Files.Entry

namespace Consolidation.Files.Entry

mutual

/-- Do the names of the entries ascend in every folder? -/
def Ordered : Entry → Prop
  | file _ => True
  | folder entries => entries.Pairwise (fun a b => a.1 < b.1) ∧ OrderedAmong entries

def OrderedAmong : List (String × Entry) → Prop
  | [] => True
  | (_, e) :: rest => e.Ordered ∧ OrderedAmong rest

end

/-! ## The entries of a folder -/

section Entries

variable {entries : List (String × Entry)} {name : String} {e : Entry}

theorem ordered_file (bytes : List UInt8) : (file bytes).Ordered := by
  rw [Ordered]
  trivial

theorem orderedAmong_iff : OrderedAmong entries ↔ ∀ entry ∈ entries, entry.2.Ordered := by
  induction entries with
  | nil => simp [OrderedAmong]
  | cons head rest ih => simp [OrderedAmong, ih]

theorem ordered_folder_iff :
    (folder entries).Ordered ↔
      entries.Pairwise (fun a b => a.1 < b.1) ∧ ∀ entry ∈ entries, entry.2.Ordered := by
  rw [Ordered, orderedAmong_iff]

theorem ordered_empty : empty.Ordered := ordered_folder_iff.2 ⟨.nil, nofun⟩

/-- In ascending order no name stands twice, so that looking it up finds what stands under it. -/
theorem lookup_eq_some_iff (h : entries.Pairwise (fun a b => a.1 < b.1)) :
    entries.lookup name = some e ↔ (name, e) ∈ entries := by
  induction entries with
  | nil => simp
  | cons head rest ih =>
    obtain ⟨n, e'⟩ := head
    obtain ⟨hfirst, hrest⟩ := List.pairwise_cons.1 h
    rw [lookup_cons_eq_ite, List.mem_cons, Prod.mk.injEq]
    by_cases hname : name = n
    · subst hname
      have hnot : (name, e) ∉ rest := fun hmem => String.lt_irrefl name (hfirst _ hmem)
      simp [hnot, eq_comm]
    · simp [hname, ih hrest]

theorem Ordered.of_lookup (h : (folder entries).Ordered) (hlookup : entries.lookup name = some e) : e.Ordered := by
  obtain ⟨hnames, hall⟩ := ordered_folder_iff.1 h
  exact hall _ ((lookup_eq_some_iff hnames).1 hlookup)

theorem mem_insertNamed {entry : String × Entry} (h : entry ∈ insertNamed name e entries) :
    entry = (name, e) ∨ entry ∈ entries := by
  induction entries with
  | nil => exact .inl (List.mem_singleton.1 h)
  | cons head rest ih =>
    obtain ⟨n, e'⟩ := head
    rw [insertNamed] at h
    split at h
    · rcases List.mem_cons.1 h with h | h
      · exact .inl h
      · exact .inr (List.mem_cons_of_mem _ h)
    · split at h
      · exact List.mem_cons.1 h
      · rcases List.mem_cons.1 h with h | h
        · exact .inr (h ▸ List.mem_cons_self)
        · exact (ih h).imp_right (List.mem_cons_of_mem _)

theorem pairwise_insertNamed (h : entries.Pairwise (fun a b => a.1 < b.1)) :
    (insertNamed name e entries).Pairwise (fun a b => a.1 < b.1) := by
  induction entries with
  | nil => exact List.pairwise_singleton _ _
  | cons head rest ih =>
    obtain ⟨n, e'⟩ := head
    obtain ⟨hfirst, hrest⟩ := List.pairwise_cons.1 h
    rw [insertNamed]
    split
    · next heq =>
      subst heq
      exact List.pairwise_cons.2 ⟨hfirst, hrest⟩
    · next hne =>
      split
      · next hlt =>
        refine List.pairwise_cons.2 ⟨fun entry hentry => ?_, h⟩
        rcases List.mem_cons.1 hentry with rfl | hentry
        · exact hlt
        · exact String.lt_trans hlt (hfirst entry hentry)
      · next hnot =>
        have hgt : n < name := by grind
        refine List.pairwise_cons.2 ⟨fun entry hentry => ?_, ih hrest⟩
        rcases mem_insertNamed hentry with rfl | hentry
        · exact hgt
        · exact hfirst entry hentry

/-- A folder stays ordered when an ordered tree is put into its place. -/
theorem ordered_insertNamed (h : (folder entries).Ordered) (he : e.Ordered) :
    (folder (insertNamed name e entries)).Ordered := by
  obtain ⟨hnames, hall⟩ := ordered_folder_iff.1 h
  refine ordered_folder_iff.2 ⟨pairwise_insertNamed hnames, fun entry hentry => ?_⟩
  rcases mem_insertNamed hentry with rfl | hentry
  · exact he
  · exact hall entry hentry

theorem ordered_filter (h : (folder entries).Ordered) (p : String × Entry → Bool) :
    (folder (entries.filter p)).Ordered := by
  obtain ⟨hnames, hall⟩ := ordered_folder_iff.1 h
  exact ordered_folder_iff.2 ⟨hnames.filter p, fun entry hentry => hall entry (List.mem_filter.1 hentry).1⟩

end Entries

/-! ## Changes of a tree -/

section Changes

variable {root root' : Entry} {path : Path} {bytes : List UInt8}

theorem exists_of_bind_eq_ok {ε α β : Type} {first : Except ε α} {next : α → Except ε β} {result : β}
    (h : (first >>= next) = .ok result) : ∃ a, first = .ok a ∧ next a = .ok result := by
  cases first with
  | error e => cases h
  | ok a => exact ⟨a, rfl, h⟩

theorem Ordered.of_find {e : Entry} (h : root.Ordered) (hfind : root.find path = .ok e) : e.Ordered := by
  induction path generalizing root with
  | nil =>
    cases hfind
    exact h
  | cons name path ih =>
    cases root with
    | file bytes => cases hfind
    | folder entries =>
      rw [find] at hfind
      split at hfind
      · next below hlookup => exact ih (h.of_lookup hlookup) hfind
      · cases hfind

/-- A change that keeps the order of what it changes keeps that of the tree. -/
theorem Ordered.edit {change : Entry → Except FileFault Entry} (h : root.Ordered)
    (hchange : ∀ e e', e.Ordered → change e = .ok e' → e'.Ordered)
    (hedit : root.edit change path = .ok root') : root'.Ordered := by
  induction path generalizing root root' with
  | nil => exact hchange root root' h hedit
  | cons name path ih =>
    cases root with
    | file bytes => cases hedit
    | folder entries =>
      rw [Entry.edit] at hedit
      split at hedit
      · next below hlookup =>
        cases hbelow : below.edit change path with
        | error fault =>
          rw [hbelow] at hedit
          cases hedit
        | ok below' =>
          rw [hbelow] at hedit
          cases hedit
          exact ordered_insertNamed h (ih (h.of_lookup hlookup) hbelow)
      · cases hedit

theorem Ordered.write (h : root.Ordered) (hwrite : root.write path bytes = .ok root') : root'.Ordered := by
  unfold Entry.write at hwrite
  split at hwrite
  · cases hwrite
  · next name hname =>
    refine h.edit (fun e e' he hchange => ?_) hwrite
    cases e with
    | file _ => cases hchange
    | folder entries =>
      dsimp only at hchange
      split at hchange
      · cases hchange
      · cases hchange
        exact ordered_insertNamed he (ordered_file bytes)

theorem Ordered.remove (h : root.Ordered) (hremove : root.remove path = .ok root') : root'.Ordered := by
  unfold Entry.remove at hremove
  split at hremove
  · cases hremove
    exact ordered_empty
  · next name hname =>
    refine h.edit (fun e e' he hchange => ?_) hremove
    cases e with
    | file _ => cases hchange
    | folder entries =>
      dsimp only at hchange
      split at hchange
      · cases hchange
        exact ordered_filter he _
      · cases hchange

theorem Ordered.makeFolders (h : root.Ordered) (hmake : root.makeFolders path = .ok root') : root'.Ordered := by
  induction path generalizing root root' with
  | nil =>
    cases root with
    | file bytes => cases hmake
    | folder entries =>
      cases hmake
      exact h
  | cons name path ih =>
    cases root with
    | file bytes => cases hmake
    | folder entries =>
      rw [Entry.makeFolders] at hmake
      have hbelow : ((entries.lookup name).getD empty).Ordered := by
        cases hlookup : entries.lookup name with
        | none => exact ordered_empty
        | some e => exact h.of_lookup hlookup
      cases hmade : ((entries.lookup name).getD empty).makeFolders path with
      | error fault =>
        rw [hmade] at hmake
        cases hmake
      | ok below =>
        rw [hmade] at hmake
        cases hmake
        exact ordered_insertNamed h (ih hbelow hmade)

theorem Ordered.rename {source target : Path} (h : root.Ordered) (hrename : root.rename source target = .ok root') :
    root'.Ordered := by
  obtain ⟨bytes, -, hrename⟩ := exists_of_bind_eq_ok hrename
  obtain ⟨moved, hwrite, hremove⟩ := exists_of_bind_eq_ok hrename
  exact (h.write hwrite).remove hremove

theorem Ordered.place (h : root.Ordered) (hplace : root.place path bytes = .ok root') : root'.Ordered := by
  obtain ⟨made, hmake, hwrite⟩ := exists_of_bind_eq_ok hplace
  exact (h.makeFolders hmake).write hwrite

/-- Saving keeps the order, also where it comes to a fault half way. -/
theorem Ordered.save (h : root.Ordered) (path : Path) (bytes : List UInt8) : (root.save path bytes).1.Ordered := by
  unfold Entry.save
  split
  · exact h
  · split
    · exact h
    · next made hmake =>
      have hmade := h.makeFolders hmake
      dsimp only
      split
      · exact hmade
      · next written hwrite =>
        have hwritten := hmade.write hwrite
        split
        · exact hwritten
        · next moved hrename => exact hwritten.rename hrename

/-- A tree that is filled file by file is ordered. -/
theorem ordered_placeAll {files : List (Path × List UInt8)}
    (h : files.foldlM (fun tree file => tree.place file.1 file.2) empty = .ok root) : root.Ordered := by
  suffices hfrom : ∀ start : Entry, start.Ordered →
      files.foldlM (fun tree file => tree.place file.1 file.2) start = .ok root → root.Ordered from
    hfrom empty ordered_empty h
  clear h
  induction files with
  | nil =>
    intro start hstart h
    cases h
    exact hstart
  | cons file files ih =>
    intro start hstart h
    rw [List.foldlM_cons] at h
    obtain ⟨placed, hplace, hrest⟩ := exists_of_bind_eq_ok h
    exact ih placed (hstart.place hplace) hrest

end Changes

end Consolidation.Files.Entry
