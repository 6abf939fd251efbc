/-
# `Proofs.Files.Entry` — what a change of a tree leaves to be read

Every change of a tree goes down to one folder and changes its entries there (`edit_eq_ok`).  A file that is written or
moved is read back with its bytes, and taking another file away from the same folder does not touch it.  So a file that
was saved by way of a temporary one is read back (`read_save`), as the two names are never the same.

A file can be saved exactly if its folder is there or can be made, and has no folder under either of the two names
(`save_eq_none_iff`); what is to be written makes no difference.

| change | what is asked of the folder |
| :-- | :-- |
| writing a file | it is there, and no folder in it has the name (`exists_write`) |
| moving a file | the file is there, and no folder has its new name (`exists_rename`) |
| taking a file away | the file is there (`exists_remove`) |

Saving a file makes its folders, writes a temporary file beside it and moves that; what was done before a fault stays.
Each step is one of these changes, so what can be read afterwards is told step by step: `read_write` for the temporary
file, `read_rename` for the file itself.
-/
import Consolidation.Files.Entry
import Consolidation.Proofs.Text.Lines

namespace Consolidation.Files.Entry

/-! ## The entries of a folder -/

theorem lookup_cons_eq_ite (name other : String) (e : Entry) (entries : List (String × Entry)) :
    List.lookup other ((name, e) :: entries) = if other = name then some e else entries.lookup other := by
  by_cases h : other = name
  · simp [h]
  · rw [List.lookup_cons, beq_false_of_ne h, if_neg h]

theorem lookup_insertNamed (name other : String) (e : Entry) (entries : List (String × Entry)) :
    (insertNamed name e entries).lookup other =
      if other = name then some e else entries.lookup other := by
  induction entries with
  | nil => exact lookup_cons_eq_ite name other e []
  | cons head rest ih =>
    obtain ⟨n, e'⟩ := head
    rw [insertNamed]
    by_cases hn : name = n
    · subst hn
      rw [if_pos rfl, lookup_cons_eq_ite, lookup_cons_eq_ite]
      by_cases h : other = name <;> simp [h]
    · rw [if_neg hn]
      by_cases hlt : name < n
      · rw [if_pos hlt, lookup_cons_eq_ite]
      · rw [if_neg hlt, lookup_cons_eq_ite, lookup_cons_eq_ite, ih]
        by_cases h : other = n
        · simp [h, Ne.symm hn]
        · simp [h]

theorem lookup_filter_ne {name other : String} (h : other ≠ name)
    (entries : List (String × Entry)) :
    (entries.filter (·.1 != name)).lookup other = entries.lookup other := by
  induction entries with
  | nil => rfl
  | cons head rest ih =>
    obtain ⟨n, e⟩ := head
    rw [lookup_cons_eq_ite, ← ih]
    by_cases hn : n = name
    · subst hn
      simp [h]
    · rw [List.filter_cons_of_pos (by simpa using hn), lookup_cons_eq_ite]

/-! ## Changes below a folder -/

variable {root root' : Entry} {path : Path}

theorem find_append {e : Entry} (h : root.find path = .ok e) (rest : Path) :
    root.find (path ++ rest) = e.find rest := by
  induction path generalizing root with
  | nil =>
    cases h
    rfl
  | cons name path ih =>
    cases root with
    | file bytes => cases h
    | folder entries =>
      rw [find] at h
      rw [List.cons_append, find]
      cases hlookup : entries.lookup name with
      | none => simp [hlookup] at h
      | some e' => exact ih (by simpa [hlookup] using h)

/-- A change of what is at a path is found there. -/
theorem edit_eq_ok {change : Entry → Except FileFault Entry} (h : root.edit change path = .ok root') :
    ∃ e e', root.find path = .ok e ∧ change e = .ok e' ∧ root'.find path = .ok e' := by
  induction path generalizing root root' with
  | nil => exact ⟨root, root', rfl, h, rfl⟩
  | cons name path ih =>
    cases root with
    | file bytes => cases h
    | folder entries =>
      rw [edit] at h
      cases hlookup : entries.lookup name with
      | none => simp [hlookup] at h
      | some below =>
        simp only [hlookup] at h
        cases hbelow : below.edit change path with
        | error fault => simp [hbelow, Except.map] at h
        | ok below' =>
          simp only [hbelow, Except.map] at h
          cases h
          obtain ⟨e, e', hfind, hchange, hfind'⟩ := ih hbelow
          refine ⟨e, e', ?_, hchange, ?_⟩
          · rw [find, hlookup]
            exact hfind
          · rw [find, lookup_insertNamed, if_pos rfl]
            exact hfind'

theorem exists_edit {change : Entry → Except FileFault Entry} {e : Entry}
    (h : root.find path = .ok e) (hchange : ∃ e', change e = .ok e') :
    ∃ root', root.edit change path = .ok root' := by
  induction path generalizing root with
  | nil =>
    cases h
    exact hchange
  | cons name path ih =>
    cases root with
    | file bytes => cases h
    | folder entries =>
      rw [find] at h
      cases hlookup : entries.lookup name with
      | none => simp [hlookup] at h
      | some below =>
        obtain ⟨below', hbelow⟩ := ih (by simpa [hlookup] using h)
        exact ⟨folder (insertNamed name below' entries), by simp [edit, hlookup, hbelow, Except.map]⟩

/-! ## Reading -/

variable {name : String} {bytes : List UInt8}

theorem read_append {entries : List (String × Entry)} (h : root.find path = .ok (.folder entries))
    (hfile : entries.lookup name = some (.file bytes)) :
    root.read (path ++ [name]) = .ok bytes := by
  have hfind : root.find (path ++ [name]) = .ok (.file bytes) := by
    rw [find_append h, find, hfile]
    rfl
  rw [read, hfind]

theorem read_eq_ok (h : root.read path = .ok bytes) : root.find path = .ok (.file bytes) := by
  unfold read at h
  split at h
  · next bytes' hfind =>
    cases h
    exact hfind
  · cases h
  · cases h

/-- A folder in which no folder has some name. -/
def Offers (root : Entry) (path : Path) (name : String) (entries : List (String × Entry)) : Prop :=
  root.find path = .ok (.folder entries) ∧ ∀ below, entries.lookup name ≠ some (.folder below)

theorem write_eq_ok (h : root.write (path ++ [name]) bytes = .ok root') :
    ∃ entries, Offers root path name entries ∧
      root'.find path = .ok (.folder (insertNamed name (.file bytes) entries)) := by
  rw [write, List.getLast?_concat, List.dropLast_concat] at h
  obtain ⟨e, e', hfind, hchange, hfind'⟩ := edit_eq_ok h
  cases e with
  | file _ => cases hchange
  | folder entries =>
    simp only at hchange
    split at hchange
    · cases hchange
    · next hnot =>
      cases hchange
      exact ⟨entries, ⟨hfind, hnot⟩, hfind'⟩

theorem exists_write {entries : List (String × Entry)} (h : Offers root path name entries)
    (bytes : List UInt8) : ∃ root', root.write (path ++ [name]) bytes = .ok root' := by
  rw [write, List.getLast?_concat, List.dropLast_concat]
  refine exists_edit h.1 ⟨.folder (insertNamed name (.file bytes) entries), ?_⟩
  simp only
  split
  · next below hlookup => exact absurd hlookup (h.2 below)
  · rfl

theorem read_write (h : root.write (path ++ [name]) bytes = .ok root') :
    root'.read (path ++ [name]) = .ok bytes := by
  obtain ⟨entries, -, hfind⟩ := write_eq_ok h
  exact read_append hfind (by rw [lookup_insertNamed, if_pos rfl])

theorem read_remove_ne {other : String} (hne : name ≠ other)
    (h : root.remove (path ++ [other]) = .ok root') (hread : root.read (path ++ [name]) = .ok bytes) :
    root'.read (path ++ [name]) = .ok bytes := by
  rw [remove, List.getLast?_concat, List.dropLast_concat] at h
  obtain ⟨e, e', hfind, hchange, hfind'⟩ := edit_eq_ok h
  cases e with
  | file _ => cases hchange
  | folder entries =>
    simp only at hchange
    split at hchange
    · cases hchange
      refine read_append hfind' ?_
      have hfile := read_eq_ok hread
      rw [find_append hfind, find] at hfile
      rw [lookup_filter_ne hne]
      cases hlookup : entries.lookup name with
      | none => simp [hlookup] at hfile
      | some e =>
        simp only [hlookup, find] at hfile
        cases hfile
        rfl
    · cases hchange

theorem read_rename {other : String} (hne : other ≠ name)
    (hread : root.read (path ++ [other]) = .ok bytes)
    (h : root.rename (path ++ [other]) (path ++ [name]) = .ok root') :
    root'.read (path ++ [name]) = .ok bytes := by
  rw [rename, hread] at h
  simp only [bind, Except.bind] at h
  split at h
  · cases h
  · next moved hmoved => exact read_remove_ne (Ne.symm hne) h (read_write hmoved)

/-! ## Saving -/

theorem temporaryName_ne (name : String) : temporaryName name ≠ name := by
  intro h
  have htail : ∀ stem : String, stem ++ ".json.tmp" = name → stem = name → False := by
    rintro stem h rfl
    simpa using congrArg String.length h
  unfold temporaryName at h
  simp only at h
  split at h
  · next before after hsplit =>
    obtain ⟨hname, hdot⟩ := Text.splitLast?_eq_some hsplit
    split at h
    · exact htail name h rfl
    · -- what stands behind the last dot of the name would be `json.tmp`
      have hchars := congrArg String.toList h
      rw [hname] at hchars
      simp only [String.toList_append, String.toList_ofList, List.append_cancel_left_eq] at hchars
      refine hdot ((List.cons.inj hchars).2 ▸ ?_)
      decide
  · exact htail name h rfl

/-- A file that was saved is read back. -/
theorem read_save (h : (root.save path bytes).2 = none) :
    (root.save path bytes).1.read path = .ok bytes := by
  rcases List.eq_nil_or_concat path with rfl | ⟨folder, name, rfl⟩
  · cases h
  · rw [List.concat_eq_append, save, List.getLast?_concat, List.dropLast_concat] at h ⊢
    simp only at h ⊢
    split at h
    · cases h
    · next made hmade =>
      split at h
      · cases h
      · next written hwritten =>
        split at h
        · cases h
        · next moved hmoved =>
          exact read_rename (temporaryName_ne name) (read_write hwritten) hmoved

theorem exists_remove {entries : List (String × Entry)} (h : root.find path = .ok (.folder entries))
    (hname : (entries.lookup name).isSome) : ∃ root', root.remove (path ++ [name]) = .ok root' := by
  rw [remove, List.getLast?_concat, List.dropLast_concat]
  exact exists_edit h ⟨.folder (entries.filter (·.1 != name)), if_pos hname⟩

theorem exists_rename {other : String} {entries : List (String × Entry)}
    (hread : root.read (path ++ [other]) = .ok bytes) (h : Offers root path name entries) :
    ∃ root', root.rename (path ++ [other]) (path ++ [name]) = .ok root' := by
  obtain ⟨moved, hmoved⟩ := exists_write h bytes
  obtain ⟨entries', ⟨hfind, -⟩, hfind'⟩ := write_eq_ok hmoved
  have hother : ((insertNamed name (.file bytes) entries').lookup other).isSome := by
    rw [lookup_insertNamed]
    split
    · rfl
    · have hfile := read_eq_ok hread
      rw [find_append hfind, find] at hfile
      cases hlookup : entries'.lookup other with
      | none => simp [hlookup] at hfile
      | some e => rfl
  obtain ⟨root', hremove⟩ := exists_remove hfind' hother
  refine ⟨root', ?_⟩
  rw [rename, hread]
  simp only [bind, Except.bind, hmoved]
  exact hremove

/-- A file can be saved if its folder is there or can be made, and no folder has one of its names. -/
theorem save_eq_none_iff :
    (root.save (path ++ [name]) bytes).2 = none ↔
      ∃ made entries, root.makeFolders path = .ok made ∧
        Offers made path (temporaryName name) entries ∧ Offers made path name entries := by
  rw [save, List.getLast?_concat, List.dropLast_concat]
  simp only
  constructor
  · intro h
    split at h
    · cases h
    · next made hmade =>
      split at h
      · cases h
      · next written hwritten =>
        split at h
        · cases h
        · next moved hmoved =>
          obtain ⟨entries, hoffers, hfind⟩ := write_eq_ok hwritten
          refine ⟨made, entries, hmade, hoffers, hoffers.1, fun below hlookup => ?_⟩
          rw [rename, read_write hwritten] at hmoved
          simp only [bind, Except.bind] at hmoved
          split at hmoved
          · cases hmoved
          · next target htarget =>
            obtain ⟨entries', ⟨hfind', hnot⟩, -⟩ := write_eq_ok htarget
            cases hfind.symm.trans hfind'
            refine hnot below ?_
            rw [lookup_insertNamed, if_neg (Ne.symm (temporaryName_ne name)), hlookup]
  · rintro ⟨made, entries, hmade, htemporary, hname⟩
    obtain ⟨written, hwritten⟩ := exists_write htemporary bytes
    obtain ⟨entries', hoffers, hfind⟩ := write_eq_ok hwritten
    cases hoffers.1.symm.trans hname.1
    have htarget : Offers written path name
        (insertNamed (temporaryName name) (.file bytes) entries) := by
      refine ⟨hfind, fun below hlookup => hname.2 below ?_⟩
      rwa [lookup_insertNamed, if_neg (Ne.symm (temporaryName_ne name))] at hlookup
    obtain ⟨moved, hmoved⟩ := exists_rename (read_write hwritten) htarget
    rw [hmade]
    simp only [hwritten, hmoved]

theorem save_eq_none_congr (root : Entry) (path : Path) (bytes bytes' : List UInt8) :
    (root.save path bytes).2 = none ↔ (root.save path bytes').2 = none := by
  rcases List.eq_nil_or_concat path with rfl | ⟨folder, name, rfl⟩
  · exact Iff.rfl
  · rw [List.concat_eq_append, save_eq_none_iff, save_eq_none_iff]

end Consolidation.Files.Entry
