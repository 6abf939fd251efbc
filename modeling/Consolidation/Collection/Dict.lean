/-
# `Collection.Dict` — finite maps with text keys, in key order

A dictionary is its list of entries, strictly sorted by key, so two dictionaries with the same
look-ups are the same value (`Dict.ext_find?`).  Every operation is described by what it does to
look-ups (`find?_insert`, `find?_erase`); the entries themselves are the order in which a
dictionary is written out.
-/
namespace Consolidation

/-- Entries strictly sorted by key. -/
def SortedByKey {β : Type} (entries : List (String × β)) : Prop :=
  entries.Pairwise (fun a b => a.1 < b.1)

/-- A finite map with text keys. -/
structure Dict (β : Type) where
  entries : List (String × β)
  sorted : SortedByKey entries

namespace Dict

variable {β γ : Type}

/-! ## Entry lists -/

/-- The value under `key` in an entry list. -/
def lookupEntry (key : String) : List (String × β) → Option β
  | [] => none
  | (k, v) :: rest => if k = key then some v else lookupEntry key rest

/-- Puts `value` under `key`, in key order, replacing what was there. -/
def insertEntry (key : String) (value : β) : List (String × β) → List (String × β)
  | [] => [(key, value)]
  | (k, v) :: rest =>
    if key < k then (key, value) :: (k, v) :: rest
    else if k < key then (k, v) :: insertEntry key value rest
    else (key, value) :: rest

/-- Removes the entry under `key`. -/
def eraseEntry (key : String) (entries : List (String × β)) : List (String × β) :=
  entries.filter (fun e => decide (e.1 ≠ key))

theorem fst_mem_insertEntry {key k : String} {value : β} {entries : List (String × β)}
    {e : String × β} (he : e ∈ insertEntry key value entries) (hk : e.1 = k) :
    k = key ∨ ∃ e' ∈ entries, e'.1 = k := by
  induction entries with
  | nil =>
    simp only [insertEntry, List.mem_singleton] at he
    subst he
    exact .inl hk.symm
  | cons x rest ih =>
    obtain ⟨kx, vx⟩ := x
    simp only [insertEntry] at he
    split at he
    · rcases List.mem_cons.1 he with rfl | he
      · exact .inl hk.symm
      · exact .inr ⟨e, he, hk⟩
    · split at he
      · rcases List.mem_cons.1 he with rfl | he
        · exact .inr ⟨_, List.mem_cons_self, hk⟩
        · rcases ih he with h | ⟨e', he', h⟩
          · exact .inl h
          · exact .inr ⟨e', List.mem_cons_of_mem _ he', h⟩
      · rcases List.mem_cons.1 he with rfl | he
        · exact .inl hk.symm
        · exact .inr ⟨e, List.mem_cons_of_mem _ he, hk⟩

theorem sorted_insertEntry (key : String) (value : β) {entries : List (String × β)}
    (h : SortedByKey entries) : SortedByKey (insertEntry key value entries) := by
  induction entries with
  | nil => simp [insertEntry, SortedByKey]
  | cons x rest ih =>
    obtain ⟨k, v⟩ := x
    have hx : ∀ e ∈ rest, k < e.1 := (List.pairwise_cons.1 h).1
    have hr : SortedByKey rest := (List.pairwise_cons.1 h).2
    simp only [insertEntry]
    split
    · next hlt =>
      refine List.pairwise_cons.2 ⟨?_, h⟩
      intro e he
      rcases List.mem_cons.1 he with rfl | he
      · exact hlt
      · exact String.lt_trans hlt (hx e he)
    · split
      · next _ hgt =>
        refine List.pairwise_cons.2 ⟨?_, ih hr⟩
        intro e he
        rcases fst_mem_insertEntry he rfl with h' | ⟨e', he', h'⟩
        · exact h' ▸ hgt
        · exact h' ▸ hx e' he'
      · next h1 h2 =>
        have : key = k := String.le_antisymm (String.not_lt.1 h2) (String.not_lt.1 h1)
        subst this
        exact List.pairwise_cons.2 ⟨hx, hr⟩

theorem sorted_eraseEntry (key : String) {entries : List (String × β)}
    (h : SortedByKey entries) : SortedByKey (eraseEntry key entries) :=
  List.Pairwise.filter _ h

theorem lookupEntry_insertEntry (key k : String) (value : β) (entries : List (String × β)) :
    lookupEntry k (insertEntry key value entries) =
      if key = k then some value else lookupEntry k entries := by
  induction entries with
  | nil => simp [insertEntry, lookupEntry]
  | cons x rest ih =>
    obtain ⟨kx, vx⟩ := x
    simp only [insertEntry]
    split
    · simp [lookupEntry]
    · split
      · next _ hgt =>
        simp only [lookupEntry, ih]
        by_cases h1 : kx = k
        · subst h1
          have : key ≠ kx := fun e => String.lt_irrefl _ (e ▸ hgt)
          simp [this]
        · simp [h1]
      · next h1 h2 =>
        have : key = kx := String.le_antisymm (String.not_lt.1 h2) (String.not_lt.1 h1)
        subst this
        simp only [lookupEntry]
        split <;> simp_all

theorem lookupEntry_eraseEntry (key k : String) (entries : List (String × β)) :
    lookupEntry k (eraseEntry key entries) = if key = k then none else lookupEntry k entries := by
  induction entries with
  | nil => simp [eraseEntry, lookupEntry]
  | cons x rest ih =>
    obtain ⟨kx, vx⟩ := x
    simp only [eraseEntry, List.filter_cons] at ih ⊢
    by_cases hx : kx = key
    · subst hx
      simp only [ne_eq, not_true_eq_false, decide_false, Bool.false_eq_true, if_false, ih,
        lookupEntry]
      by_cases hk : kx = k <;> simp [hk]
    · simp only [ne_eq, hx, not_false_eq_true, decide_true, if_true, lookupEntry, ih]
      by_cases hk : kx = k
      · subst hk
        simp [Ne.symm hx]
      · simp [hk]

theorem lookupEntry_eq_some_iff {key : String} {value : β} {entries : List (String × β)}
    (h : SortedByKey entries) : lookupEntry key entries = some value ↔ (key, value) ∈ entries := by
  induction entries with
  | nil => simp [lookupEntry]
  | cons x rest ih =>
    obtain ⟨k, v⟩ := x
    have hx : ∀ e ∈ rest, k < e.1 := (List.pairwise_cons.1 h).1
    have hr : SortedByKey rest := (List.pairwise_cons.1 h).2
    simp only [lookupEntry]
    by_cases hk : k = key
    · subst hk
      simp only [if_true, Option.some.injEq, List.mem_cons, Prod.mk.injEq, true_and]
      constructor
      · intro e
        exact .inl e.symm
      · rintro (e | he)
        · exact e.symm
        · exact absurd (hx _ he) (String.lt_irrefl _)
    · simp only [hk, if_false, ih hr, List.mem_cons, Prod.mk.injEq]
      constructor
      · exact .inr
      · rintro (⟨e, _⟩ | he)
        · exact absurd e.symm hk
        · exact he

/-- Sorted entry lists with the same entries are the same list. -/
theorem entries_ext {a b : List (String × β)} (ha : SortedByKey a) (hb : SortedByKey b)
    (h : ∀ e, e ∈ a ↔ e ∈ b) : a = b := by
  induction a generalizing b with
  | nil =>
    cases b with
    | nil => rfl
    | cons y _ => exact absurd ((h y).2 List.mem_cons_self) (by simp)
  | cons x a ih =>
    cases b with
    | nil => exact absurd ((h x).1 List.mem_cons_self) (by simp)
    | cons y b =>
      have hxa := (List.pairwise_cons.1 ha).1
      have hyb := (List.pairwise_cons.1 hb).1
      have hxy : x = y := by
        rcases List.mem_cons.1 ((h x).1 List.mem_cons_self) with e | hx
        · exact e
        · rcases List.mem_cons.1 ((h y).2 List.mem_cons_self) with e | hy
          · exact e.symm
          · exact absurd (String.lt_trans (hyb x hx) (hxa y hy)) (String.lt_irrefl _)
      subst hxy
      congr 1
      refine ih (List.pairwise_cons.1 ha).2 (List.pairwise_cons.1 hb).2 fun e => ?_
      constructor
      · intro he
        rcases List.mem_cons.1 ((h e).1 (List.mem_cons_of_mem _ he)) with rfl | h'
        · exact absurd (hxa _ he) (String.lt_irrefl _)
        · exact h'
      · intro he
        rcases List.mem_cons.1 ((h e).2 (List.mem_cons_of_mem _ he)) with rfl | h'
        · exact absurd (hyb _ he) (String.lt_irrefl _)
        · exact h'

/-! ## Dictionaries -/

/-- The dictionary without entries. -/
def empty : Dict β := ⟨[], List.Pairwise.nil⟩

instance : EmptyCollection (Dict β) := ⟨empty⟩

instance : Inhabited (Dict β) := ⟨empty⟩

instance [DecidableEq β] : DecidableEq (Dict β) := fun a b =>
  if h : a.entries = b.entries then
    .isTrue (by cases a; cases b; cases h; rfl)
  else .isFalse (fun e => h (congrArg entries e))

/-- The value under `key`, if there is one. -/
def find? (d : Dict β) (key : String) : Option β := lookupEntry key d.entries

def contains (d : Dict β) (key : String) : Bool := (d.find? key).isSome

/-- Puts `value` under `key`, replacing what was there. -/
def insert (d : Dict β) (key : String) (value : β) : Dict β :=
  ⟨insertEntry key value d.entries, sorted_insertEntry key value d.sorted⟩

/-- Removes the entry under `key`, if there is one. -/
def erase (d : Dict β) (key : String) : Dict β :=
  ⟨eraseEntry key d.entries, sorted_eraseEntry key d.sorted⟩

def keys (d : Dict β) : List String := d.entries.map (·.1)

def values (d : Dict β) : List β := d.entries.map (·.2)

def size (d : Dict β) : Nat := d.entries.length

def isEmpty (d : Dict β) : Bool := d.entries.isEmpty

/-- The dictionary of a list of entries; of two with one key the later wins. -/
def ofList (entries : List (String × β)) : Dict β :=
  entries.foldl (fun d e => d.insert e.1 e.2) empty

/-- Applies `f` to every value. -/
def mapValues (f : β → γ) (d : Dict β) : Dict γ :=
  ⟨d.entries.map (fun e => (e.1, f e.2)), by
    simpa only [SortedByKey, List.pairwise_map] using d.sorted⟩

@[simp] theorem find?_empty (key : String) : (empty : Dict β).find? key = none := rfl

@[simp] theorem find?_insert (d : Dict β) (key k : String) (value : β) :
    (d.insert key value).find? k = if key = k then some value else d.find? k :=
  lookupEntry_insertEntry ..

@[simp] theorem find?_erase (d : Dict β) (key k : String) :
    (d.erase key).find? k = if key = k then none else d.find? k :=
  lookupEntry_eraseEntry ..

theorem find?_eq_some_iff {d : Dict β} {key : String} {value : β} :
    d.find? key = some value ↔ (key, value) ∈ d.entries :=
  lookupEntry_eq_some_iff d.sorted

/-- Dictionaries with the same look-ups are the same. -/
theorem ext_find? {a b : Dict β} (h : ∀ key, a.find? key = b.find? key) : a = b := by
  have : a.entries = b.entries := by
    refine entries_ext a.sorted b.sorted fun e => ?_
    rw [← find?_eq_some_iff (d := a), ← find?_eq_some_iff (d := b), h]
  cases a; cases b; cases this; rfl

end Dict

/-- A finite set of texts, in order. -/
abbrev TextSet := Dict Unit

namespace TextSet

def insert (s : TextSet) (text : String) : TextSet := Dict.insert s text ()

def toList (s : TextSet) : List String := s.keys

def ofList (texts : List String) : TextSet := texts.foldl insert Dict.empty

end TextSet

end Consolidation
