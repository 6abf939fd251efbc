/-
# `Proofs.Collection.Dict` — more on finite maps

What the entries, keys and values of a dictionary are in terms of look-ups, what a whole list of insertions does, and that
a dictionary is made again from its entries in order (`ofList_entries`).

A dictionary is a list of entries in strict order of keys, so two are equal if all look-ups in them are; most facts here
are shown by that.  Sets of texts are dictionaries without values.
-/
import Mathlib.Data.List.Basic
import Consolidation.Collection.Dict

namespace Consolidation

namespace Dict

variable {β : Type} {d : Dict β} {key : String} {value : β}

/-! ## Entries, keys and values -/

theorem mem_entries_iff : (key, value) ∈ d.entries ↔ d.find? key = some value :=
  find?_eq_some_iff.symm

theorem mem_keys_iff : key ∈ d.keys ↔ (d.find? key).isSome := by
  rw [keys, List.mem_map, Option.isSome_iff_exists]
  constructor
  · rintro ⟨⟨k, v⟩, he, rfl⟩
    exact ⟨v, mem_entries_iff.1 he⟩
  · rintro ⟨v, hv⟩
    exact ⟨(key, v), mem_entries_iff.2 hv, rfl⟩

theorem nodup_keys (d : Dict β) : d.keys.Nodup := by
  refine List.pairwise_map.2 (d.sorted.imp ?_)
  intro a b hlt heq
  rw [heq] at hlt
  exact String.lt_irrefl _ hlt

theorem mem_values_iff : value ∈ d.values ↔ ∃ key, d.find? key = some value := by
  rw [values, List.mem_map]
  constructor
  · rintro ⟨⟨k, v⟩, he, rfl⟩
    exact ⟨k, mem_entries_iff.1 he⟩
  · rintro ⟨k, hk⟩
    exact ⟨(k, value), mem_entries_iff.2 hk, rfl⟩

theorem find?_mapValues {γ : Type} (f : β → γ) (d : Dict β) (key : String) :
    (d.mapValues f).find? key = (d.find? key).map f := by
  refine Option.ext fun value => ?_
  rw [← mem_entries_iff, Option.map_eq_some_iff, mapValues, List.mem_map]
  constructor
  · rintro ⟨e, he, heq⟩
    obtain ⟨rfl, rfl⟩ := Prod.mk.inj heq
    exact ⟨e.2, mem_entries_iff.1 he, rfl⟩
  · rintro ⟨v, hv, rfl⟩
    exact ⟨(key, v), mem_entries_iff.2 hv, rfl⟩

theorem find?_foldl_erase (keys : List String) (d : Dict β) (key : String) :
    (keys.foldl erase d).find? key = if key ∈ keys then none else d.find? key := by
  induction keys generalizing d with
  | nil => rfl
  | cons k keys ih =>
    rw [List.foldl_cons, ih, find?_erase]
    by_cases hk : k = key
    · simp [hk]
    · by_cases hmem : key ∈ keys <;> simp [hmem, hk, Ne.symm hk]

/-! ## Many insertions -/

theorem insertEntry_append {entries : List (String × β)} (h : ∀ e ∈ entries, e.1 < key) :
    insertEntry key value entries = entries ++ [(key, value)] := by
  induction entries with
  | nil => rfl
  | cons e entries ih =>
    have he : e.1 < key := h e List.mem_cons_self
    have hnot : ¬key < e.1 := fun hlt => String.lt_irrefl _ (String.lt_trans he hlt)
    rw [insertEntry, if_neg hnot, if_pos he,
      ih (fun e' he' => h e' (List.mem_cons_of_mem _ he'))]
    rfl

theorem entries_foldl_insert (entries : List (String × β)) (d : Dict β)
    (h : SortedByKey (d.entries ++ entries)) :
    (entries.foldl (fun d e => d.insert e.1 e.2) d).entries = d.entries ++ entries := by
  induction entries generalizing d with
  | nil => simp
  | cons e entries ih =>
    have hbefore : ∀ e' ∈ d.entries, e'.1 < e.1 := fun e' he' =>
      (List.pairwise_append.1 h).2.2 e' he' e List.mem_cons_self
    have hentries : (d.insert e.1 e.2).entries = d.entries ++ [e] := insertEntry_append hbefore
    have happend : d.entries ++ [e] ++ entries = d.entries ++ e :: entries := by simp
    rw [List.foldl_cons, ih _ (by rw [hentries, happend]; exact h), hentries, happend]

/-- A dictionary is made again from its entries. -/
theorem ofList_entries (d : Dict β) : ofList d.entries = d := by
  have h : (ofList d.entries).entries = d.entries := entries_foldl_insert d.entries empty d.sorted
  generalize ofList d.entries = d' at h
  cases d
  cases d'
  cases h
  rfl

end Dict

namespace TextSet

variable {s : TextSet} {text : String}

@[simp] theorem contains_insert (s : TextSet) (text t : String) :
    (s.insert text).contains t = (decide (text = t) || s.contains t) := by
  unfold insert Dict.contains
  rw [Dict.find?_insert]
  by_cases h : text = t <;> simp [h]

theorem contains_foldl_insert (texts : List String) (s : TextSet) (t : String) :
    (texts.foldl insert s).contains t = true ↔ t ∈ texts ∨ s.contains t = true := by
  induction texts generalizing s with
  | nil => simp
  | cons text texts ih =>
    rw [List.foldl_cons, ih, contains_insert, List.mem_cons]
    simp only [Bool.or_eq_true, decide_eq_true_eq]
    constructor
    · rintro (h | rfl | h)
      · exact .inl (.inr h)
      · exact .inl (.inl rfl)
      · exact .inr h
    · rintro ((rfl | h) | h)
      · exact .inr (.inl rfl)
      · exact .inl h
      · exact .inr (.inr h)

theorem mem_toList_iff : text ∈ s.toList ↔ s.contains text = true := Dict.mem_keys_iff

theorem mem_toList_ofList {texts : List String} : text ∈ (ofList texts).toList ↔ text ∈ texts := by
  rw [mem_toList_iff, ofList, contains_foldl_insert]
  simp [Dict.contains]

theorem ofList_toList (s : TextSet) : ofList s.toList = s := by
  have hpairs : s.entries = s.toList.map (fun t => (t, ())) := by
    rw [toList, Dict.keys, List.map_map]
    exact (List.map_id s.entries).symm
  conv => rhs; rw [← Dict.ofList_entries s, hpairs]
  rw [Dict.ofList, List.foldl_map]
  rfl

theorem ext_contains {s t : TextSet} (h : ∀ text, s.contains text = t.contains text) : s = t := by
  refine Dict.ext_find? fun key => ?_
  have hkey := h key
  unfold Dict.contains at hkey
  cases hs : s.find? key with
  | none => cases ht : t.find? key <;> simp_all
  | some u => cases ht : t.find? key <;> simp_all

end TextSet

end Consolidation
