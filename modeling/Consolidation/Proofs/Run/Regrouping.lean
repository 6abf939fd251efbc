/-
# `Proofs.Run.Regrouping` — grouping again over the keys of an earlier grouping

A grouping over the keys of an earlier one keeps the keys that the strategy could have given; every other function is
looked up again, at its place among the functions.  By then the keys are known of the functions that kept theirs and of
those before it (`knownKey?`), which need not be the ones known when it got its key.

So keys are not always left as they are.  They are exactly if each of the others is found again through the neighbours
(`memberships_regrouped_iff`).

## What decides whether keys stay

Let the functions have keys from an earlier grouping, and let them be grouped again by meaning.

* A semantic key is kept, whoever it came from (`isRestorable_semanticKey`), and so is a structural key of the function
  itself (`isRestorable_structuralKey`), which it has without keywords or because its look-up failed.
* A structural key that came from a neighbour is that of another function's looks.  It is not kept, and who has it is
  assigned again.
* What is found then is the key of the first neighbour that has one by that time.  Assigning all functions in order, those
  that have a key being passed over, comes to the same (`foldl_assignKey_filter`), so the time can be told by `knownKey?`.

If each such function finds its old key, the keys stay one after the other (`Reproduced.find?_assignedAgain`).  If the
keys stay in the end, they stayed all along, as a key that was given is never changed (`find?_assignedAgain_of_eq`).
-/
import Mathlib.Data.List.Induction
import Consolidation.Proofs.Run.Grouping

namespace Consolidation.Grouping

open Number Clustering

variable {strategy : Strategy} {query : NeighbourQuery} {keys : Dict String}
  {functions : List FunctionRecord}

/-! ## What is known when a function is looked up -/

/-- The key under which an identifier is known to a function that is assigned again: functions that keep their
keys are known from the start, others once they have been assigned. -/
def knownKey? (strategy : Strategy) (keys : Dict String) (functions before : List FunctionRecord)
    (id : String) : Option String :=
  (keys.find? id).filter (fun key =>
    functions.any (fun g => g.id == id && isRestorable strategy g key) || before.any (·.id == id))

/-- Is every key that is not kept found again through the neighbours? -/
def Reproduced (threshold : Single) (count : Nat) (query : NeighbourQuery) (keys : Dict String)
    (functions : List FunctionRecord) : Prop :=
  ∀ before f after, functions = before ++ f :: after →
    ∀ key, keys.find? f.id = some key → isRestorable (.semantic threshold count) f key = false →
    f.contextKeywords.isEmpty = false ∧
      ∃ neighbours, query f.contextKeywords threshold (neighbourCount count) = .ok neighbours ∧
        (neighbours.filter (· != f.id)).findSome?
          (knownKey? (.semantic threshold count) keys functions before) = some key

theorem knownKey?_eq_some_iff {before : List FunctionRecord} {id key : String} :
    knownKey? strategy keys functions before id = some key ↔
      keys.find? id = some key ∧
        ((∃ g ∈ functions, g.id = id ∧ isRestorable strategy g key = true) ∨
          id ∈ before.map (·.id)) := by
  simp [knownKey?, Option.filter_eq_some_iff]

/-- The keys with which a grouping over earlier keys starts. -/
def keptKeys (strategy : Strategy) (keys : Dict String) (functions : List FunctionRecord) : Dict String :=
  Dict.ofList ((keptOf strategy Dict.empty keys functions).map (fun e => (e.1.id, e.2)))

theorem keptKey?_eq {f : FunctionRecord} :
    keptKey? strategy Dict.empty keys f = (keys.find? f.id).filter (isRestorable strategy f) := rfl

theorem find?_foldl_insert {kept : List (FunctionRecord × String)}
    (h : ∀ e ∈ kept, keys.find? e.1.id = some e.2) (known : Dict String) (id : String) :
    (kept.foldl (fun known e => known.insert e.1.id e.2) known).find? id =
      if id ∈ kept.map (·.1.id) then keys.find? id else known.find? id := by
  induction kept generalizing known with
  | nil => rfl
  | cons e kept ih =>
    rw [List.foldl_cons, ih (fun e he => h e (List.mem_cons_of_mem _ he)), Dict.find?_insert]
    by_cases hid : e.1.id = id
    · simp [← hid, h e List.mem_cons_self]
    · by_cases hmem : id ∈ kept.map (·.1.id) <;> simp [hmem, hid, Ne.symm hid]

theorem find?_keptKeys (id : String) :
    (keptKeys strategy keys functions).find? id = knownKey? strategy keys functions [] id := by
  have hkept : ∀ e ∈ keptOf strategy Dict.empty keys functions, keys.find? e.1.id = some e.2 := by
    rintro ⟨f, key⟩ he
    have hkey := (mem_keptOf_iff.1 he).2
    rw [keptKey?_eq] at hkey
    exact (Option.filter_eq_some_iff.1 hkey).1
  refine Option.ext fun key => ?_
  rw [keptKeys, Dict.ofList, List.foldl_map, find?_foldl_insert hkept, knownKey?_eq_some_iff]
  constructor
  · intro h
    split at h
    · next hid =>
      obtain ⟨⟨g, key'⟩, he, rfl⟩ := List.mem_map.1 hid
      obtain rfl : key' = key := Option.some.inj ((hkept _ he).symm.trans h)
      obtain ⟨hg, hkey⟩ := mem_keptOf_iff.1 he
      rw [keptKey?_eq] at hkey
      exact ⟨h, .inl ⟨g, hg, rfl, (Option.filter_eq_some_iff.1 hkey).2⟩⟩
    · cases h
  · rintro ⟨hkey, ⟨g, hg, rfl, hrestorable⟩ | hbefore⟩
    · have hkeptKey : keptKey? strategy Dict.empty keys g = some key := by
        rw [keptKey?_eq]
        exact Option.filter_eq_some_iff.2 ⟨hkey, hrestorable⟩
      rw [if_pos (List.mem_map.2 ⟨(g, key), mem_keptOf_iff.2 ⟨hg, hkeptKey⟩, rfl⟩), hkey]
    · cases hbefore

/-- What has a key already is passed over, so that all functions may be assigned in place of those that are left. -/
theorem foldl_assignKey_filter {left : FunctionRecord → Bool} (functions : List FunctionRecord)
    {known : Dict String} (h : ∀ f ∈ functions, left f = false → (known.find? f.id).isSome) :
    (functions.filter left).foldl (assignKey strategy query) known =
      functions.foldl (assignKey strategy query) known := by
  induction functions generalizing known with
  | nil => rfl
  | cons f functions ih =>
    have hrest : ∀ known' : Dict String, (∀ id, (known.find? id).isSome → (known'.find? id).isSome) →
        ∀ g ∈ functions, left g = false → (known'.find? g.id).isSome :=
      fun known' hknown g hg hleft => hknown _ (h g (List.mem_cons_of_mem _ hg) hleft)
    cases hf : left f with
    | true =>
      rw [List.filter_cons_of_pos hf, List.foldl_cons, List.foldl_cons]
      refine ih (hrest _ fun id hid => ?_)
      obtain ⟨key, hkey⟩ := Option.isSome_iff_exists.1 hid
      rw [find?_assignKey_of_some hkey f]
      rfl
    | false =>
      obtain ⟨key, hkey⟩ := Option.isSome_iff_exists.1 (h f List.mem_cons_self hf)
      have hassign : assignKey strategy query known f = known := by
        rw [assignKey, hkey]
      rw [List.filter_cons_of_neg (by simp [hf]), List.foldl_cons, hassign]
      exact ih (hrest known fun _ hid => hid)

/-- A grouping over earlier keys gives one function after the other its key, over those that are kept. -/
theorem memberships_regrouped :
    (ofFunctions strategy query Dict.empty keys functions).clustering.memberships =
      functions.foldl (assignKey strategy query) (keptKeys strategy keys functions) := by
  rw [memberships_ofFunctions, pendingOf]
  refine foldl_assignKey_filter functions fun f hf hleft => ?_
  rw [← keptKeys, find?_keptKeys]
  have hsome : (keptKey? strategy Dict.empty keys f).isSome := by
    simpa [← Option.not_isSome] using hleft
  obtain ⟨key, hkey⟩ := Option.isSome_iff_exists.1 hsome
  rw [keptKey?_eq, Option.filter_eq_some_iff] at hkey
  rw [knownKey?_eq_some_iff.2 ⟨hkey.1, .inl ⟨f, hf, rfl, hkey.2⟩⟩]
  rfl

/-! ## Keys that are found again -/

theorem isRestorable_structuralKey (strategy : Strategy) (f : FunctionRecord) :
    isRestorable strategy f (structuralKey f) = true := by
  cases strategy <;> simp [isRestorable]

theorem isRestorable_semanticKey (threshold : Single) (count : Nat) (f : FunctionRecord)
    (contextKeywords : String) :
    isRestorable (.semantic threshold count) f (semanticKey contextKeywords) = true := by
  simp [isRestorable, isSemanticKey, semanticKey, Text.startsWith, String.toList_append]

variable {threshold : Single} {count : Nat}

theorem givenKey_semantic (known : Dict String) (f : FunctionRecord) :
    givenKey (.semantic threshold count) query known f =
      if f.contextKeywords.isEmpty then structuralKey f
      else match query f.contextKeywords threshold (neighbourCount count) with
        | .error _ => structuralKey f
        | .ok neighbours =>
          ((neighbours.filter (· != f.id)).findSome? known.find?).getD
            (semanticKey f.contextKeywords) := by
  unfold givenKey keyFor semanticKeyFor donatedKey?
  dsimp only
  cases f.contextKeywords.isEmpty with
  | true => rfl
  | false => cases query f.contextKeywords threshold (neighbourCount count) <;> rfl

theorem givenKey_eq_iff {known : Dict String} {f : FunctionRecord} {key : String}
    (h : isRestorable (.semantic threshold count) f key = false) :
    givenKey (.semantic threshold count) query known f = key ↔
      f.contextKeywords.isEmpty = false ∧
        ∃ neighbours, query f.contextKeywords threshold (neighbourCount count) = .ok neighbours ∧
          (neighbours.filter (· != f.id)).findSome? known.find? = some key := by
  have hstructural : structuralKey f ≠ key := by
    rintro rfl
    rw [isRestorable_structuralKey] at h
    cases h
  have hsemantic : semanticKey f.contextKeywords ≠ key := by
    rintro rfl
    rw [isRestorable_semanticKey] at h
    cases h
  rw [givenKey_semantic]
  cases f.contextKeywords.isEmpty with
  | true => simpa using hstructural
  | false =>
    cases query f.contextKeywords threshold (neighbourCount count) with
    | error error => simpa using hstructural
    | ok neighbours =>
      cases hdonated : (neighbours.filter (· != f.id)).findSome? known.find? with
      | none => simpa [hdonated] using hsemantic
      | some donated => simp [hdonated]

/-- The keys once some functions have been assigned again. -/
def assignedAgain (strategy : Strategy) (query : NeighbourQuery) (keys : Dict String)
    (functions before : List FunctionRecord) : Dict String :=
  before.foldl (assignKey strategy query) (keptKeys strategy keys functions)

theorem assignedAgain_append (before after : List FunctionRecord) :
    assignedAgain strategy query keys functions (before ++ after) =
      after.foldl (assignKey strategy query) (assignedAgain strategy query keys functions before) :=
  List.foldl_append

theorem find?_assignedAgain_append {before : List FunctionRecord} {id key : String}
    (h : (assignedAgain strategy query keys functions before).find? id = some key)
    (after : List FunctionRecord) :
    (assignedAgain strategy query keys functions (before ++ after)).find? id = some key := by
  rw [assignedAgain_append]
  exact find?_foldl_assignKey_of_some after h

theorem isSome_find?_assignedAgain {before : List FunctionRecord}
    (hkeys : ∀ f ∈ before, (keys.find? f.id).isSome) (id : String) :
    ((assignedAgain strategy query keys functions before).find? id).isSome ↔
      (knownKey? strategy keys functions before id).isSome := by
  rw [assignedAgain, isSome_find?_foldl_assignKey, find?_keptKeys]
  simp only [Option.isSome_iff_exists, knownKey?_eq_some_iff, List.map_nil, List.not_mem_nil, or_false]
  constructor
  · rintro (⟨key, hkey, hkept⟩ | hid)
    · exact ⟨key, hkey, .inl hkept⟩
    · obtain ⟨f, hf, rfl⟩ := List.mem_map.1 hid
      obtain ⟨key, hkey⟩ := Option.isSome_iff_exists.1 (hkeys f hf)
      exact ⟨key, hkey, .inr hid⟩
  · rintro ⟨key, hkey, hkept | hid⟩
    · exact .inl ⟨key, hkey, hkept⟩
    · exact .inr hid

theorem knownKey?_concat (before : List FunctionRecord) (f : FunctionRecord) (id : String) :
    knownKey? strategy keys functions (before ++ [f]) id =
      if f.id = id then keys.find? id else knownKey? strategy keys functions before id := by
  by_cases hid : f.id = id
  · cases hkey : keys.find? id <;> simp [knownKey?, hid, hkey]
  · have hfalse : (f.id == id) = false := by simp [hid]
    simp [knownKey?, hid, hfalse]

theorem Reproduced.find?_assignedAgain (h : Reproduced threshold count query keys functions)
    (hkeys : ∀ f ∈ functions, (keys.find? f.id).isSome) {before after : List FunctionRecord}
    (hfunctions : functions = before ++ after) :
    (assignedAgain (.semantic threshold count) query keys functions before).find? =
      knownKey? (.semantic threshold count) keys functions before := by
  induction before using List.reverseRecOn generalizing after with
  | nil => exact funext find?_keptKeys
  | append_singleton before f ih =>
    rw [List.append_assoc, List.singleton_append] at hfunctions
    have hbefore := ih hfunctions
    have hf : f ∈ functions := by simp [hfunctions]
    obtain ⟨key, hkey⟩ := Option.isSome_iff_exists.1 (hkeys f hf)
    funext id
    rw [assignedAgain_append, List.foldl_cons, List.foldl_nil, knownKey?_concat, assignKey, hbefore]
    cases hknown : knownKey? (.semantic threshold count) keys functions before f.id with
    | some key' =>
      dsimp only
      rw [hbefore]
      split
      · next hid =>
        rw [← hid, hknown]
        exact (knownKey?_eq_some_iff.1 hknown).1.symm
      · rfl
    | none =>
      -- the function is not among those that kept their keys, so its key is looked up
      have hnot : isRestorable (.semantic threshold count) f key = false := by
        rw [Bool.eq_false_iff]
        intro hrestorable
        rw [knownKey?_eq_some_iff.2 ⟨hkey, .inl ⟨f, hf, rfl, hrestorable⟩⟩] at hknown
        cases hknown
      have hgiven : givenKey (.semantic threshold count) query
          (assignedAgain (.semantic threshold count) query keys functions before) f = key := by
        rw [givenKey_eq_iff hnot, hbefore]
        exact h before f after hfunctions key hkey hnot
      dsimp only
      rw [Dict.find?_insert, hgiven, hbefore]
      split
      · next hid => rw [← hid, hkey]
      · rfl

theorem find?_assignedAgain_of_eq
    (h : assignedAgain strategy query keys functions functions = keys)
    (hkeys : ∀ f ∈ functions, (keys.find? f.id).isSome) {before after : List FunctionRecord}
    (hfunctions : functions = before ++ after) :
    (assignedAgain strategy query keys functions before).find? =
      knownKey? strategy keys functions before := by
  have hend : ∀ id key, (assignedAgain strategy query keys functions before).find? id = some key →
      keys.find? id = some key := by
    intro id key hkey
    have hlast := find?_assignedAgain_append hkey after
    rw [← hfunctions, h] at hlast
    exact hlast
  have hsome : ∀ id, ((assignedAgain strategy query keys functions before).find? id).isSome ↔
      (knownKey? strategy keys functions before id).isSome :=
    isSome_find?_assignedAgain fun f hf => hkeys f (hfunctions ▸ List.mem_append_left _ hf)
  funext id
  cases hkey : (assignedAgain strategy query keys functions before).find? id with
  | none =>
    cases hknown : knownKey? strategy keys functions before id with
    | none => rfl
    | some key =>
      have hnone := (hsome id).2 (by rw [hknown]; rfl)
      rw [hkey] at hnone
      cases hnone
  | some key =>
    obtain ⟨key', hknown⟩ := Option.isSome_iff_exists.1 ((hsome id).1 (by rw [hkey]; rfl))
    rw [hknown, ← hend id key hkey]
    exact (knownKey?_eq_some_iff.1 hknown).1

/-- Grouping again leaves the keys as they are exactly if each that is not kept is found again. -/
theorem memberships_regrouped_iff (hids : (functions.map (·.id)).Nodup)
    (hkeys : ∀ id, (keys.find? id).isSome ↔ id ∈ functions.map (·.id)) :
    (ofFunctions (.semantic threshold count) query Dict.empty keys functions).clustering.memberships =
        keys ↔
      Reproduced threshold count query keys functions := by
  have hsome : ∀ f ∈ functions, (keys.find? f.id).isSome :=
    fun f hf => (hkeys f.id).2 (List.mem_map_of_mem hf)
  rw [memberships_regrouped]
  constructor
  · intro h before f after hfunctions key hkey hnot
    have hknown := find?_assignedAgain_of_eq h hsome hfunctions
    -- no other function has the identifier, so the key is looked up when it is the turn of `f`
    have hnone : knownKey? (.semantic threshold count) keys functions before f.id = none := by
      refine Option.eq_none_iff_forall_ne_some.2 fun key' hkey' => ?_
      obtain ⟨hfind, ⟨g, hg, hid, hrestorable⟩ | hmem⟩ := knownKey?_eq_some_iff.1 hkey'
      · have hf : f ∈ functions := by simp [hfunctions]
        obtain rfl := List.inj_on_of_nodup_map hids hg hf hid
        rw [hkey] at hfind
        cases hfind
        rw [hrestorable] at hnot
        cases hnot
      · rw [hfunctions, List.map_append, List.map_cons, List.nodup_append] at hids
        exact hids.2.2 _ hmem _ List.mem_cons_self rfl
    have hgiven : keys.find? f.id = some (givenKey (.semantic threshold count) query
        (assignedAgain (.semantic threshold count) query keys functions before) f) := by
      have hnext : (assignedAgain (.semantic threshold count) query keys functions
          (before ++ [f])).find? f.id = some (givenKey (.semantic threshold count) query
            (assignedAgain (.semantic threshold count) query keys functions before) f) := by
        rw [assignedAgain_append, List.foldl_cons, List.foldl_nil, assignKey, hknown, hnone]
        dsimp only
        rw [Dict.find?_insert, if_pos rfl]
      have hlast := find?_assignedAgain_append hnext after
      rw [List.append_assoc, List.singleton_append, ← hfunctions, assignedAgain, h] at hlast
      exact hlast
    rw [hkey] at hgiven
    rw [← hknown]
    exact (givenKey_eq_iff hnot).1 (Option.some.inj hgiven).symm
  · intro h
    have hknown := h.find?_assignedAgain hsome (List.append_nil functions).symm
    refine Dict.ext_find? fun id => (congrFun hknown id).trans (Option.ext fun key => ?_)
    rw [knownKey?_eq_some_iff]
    constructor
    · exact And.left
    · intro hkey
      exact ⟨hkey, .inr ((hkeys id).1 (by rw [hkey]; rfl))⟩

end Consolidation.Grouping
