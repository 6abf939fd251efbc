/-
# `Proofs.Run.Grouping` — the keys that functions get in a run

Grouping keeps a clustering whose maps agree (`ofFunctions_maps`), so its keys say everything.  The keys come about by
themselves: first those that are kept, then one for each other function in order, which depends on the keys before it
alone (`memberships_ofFunctions`).  None of this needs two functions with the same keywords to get the same answer, so it
is said of groupings in which each function has answers of its own (`withAnswers`).

By their looks, all functions end with their structural keys, whatever keys were remembered
(`find?_ofFunctions_structural`); so a run over remembered keys groups as one without.

Three ways of putting functions into clusters come together here, and each is told as a step on the keys alone:

| | |
| :-- | :-- |
| kept | a remembered key that the strategy could have given, of a function that is not new |
| given | the key that the strategy finds, the keys of the functions before being known (`givenKey`) |
| by looks | the structural key, where the look-up of the other strategy fails |

Each step puts in one function under one key, so the maps of the clustering stay coherent (`withAnswers_maps`), and
exactly the functions have keys at the end (`isSome_find?_withAnswers`).  Where identifiers stand for functions the keys
decide the clusters too (`ofFunctions_eq_of_memberships_eq`).
-/
import Mathlib.Data.List.Nodup
import Consolidation.Run.Grouping
import Consolidation.Proofs.Cluster.Calls
import Consolidation.Proofs.Collection.Dict

namespace Consolidation.Grouping

open Clustering

/-- Sorts functions into clusters, where the look-up for each function has an outcome of its own. -/
def withAnswers (strategy : Strategy) (answers : FunctionRecord → NeighbourQuery) (fresh : TextSet)
    (memberships : Dict String) (functions : List FunctionRecord) : Grouping :=
  let kept := keptOf strategy fresh memberships functions
  (pendingOf strategy fresh memberships functions).foldl (fun g f => assignOne strategy (answers f) g f)
    ⟨restore kept, kept.length, 0, 0⟩

variable {strategy : Strategy} {query : NeighbourQuery} {answers : FunctionRecord → NeighbourQuery}
  {fresh : TextSet} {memberships : Dict String} {functions : List FunctionRecord}

/-- An index whose answers depend on what it is asked alone answers so for each function. -/
theorem ofFunctions_eq_withAnswers :
    ofFunctions strategy query fresh memberships functions =
      withAnswers strategy (fun _ => query) fresh memberships functions := rfl

/-! ## The maps agree -/

theorem mem_keptOf_iff {f : FunctionRecord} {key : String} :
    (f, key) ∈ keptOf strategy fresh memberships functions ↔
      f ∈ functions ∧ keptKey? strategy fresh memberships f = some key := by
  simp only [keptOf, List.mem_filterMap, Option.map_eq_some_iff, Prod.mk.injEq]
  constructor
  · rintro ⟨g, hg, key', hkey, rfl, rfl⟩
    exact ⟨hg, hkey⟩
  · rintro ⟨hf, hkey⟩
    exact ⟨f, hf, key, hkey, rfl, rfl⟩

theorem mem_pendingOf_iff {f : FunctionRecord} :
    f ∈ pendingOf strategy fresh memberships functions ↔
      f ∈ functions ∧ keptKey? strategy fresh memberships f = none := by
  simp [pendingOf]

theorem assignOne_clustering (strategy : Strategy) (query : NeighbourQuery) (g : Grouping)
    (f : FunctionRecord) :
    (assignOne strategy query g f).clustering = g.clustering ∨
      ∃ key, (assignOne strategy query g f).clustering = g.clustering.insert key f := by
  unfold assignOne
  split
  · next heq =>
    rcases assign_eq_ok heq with ⟨rfl, -⟩ | ⟨rfl, -, -⟩
    · exact .inl rfl
    · exact .inr ⟨_, rfl⟩
  · exact .inr ⟨_, rfl⟩

section Maps

variable {P : FunctionRecord → Prop}

theorem foldl_assignOne_maps (pending : List FunctionRecord) (g : Grouping)
    (hc : g.clustering.Coherent) (hm : g.clustering.MembersAre P) (hP : ∀ f ∈ pending, P f) :
    (pending.foldl (fun g f => assignOne strategy (answers f) g f) g).clustering.Coherent ∧
      (pending.foldl (fun g f => assignOne strategy (answers f) g f) g).clustering.MembersAre P := by
  induction pending generalizing g with
  | nil => exact ⟨hc, hm⟩
  | cons f pending ih =>
    have hf : P f := hP f List.mem_cons_self
    have hrest : ∀ f ∈ pending, P f := fun f hf => hP f (List.mem_cons_of_mem _ hf)
    rcases assignOne_clustering strategy (answers f) g f with heq | ⟨key, heq⟩
    · exact ih _ (heq ▸ hc) (heq ▸ hm) hrest
    · exact ih _ (heq ▸ hc.insert key f) (heq ▸ hm.insert hc key hf) hrest

theorem foldl_insert_maps (kept : List (FunctionRecord × String)) (c : Clustering)
    (hc : c.Coherent) (hm : c.MembersAre P) (hP : ∀ e ∈ kept, P e.1) :
    (kept.foldl (fun c e => c.insert e.2 e.1) c).Coherent ∧
      (kept.foldl (fun c e => c.insert e.2 e.1) c).MembersAre P := by
  induction kept generalizing c with
  | nil => exact ⟨hc, hm⟩
  | cons e kept ih =>
    exact ih _ (hc.insert e.2 e.1) (hm.insert hc e.2 (hP e List.mem_cons_self))
      (fun e he => hP e (List.mem_cons_of_mem _ he))

theorem withAnswers_maps :
    (withAnswers strategy answers fresh memberships functions).clustering.Coherent ∧
      (withAnswers strategy answers fresh memberships functions).clustering.MembersAre
        (· ∈ functions) := by
  obtain ⟨hc, hm⟩ := foldl_insert_maps (P := (· ∈ functions))
    (keptOf strategy fresh memberships functions) .empty coherent_empty membersAre_empty
    (fun e he => (mem_keptOf_iff.1 he).1)
  exact foldl_assignOne_maps _ _ hc hm (fun f hf => (mem_pendingOf_iff.1 hf).1)

theorem ofFunctions_maps :
    (ofFunctions strategy query fresh memberships functions).clustering.Coherent ∧
      (ofFunctions strategy query fresh memberships functions).clustering.MembersAre
        (· ∈ functions) :=
  withAnswers_maps

end Maps

/-! ## The keys -/

/-- The key that a function is given, the keys of other functions being known. -/
def givenKey (strategy : Strategy) (query : NeighbourQuery) (keys : Dict String)
    (f : FunctionRecord) : String :=
  match Clustering.keyFor strategy query ⟨Dict.empty, keys⟩ f with
  | .ok key => key
  | .error _ => structuralKey f

/-- The keys after one more function has been given one. -/
def assignKey (strategy : Strategy) (query : NeighbourQuery) (keys : Dict String)
    (f : FunctionRecord) : Dict String :=
  match keys.find? f.id with
  | some _ => keys
  | none => keys.insert f.id (givenKey strategy query keys f)

theorem memberships_insert (c : Clustering) (key : String) (f : FunctionRecord) :
    (c.insert key f).memberships = c.memberships.insert f.id key := by
  refine Dict.ext_find? fun id => ?_
  rw [find?_memberships_insert, Dict.find?_insert]

theorem memberships_restore (kept : List (FunctionRecord × String)) :
    (restore kept).memberships = Dict.ofList (kept.map (fun e => (e.1.id, e.2))) := by
  have h : ∀ (kept : List (FunctionRecord × String)) (c : Clustering),
      (kept.foldl (fun c e => c.insert e.2 e.1) c).memberships =
        kept.foldl (fun keys e => keys.insert e.1.id e.2) c.memberships := by
    intro kept
    induction kept with
    | nil => exact fun _ => rfl
    | cons e kept ih =>
      intro c
      rw [List.foldl_cons, ih, memberships_insert]
      rfl
  rw [Dict.ofList, List.foldl_map]
  exact h kept .empty

/-- The key of a function depends on the keys of the others alone. -/
theorem keyFor_eq (c : Clustering) (f : FunctionRecord) :
    c.keyFor strategy query f = Clustering.keyFor strategy query ⟨Dict.empty, c.memberships⟩ f := rfl

theorem memberships_assignOne (g : Grouping) (f : FunctionRecord) :
    (assignOne strategy query g f).clustering.memberships =
      assignKey strategy query g.clustering.memberships f := by
  unfold assignOne assign assignKey givenKey
  rw [keyFor_eq]
  cases hkey : g.clustering.memberships.find? f.id with
  | some key => rfl
  | none =>
    dsimp only
    split
    · next heq =>
      split at heq
      · cases heq
      · next key hok =>
        cases heq
        rw [hok]
        exact memberships_insert _ _ _
    · next heq =>
      split at heq
      · next error herror =>
        rw [herror]
        exact memberships_insert _ _ _
      · cases heq

theorem memberships_withAnswers :
    (withAnswers strategy answers fresh memberships functions).clustering.memberships =
      (pendingOf strategy fresh memberships functions).foldl
        (fun keys f => assignKey strategy (answers f) keys f)
        (Dict.ofList ((keptOf strategy fresh memberships functions).map (fun e => (e.1.id, e.2)))) := by
  have h : ∀ (pending : List FunctionRecord) (g : Grouping),
      (pending.foldl (fun g f => assignOne strategy (answers f) g f) g).clustering.memberships =
        pending.foldl (fun keys f => assignKey strategy (answers f) keys f)
          g.clustering.memberships := by
    intro pending
    induction pending with
    | nil => exact fun _ => rfl
    | cons f pending ih =>
      intro g
      rw [List.foldl_cons, ih, memberships_assignOne]
      rfl
  rw [withAnswers, h, memberships_restore]

theorem memberships_ofFunctions :
    (ofFunctions strategy query fresh memberships functions).clustering.memberships =
      (pendingOf strategy fresh memberships functions).foldl (assignKey strategy query)
        (Dict.ofList ((keptOf strategy fresh memberships functions).map (fun e => (e.1.id, e.2)))) :=
  memberships_withAnswers

/-! ## Keys by looks -/

section Structural

/-- Is every key the structural key of the function that has it? -/
def StructuralKeys (functions : List FunctionRecord) (keys : Dict String) : Prop :=
  ∀ id key, keys.find? id = some key → ∃ f ∈ functions, f.id = id ∧ key = structuralKey f

theorem StructuralKeys.insert {keys : Dict String} (h : StructuralKeys functions keys)
    {f : FunctionRecord} (hf : f ∈ functions) :
    StructuralKeys functions (keys.insert f.id (structuralKey f)) := by
  intro id key hkey
  rw [Dict.find?_insert] at hkey
  split at hkey
  · next hid => exact ⟨f, hf, hid, (Option.some.inj hkey).symm⟩
  · exact h id key hkey

theorem StructuralKeys.foldl_assignKey (pending : List FunctionRecord)
    (hP : ∀ f ∈ pending, f ∈ functions) {keys : Dict String} (h : StructuralKeys functions keys) :
    StructuralKeys functions (pending.foldl (assignKey .structural query) keys) := by
  induction pending generalizing keys with
  | nil => exact h
  | cons f pending ih =>
    refine ih (fun f hf => hP f (List.mem_cons_of_mem _ hf)) ?_
    unfold assignKey
    split
    · exact h
    · exact h.insert (hP f List.mem_cons_self)

theorem StructuralKeys.foldl_insert (kept : List (FunctionRecord × String))
    (hP : ∀ e ∈ kept, e.1 ∈ functions ∧ e.2 = structuralKey e.1) {keys : Dict String}
    (h : StructuralKeys functions keys) :
    StructuralKeys functions (kept.foldl (fun keys e => keys.insert e.1.id e.2) keys) := by
  induction kept generalizing keys with
  | nil => exact h
  | cons e kept ih =>
    obtain ⟨he, hkey⟩ := hP e List.mem_cons_self
    refine ih (fun e he => hP e (List.mem_cons_of_mem _ he)) ?_
    dsimp only
    rw [hkey]
    exact h.insert he

theorem keptKey?_structural {f : FunctionRecord} {key : String}
    (h : keptKey? .structural fresh memberships f = some key) : key = structuralKey f := by
  unfold keptKey? at h
  split at h
  · cases h
  · have hkey := (Option.filter_eq_some_iff.1 h).2
    simpa [isRestorable] using hkey

theorem structuralKeys_ofFunctions :
    StructuralKeys functions
      (ofFunctions .structural query fresh memberships functions).clustering.memberships := by
  rw [memberships_ofFunctions, Dict.ofList, List.foldl_map]
  refine StructuralKeys.foldl_assignKey _ (fun f hf => (mem_pendingOf_iff.1 hf).1) ?_
  refine StructuralKeys.foldl_insert _ ?_ ?_
  · rintro ⟨f, key⟩ he
    obtain ⟨hf, hkey⟩ := mem_keptOf_iff.1 he
    exact ⟨hf, keptKey?_structural hkey⟩
  · rintro id key ⟨⟩

end Structural

theorem ofFunctions_structural_query (query query' : NeighbourQuery) :
    ofFunctions .structural query fresh memberships functions =
      ofFunctions .structural query' fresh memberships functions := rfl

/-! ## Functions that were extracted anew -/

/-- That functions were extracted anew does not matter if no keys are remembered of them. -/
theorem ofFunctions_unkeyed (h : ∀ id, fresh.contains id = true → memberships.find? id = none) :
    ofFunctions strategy query fresh memberships functions =
      ofFunctions strategy query Dict.empty memberships functions := by
  have hkept : keptKey? strategy fresh memberships = keptKey? strategy Dict.empty memberships := by
    funext f
    have hempty : Dict.contains (Dict.empty : TextSet) f.id = false := rfl
    rw [keptKey?, keptKey?, hempty]
    split
    · next hfresh => simp [h f.id hfresh]
    · rfl
  unfold ofFunctions keptOf pendingOf
  rw [hkept]

/-! ## Which functions have keys -/

theorem find?_assignKey_of_some {keys : Dict String} {id key : String} (h : keys.find? id = some key)
    (f : FunctionRecord) : (assignKey strategy query keys f).find? id = some key := by
  unfold assignKey
  split
  · exact h
  · next hnone =>
    have hne : f.id ≠ id := by
      rintro rfl
      rw [hnone] at h
      cases h
    rw [Dict.find?_insert, if_neg hne, h]

theorem find?_foldl_assignKey_of_some (pending : List FunctionRecord) {keys : Dict String}
    {id key : String} (h : keys.find? id = some key) :
    (pending.foldl (assignKey strategy query) keys).find? id = some key := by
  induction pending generalizing keys with
  | nil => exact h
  | cons f pending ih => exact ih (find?_assignKey_of_some h f)

theorem isSome_find?_foldl_answers (pending : List FunctionRecord) (keys : Dict String) (id : String) :
    ((pending.foldl (fun keys f => assignKey strategy (answers f) keys f) keys).find? id).isSome ↔
      (keys.find? id).isSome ∨ id ∈ pending.map (·.id) := by
  induction pending generalizing keys with
  | nil => simp
  | cons f pending ih =>
    have hone : ((assignKey strategy (answers f) keys f).find? id).isSome ↔
        (keys.find? id).isSome ∨ id = f.id := by
      unfold assignKey
      split
      · next key hkey =>
        constructor
        · exact .inl
        · rintro (h | rfl)
          · exact h
          · rw [hkey]
            rfl
      · rw [Dict.find?_insert]
        by_cases hid : f.id = id
        · simp [hid]
        · simp [hid, Ne.symm hid]
    rw [List.foldl_cons, ih, hone, List.map_cons, List.mem_cons, or_assoc]

theorem isSome_find?_foldl_assignKey (pending : List FunctionRecord) (keys : Dict String) (id : String) :
    ((pending.foldl (assignKey strategy query) keys).find? id).isSome ↔
      (keys.find? id).isSome ∨ id ∈ pending.map (·.id) :=
  isSome_find?_foldl_answers pending keys id

theorem isSome_find?_foldl_insert (kept : List (FunctionRecord × String)) (keys : Dict String)
    (id : String) :
    ((kept.foldl (fun keys e => keys.insert e.1.id e.2) keys).find? id).isSome ↔
      (keys.find? id).isSome ∨ id ∈ kept.map (·.1.id) := by
  induction kept generalizing keys with
  | nil => simp
  | cons e kept ih =>
    rw [List.foldl_cons, ih, Dict.find?_insert, List.map_cons, List.mem_cons]
    by_cases hid : e.1.id = id
    · simp [hid]
    · simp [hid, Ne.symm hid]

theorem isSome_find?_withAnswers (id : String) :
    ((withAnswers strategy answers fresh memberships functions).clustering.memberships.find? id).isSome ↔
      id ∈ functions.map (·.id) := by
  rw [memberships_withAnswers, Dict.ofList, List.foldl_map, isSome_find?_foldl_answers,
    isSome_find?_foldl_insert]
  simp only [Dict.find?_empty, Option.isSome_none, Bool.false_eq_true, false_or, List.mem_map,
    Prod.exists, mem_keptOf_iff, mem_pendingOf_iff]
  constructor
  · rintro (⟨f, key, ⟨hf, -⟩, hid⟩ | ⟨f, ⟨hf, -⟩, hid⟩)
    · exact ⟨f, hf, hid⟩
    · exact ⟨f, hf, hid⟩
  · rintro ⟨f, hf, hid⟩
    cases hkey : keptKey? strategy fresh memberships f with
    | some key => exact .inl ⟨f, key, ⟨hf, hkey⟩, hid⟩
    | none => exact .inr ⟨f, ⟨hf, hkey⟩, hid⟩

theorem isSome_find?_ofFunctions (id : String) :
    ((ofFunctions strategy query fresh memberships functions).clustering.memberships.find? id).isSome ↔
      id ∈ functions.map (·.id) :=
  isSome_find?_withAnswers id

/-! ## Grouping by looks -/

/-- By their looks all functions end with their structural keys. -/
theorem find?_ofFunctions_structural (hids : (functions.map (·.id)).Nodup) {f : FunctionRecord}
    (hf : f ∈ functions) :
    (ofFunctions .structural query fresh memberships functions).clustering.memberships.find? f.id =
      some (structuralKey f) := by
  have hsome : ((ofFunctions .structural query fresh memberships functions).clustering.memberships.find?
      f.id).isSome := (isSome_find?_ofFunctions f.id).2 (List.mem_map_of_mem hf)
  obtain ⟨key, hkey⟩ := Option.isSome_iff_exists.1 hsome
  obtain ⟨g, hg, hid, rfl⟩ := structuralKeys_ofFunctions _ _ hkey
  obtain rfl := List.inj_on_of_nodup_map hids hg hf hid
  exact hkey

/-- Where identifiers are different, they stand for the functions. -/
theorem exists_record (hids : (functions.map (·.id)).Nodup) :
    ∃ record : String → FunctionRecord, ∀ f ∈ functions, f = record f.id := by
  refine ⟨fun id => (functions.find? (·.id == id)).getD default, fun f hf => ?_⟩
  have hsome : (functions.find? (·.id == f.id)).isSome := by
    rw [List.find?_isSome]
    exact ⟨f, hf, by simp⟩
  obtain ⟨g, hg⟩ := Option.isSome_iff_exists.1 hsome
  have hid : g.id = f.id := by simpa using List.find?_some hg
  dsimp only
  rw [hg, Option.getD_some]
  exact List.inj_on_of_nodup_map hids hf (List.mem_of_find?_eq_some hg) hid.symm

theorem ofFunctions_eq_of_memberships_eq (hids : (functions.map (·.id)).Nodup)
    {strategy' : Strategy} {query' : NeighbourQuery} {fresh' : TextSet} {memberships' : Dict String}
    (h : (ofFunctions strategy query fresh memberships functions).clustering.memberships =
      (ofFunctions strategy' query' fresh' memberships' functions).clustering.memberships) :
    (ofFunctions strategy query fresh memberships functions).clustering =
      (ofFunctions strategy' query' fresh' memberships' functions).clustering := by
  obtain ⟨record, hrecord⟩ := exists_record hids
  obtain ⟨hc, hm⟩ : (ofFunctions strategy query fresh memberships functions).clustering.Coherent ∧ _ :=
    ofFunctions_maps
  obtain ⟨hc', hm'⟩ : (ofFunctions strategy' query' fresh' memberships'
    functions).clustering.Coherent ∧ _ := ofFunctions_maps
  exact hc.ext hc' (fun key k hk m hmem => hrecord m (hm key k hk m hmem))
    (fun key k hk m hmem => hrecord m (hm' key k hk m hmem)) h

theorem ofFunctions_structural_eq (hids : (functions.map (·.id)).Nodup) (query query' : NeighbourQuery)
    (fresh fresh' : TextSet) (memberships memberships' : Dict String) :
    (ofFunctions .structural query fresh memberships functions).clustering =
      (ofFunctions .structural query' fresh' memberships' functions).clustering := by
  refine ofFunctions_eq_of_memberships_eq hids (Dict.ext_find? fun id => ?_)
  by_cases hid : id ∈ functions.map (·.id)
  · obtain ⟨f, hf, rfl⟩ := List.mem_map.1 hid
    rw [find?_ofFunctions_structural hids hf, find?_ofFunctions_structural hids hf]
  · have hnone : ∀ query fresh memberships, (ofFunctions .structural query fresh memberships
        functions).clustering.memberships.find? id = none := by
      intro query fresh memberships
      rw [← Option.not_isSome_iff_eq_none, isSome_find?_ofFunctions]
      exact hid
    rw [hnone, hnone]

end Consolidation.Grouping
