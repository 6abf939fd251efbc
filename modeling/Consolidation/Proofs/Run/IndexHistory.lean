/-
# `Proofs.Run.IndexHistory` — an index that visits share

Visits share a checkpoint and an index over a store.  A visit completes if the index is there, keywords are looked for and
nothing goes wrong while the index is brought up to date; only then is what it holds kept for the next one.

Not every visit that completes leaves an index that mirrors the functions.  All do exactly if, between two that follow one
another, every function that could be looked up by its keywords still can or is gone (`mirrored_iff_accounted`).  Two
kinds of functions are neither:

| | |
| :-- | :-- |
| bare | a function that stays under its identifier and loses its keywords |
| missed | a function whose record was dropped in between, by a visit that did not complete |

If every visit completes, none is missed, and what remains is that no function turns bare (`mirrored_iff_never_bare`).

## What is proved

For every history of visits in which a visit that completes starts with the index that the last one to complete has left,
and for every `last`: all visits up to `last` that complete mirror their functions in the index, if and only if between
each two of them that follow one another (`Next`) every function that could be looked up by its keywords in the first
still can in the second, or is gone by then.

The visits in between need not complete, and their trees, policies and settings may be any.  Nothing is asked of digests.

## How it goes

One visit that completes leaves a mirror exactly if all that its index held before is searchable or gone (`mirrored_iff`),
and its index held what the last one before it that completed has left (`keptIndex_eq`).  If that was a mirror, it held
the functions that were searchable then (`Next.mirrored_iff`); the induction is on the number of the visit.
-/
import Consolidation.Proofs.Run.Indexing
import Consolidation.Proofs.Run.Visits

namespace Consolidation

/-- A visit whose index is over a store. -/
structure StoreVisit where
  setup : RunSetup DocumentStore
  files : List (Files.Path × String)
  world : World DocumentStore
  embedder : Embedder
  place : Files.Path
  index_eq : setup.index = .ofStore embedder place

namespace StoreVisit

def visit (v : StoreVisit) : Visit := ⟨DocumentStore, v.setup, v.files, v.world⟩

/-- What is known once the index has been brought up to date, over a checkpoint. -/
def loaded (v : StoreVisit) (s : Checkpoint) : RunSetup.Loaded DocumentStore :=
  v.setup.load s v.files v.world

def functions (v : StoreVisit) (s : Checkpoint) : List FunctionRecord :=
  (v.loaded s).inventory.checkpoint.allFunctions

/-- Is the index there, are keywords looked for, and did nothing go wrong? -/
def completes (v : StoreVisit) (s : Checkpoint) : Bool :=
  v.setup.index.available && v.setup.settings.clustering.keywords && (v.loaded s).indexError.isNone

/-- Does the index hold the keywords of the functions, and nothing else? -/
def Mirrored (v : StoreVisit) (s : Checkpoint) : Prop :=
  MirrorsKeywords (v.loaded s).world.index (v.functions s)

/-- Can a function with this identifier be looked up by its keywords? -/
def Searchable (v : StoreVisit) (s : Checkpoint) (id : String) : Prop :=
  ∃ f ∈ v.functions s, f.contextKeywords.isEmpty = false ∧ f.id = id

variable {v : StoreVisit} {s : Checkpoint}

theorem update_of_completes (h : v.completes s = true) :
    (SimilarityIndex.ofStore v.embedder v.place).available = true ∧
      (SimilarityIndex.ofStore v.embedder v.place).update true (v.loaded s).inventory v.world =
        ((v.loaded s).world, none) := by
  simp only [completes, Bool.and_eq_true, Option.isNone_iff_eq_none] at h
  obtain ⟨⟨havailable, hkeywords⟩, herror⟩ := h
  have hupdate : v.setup.index.update v.setup.settings.clustering.keywords (v.loaded s).inventory
      v.world = ((v.loaded s).world, (v.loaded s).indexError) := rfl
  rw [v.index_eq, hkeywords, herror] at hupdate
  rw [v.index_eq] at havailable
  exact ⟨havailable, hupdate⟩

theorem mirrored_iff (h : v.completes s = true) :
    v.Mirrored s ↔ ∀ id, (v.world.index.textOf? id).isSome →
      v.Searchable s id ∨ id ∈ (v.loaded s).inventory.gone := by
  obtain ⟨havailable, hupdate⟩ := update_of_completes h
  have hmirrors := SimilarityIndex.mirrorsKeywords_update_iff havailable (congrArg Prod.snd hupdate)
  rw [hupdate] at hmirrors
  exact hmirrors

end StoreVisit

/-! ## Visits one after the other -/

/-- Visits without end; any number of visits are the first ones of some. -/
abbrev History := Nat → StoreVisit

namespace History

variable (visits : History)

/-- The checkpoint with which a visit starts. -/
def checkpoint (n : Nat) : Checkpoint :=
  afterVisits ((List.range n).map (fun k => (visits k).visit))

def completes (n : Nat) : Bool := (visits n).completes (visits.checkpoint n)

/-- The index that is kept before a visit: what the last one that completed has left. -/
def keptIndex : Nat → DocumentStore
  | 0 => .empty
  | n + 1 =>
    if visits.completes n then ((visits n).loaded (visits.checkpoint n)).world.index
    else keptIndex n

/-- Do visits that complete start with what is kept? -/
def ShareIndex : Prop :=
  ∀ n, visits.completes n = true → ∀ id,
    ((visits n).world.index.textOf? id).isSome = ((visits.keptIndex n).textOf? id).isSome

def Mirrored (n : Nat) : Prop := (visits n).Mirrored (visits.checkpoint n)

def Searchable (n : Nat) (id : String) : Prop := (visits n).Searchable (visits.checkpoint n) id

/-- Was the record of a function dropped in a visit without another one in its place? -/
def Gone (n : Nat) (id : String) : Prop :=
  id ∈ ((visits n).loaded (visits.checkpoint n)).inventory.gone

/-- Do two visits complete, and none between them? -/
structure Next (m n : Nat) : Prop where
  lt : m < n
  first : visits.completes m = true
  second : visits.completes n = true
  between : ∀ k, m < k → k < n → visits.completes k = false

variable {visits}

/-- What is kept before a visit is what the last one that completed has left, if there is one. -/
theorem keptIndex_eq (n : Nat) :
    ((∀ k < n, visits.completes k = false) ∧ visits.keptIndex n = .empty) ∨
      ∃ m < n, visits.completes m = true ∧ (∀ k, m < k → k < n → visits.completes k = false) ∧
        visits.keptIndex n = ((visits m).loaded (visits.checkpoint m)).world.index := by
  induction n with
  | zero => exact .inl ⟨by simp, rfl⟩
  | succ n ih =>
    rw [keptIndex]
    cases hn : visits.completes n with
    | true => exact .inr ⟨n, Nat.lt_succ_self n, hn, by omega, rfl⟩
    | false =>
      rcases ih with ⟨hnone, hempty⟩ | ⟨m, hm, hcompletes, hbetween, hkept⟩
      · refine .inl ⟨fun k hk => ?_, hempty⟩
        rcases Nat.lt_succ_iff_lt_or_eq.1 hk with hk | rfl
        · exact hnone k hk
        · exact hn
      · refine .inr ⟨m, Nat.lt_succ_of_lt hm, hcompletes, fun k hmk hk => ?_, hkept⟩
        rcases Nat.lt_succ_iff_lt_or_eq.1 hk with hk | rfl
        · exact hbetween k hmk hk
        · exact hn

/-- Over a mirror, the next visit that completes leaves one exactly if all functions are accounted for. -/
theorem Next.mirrored_iff {m n : Nat} (h : visits.Next m n) (hshare : visits.ShareIndex)
    (hmirrored : visits.Mirrored m) :
    visits.Mirrored n ↔ ∀ id, visits.Searchable m id → visits.Searchable n id ∨ visits.Gone n id := by
  have hkept : visits.keptIndex n = ((visits m).loaded (visits.checkpoint m)).world.index := by
    rcases visits.keptIndex_eq n with ⟨hnone, -⟩ | ⟨m', hm', hcompletes, hbetween, hkept⟩
    · have hfalse := hnone m h.lt
      rw [h.first] at hfalse
      cases hfalse
    · -- no other visit than the first completes between
      have hm : m' = m := by
        rcases Nat.lt_trichotomy m m' with hlt | heq | hlt
        · have hfalse := h.between m' hlt hm'
          rw [hcompletes] at hfalse
          cases hfalse
        · exact heq.symm
        · have hfalse := hbetween m hlt h.lt
          rw [h.first] at hfalse
          cases hfalse
      rw [hkept, hm]
  have hheld : ∀ id, ((visits n).world.index.textOf? id).isSome ↔ visits.Searchable m id := by
    intro id
    rw [hshare n h.second, hkept]
    exact hmirrored.held_iff id
  rw [Mirrored, StoreVisit.mirrored_iff h.second]
  simp only [hheld]
  rfl

/-- The first visits that complete all leave an index that mirrors the functions exactly if, from each to the next,
every function that could be looked up still can or is gone. -/
theorem mirrored_iff_accounted (hshare : visits.ShareIndex) (last : Nat) :
    (∀ n ≤ last, visits.completes n = true → visits.Mirrored n) ↔
      ∀ m n, n ≤ last → visits.Next m n →
        ∀ id, visits.Searchable m id → visits.Searchable n id ∨ visits.Gone n id := by
  constructor
  · intro h m n hn hnext
    have hm : visits.Mirrored m := h m (Nat.le_trans (Nat.le_of_lt hnext.lt) hn) hnext.first
    exact (hnext.mirrored_iff hshare hm).1 (h n hn hnext.second)
  · intro h n
    induction n using Nat.strong_induction_on with
    | _ n ih =>
      intro hn hcompletes
      rcases visits.keptIndex_eq n with ⟨-, hempty⟩ | ⟨m, hm, hfirst, hbetween, -⟩
      · -- nothing is held before the first visit that completes
        refine (StoreVisit.mirrored_iff hcompletes).2 fun id hid => ?_
        rw [hshare n hcompletes, hempty] at hid
        cases hid
      · have hnext : visits.Next m n := ⟨hm, hfirst, hcompletes, hbetween⟩
        have hmirrored := ih m hm (Nat.le_trans (Nat.le_of_lt hm) hn) hfirst
        exact (hnext.mirrored_iff hshare hmirrored).2 (h m n hn hnext)

/-! ## Visits that all complete -/

section Complete

variable {policy : KeywordPolicy}

/-- If visits are regular, one starts with what has come of the one before. -/
theorem checkpoint_succ {n : Nat}
    (h : Regular policy ((List.range (n + 1)).map fun k => (visits k).visit)) :
    visits.checkpoint (n + 1) = ((visits n).visit.result (visits.checkpoint n)).checkpoint := by
  rw [List.range_succ, List.map_append, List.map_singleton] at h
  rw [checkpoint, List.range_succ, List.map_append, List.map_singleton]
  exact h.afterVisits_concat_eq

/-- If the first visits all complete, their indexes mirror the functions exactly if no function loses its keywords
and keeps its identifier. -/
theorem mirrored_iff_never_bare (hshare : visits.ShareIndex) {last : Nat}
    (hcompletes : ∀ n ≤ last, visits.completes n = true)
    (hregular : Regular policy ((List.range last).map fun k => (visits k).visit)) :
    (∀ n ≤ last, visits.Mirrored n) ↔
      ∀ n < last, ∀ id, visits.Searchable n id →
        (∃ f ∈ (visits (n + 1)).functions (visits.checkpoint (n + 1)), f.id = id) →
        visits.Searchable (n + 1) id := by
  have hmirrored : (∀ n ≤ last, visits.Mirrored n) ↔
      ∀ n ≤ last, visits.completes n = true → visits.Mirrored n :=
    forall₂_congr fun n hn => ⟨fun h _ => h, fun h => h (hcompletes n hn)⟩
  rw [hmirrored, mirrored_iff_accounted hshare last]
  constructor
  · intro h n hn id hid hrecorded
    have hnext : visits.Next n (n + 1) :=
      ⟨Nat.lt_succ_self n, hcompletes n (Nat.le_of_lt hn), hcompletes (n + 1) hn, by omega⟩
    refine (h n (n + 1) hn hnext id hid).resolve_right fun hgone => ?_
    obtain ⟨f, hf, rfl⟩ := hrecorded
    exact Inventory.not_mem_ids_of_mem_gone hgone (List.mem_map_of_mem hf)
  · intro h m n hn hnext id hid
    have hsucc : n = m + 1 := by
      by_contra hne
      have hlt : m + 1 < n := Nat.lt_of_le_of_ne hnext.lt (Ne.symm hne)
      have hfalse := hnext.between (m + 1) (Nat.lt_succ_self m) hlt
      rw [hcompletes (m + 1) (Nat.le_trans (Nat.le_of_lt hlt) hn)] at hfalse
      cases hfalse
    subst hsucc
    by_cases hrecorded : ∃ f ∈ (visits (m + 1)).functions (visits.checkpoint (m + 1)), f.id = id
    · exact .inl (h m hn id hid hrecorded)
    · refine .inr (Inventory.mem_gone_take ?_ fun hmem => hrecorded (List.mem_map.1 hmem))
      have hbefore : Regular policy ((List.range (m + 1)).map fun k => (visits k).visit) := by
        refine hregular.mono fun v hv => ?_
        obtain ⟨k, hk, rfl⟩ := List.mem_map.1 hv
        have hlt : k < m + 1 := List.mem_range.1 hk
        exact List.mem_map.2 ⟨k, List.mem_range.2 (Nat.lt_of_lt_of_le hlt hn), rfl⟩
      obtain ⟨f, hf, -, rfl⟩ := hid
      rw [checkpoint_succ hbefore]
      exact List.mem_map_of_mem hf

end Complete

end History

/-! A function that loses its keywords, and whose document stays. -/

namespace Sample

/-- An embedder for which all texts are alike. -/
def uniform : Embedder where
  modelId := "uniform"
  enabled := true
  embedBatch texts := .ok (texts.map (fun _ => [.zero]))

def worded : List UInt8 := bytesOf "def f(config):\n    return config\n"

def wordless : List UInt8 := bytesOf "def f(x):\n    return x\n"

def visitOver (e : Embedder) (bytes : List UInt8) (held : DocumentStore) : StoreVisit where
  setup := ⟨[], "", .default, .ofStore e ["index.json"], none, false⟩
  files := [(["a.py"], "a.py")]
  world := ⟨.folder [("a.py", .file bytes)], held⟩
  embedder := e
  place := ["index.json"]
  index_eq := rfl

/-- The function has keywords, then none; after that the index is not there any more. -/
def losing : History
  | 0 => visitOver uniform worded .empty
  | 1 => visitOver uniform wordless ((visitOver uniform worded .empty).loaded .empty).world.index
  | _ => visitOver { uniform with enabled := false } wordless .empty

theorem losing_first : losing.completes 0 = true := by
  show (losing 0).completes .empty = true
  decide +kernel

theorem losing_shareIndex : losing.ShareIndex := by
  intro n hn id
  match n with
  | 0 => rfl
  | 1 =>
    rw [History.keptIndex, losing_first]
    rfl
  | n + 2 => cases hn

theorem visitOver_plain (e : Embedder) (bytes : List UInt8) (held : DocumentStore) :
    (visitOver e bytes held).visit.Plain := .of_single rfl (by decide)

theorem losing_checkpoint :
    losing.checkpoint 1 = ((losing 0).visit.result .empty).checkpoint :=
  History.checkpoint_succ (n := 0) (.singleton (visitOver_plain ..))

theorem losing_functions :
    ((losing 0).functions .empty).map (fun f => (f.id, f.contextKeywords)) = [("a.py::f", "config")] ∧
      (losing 1).completes ((losing 0).visit.result .empty).checkpoint = true ∧
      ((losing 1).functions ((losing 0).visit.result .empty).checkpoint).map (·.contextKeywords) =
        [""] ∧
      ((losing 1).loaded ((losing 0).visit.result .empty).checkpoint).inventory.gone = [] := by
  decide +kernel

end Sample

/-- The function loses its keywords, so that the second visit does not leave a mirror. -/
theorem mirrored_iff_accounted_sample :
    ¬∀ n ≤ 1, Sample.losing.completes n = true → Sample.losing.Mirrored n := by
  obtain ⟨hfirst, hcompletes, hsecond, hgone⟩ := Sample.losing_functions
  rw [← Sample.losing_checkpoint] at hcompletes hsecond hgone
  have hnext : Sample.losing.Next 0 1 := ⟨Nat.zero_lt_one, Sample.losing_first, hcompletes, by omega⟩
  have hsearchable : Sample.losing.Searchable 0 "a.py::f" := by
    have hmem : ("a.py::f", "config") ∈
        ((Sample.losing 0).functions .empty).map (fun f => (f.id, f.contextKeywords)) := by
      rw [hfirst]
      exact List.mem_singleton_self _
    obtain ⟨f, hf, heq⟩ := List.mem_map.1 hmem
    obtain ⟨hid, hkeywords⟩ := Prod.mk.inj heq
    exact ⟨f, hf, by rw [hkeywords]; decide, hid⟩
  intro h
  rcases (History.mirrored_iff_accounted Sample.losing_shareIndex 1).1 h 0 1 (Nat.le_refl 1) hnext
    "a.py::f" hsearchable with ⟨f, hf, hkeywords, -⟩ | hmem
  · have hnone : f.contextKeywords ∈ [""] := hsecond ▸ List.mem_map_of_mem hf
    rw [List.mem_singleton.1 hnone] at hkeywords
    cases hkeywords
  · rw [History.Gone, hgone] at hmem
    cases hmem

end Consolidation
