/-
# `Proofs.Run.Partition` — the cluster stage partitions the functions

Functions come into clusters by three ways: they keep a key, they are assigned by a strategy, or they get the key of
functions that look alike when the look-up fails.  Whatever the remembered keys are, and whatever the look-ups say, each
function ends in the cluster of its key and nowhere else, and what is written down of the clusters says the same
(`Partitioned`).

Grouping gives a clustering whose maps agree, with members among the functions, and a key for each function and nothing
else.  `Coherent.partitioned` is all that follows from this; which way a function came plays no part in it.

## What is proved

For every checkpoint whose functions have different identifiers, every strategy, all answers (one look-up for each
function, which may fail, and may answer otherwise to another function with the same keywords) and any set of functions
that are new, the clustering and what is written of it are `Partitioned`:

| part | what it says |
| :-- | :-- |
| `domain` | exactly the functions have keys |
| `members` | the members of the cluster under a key are the functions with that key, each once |
| `clusters` | there are clusters under the keys in use, and no other ones |
| `keys_sorted`, `mem_keys` | the snapshot lists the keys in use, each once, in order |
| `files_sorted`, `mem_files` | beside each key it lists the files of the functions with that key, each once, in order |
| `shared`, `mem_shared` | the clusters of more than one member, in the order of their keys |

No induction over the functions is needed here: it was made once, for the coherence of the maps (`Proofs.Run.Grouping`).
-/
import Mathlib.Data.List.Nodup
import Mathlib.Data.List.Perm.Basic
import Consolidation.Proofs.Collection.Sorting
import Consolidation.Proofs.Run.Grouping
import Consolidation.Run.Basic

namespace Consolidation

/-! ## The files of a cluster -/

namespace Cluster

theorem mem_withoutRepeats {text : String} {texts : List String} :
    text ∈ withoutRepeats texts ↔ text ∈ texts := by
  fun_induction withoutRepeats texts <;> simp_all

theorem withoutRepeats_sorted {texts : List String} (h : texts.Pairwise (· ≤ ·)) :
    (withoutRepeats texts).Pairwise (· < ·) := by
  fun_induction withoutRepeats texts with
  | case1 => exact .nil
  | case2 a rest ih => exact ih (List.pairwise_cons.1 h).2
  | case3 a b rest hne ih =>
    obtain ⟨hle, hrest⟩ := List.pairwise_cons.1 h
    refine List.pairwise_cons.2 ⟨fun c hc => ?_, ih hrest⟩
    have hab : a < b := Std.lt_of_le_of_ne (hle b List.mem_cons_self) hne
    rcases List.mem_cons.1 (mem_withoutRepeats.1 hc) with rfl | hc
    · exact hab
    · exact Std.lt_of_lt_of_le hab ((List.pairwise_cons.1 hrest).1 c hc)
  | case4 a => exact List.pairwise_singleton ..

variable {c : Cluster}

theorem mem_filePaths {path : String} : path ∈ c.filePaths ↔ ∃ m ∈ c.members, m.filePath = path := by
  rw [filePaths, mem_withoutRepeats, List.mem_mergeSort, List.mem_map]

theorem filePaths_sorted : c.filePaths.Pairwise (· < ·) :=
  withoutRepeats_sorted (pairwise_mergeSort_key id _)

end Cluster

namespace Clustering

variable {c : Clustering}

/-! ## Clusters and keys -/

def sharing (functions : List FunctionRecord) (keys : Dict String) (key : String) :
    List FunctionRecord :=
  functions.filter (fun f => keys.find? f.id == some key)

theorem mem_sharing {functions : List FunctionRecord} {keys : Dict String} {key : String}
    {f : FunctionRecord} :
    f ∈ sharing functions keys key ↔ f ∈ functions ∧ keys.find? f.id = some key := by
  simp [sharing]

theorem Coherent.keys_values (h : c.Coherent) : c.clusters.values.map (·.key) = c.clusters.keys := by
  rw [Dict.values, Dict.keys, List.map_map]
  refine List.map_congr_left fun e he => ?_
  exact h.key_eq e.1 e.2 (Dict.mem_entries_iff.1 he)

theorem Coherent.mem_values_iff (h : c.Coherent) {k : Cluster} :
    k ∈ c.clusters.values ↔ c.clusters.find? k.key = some k := by
  rw [Dict.mem_values_iff]
  constructor
  · rintro ⟨key, hk⟩
    rwa [h.key_eq key k hk]
  · exact fun hk => ⟨k.key, hk⟩

theorem Coherent.keys_layout (h : c.Coherent) : c.layout.map (·.1) = c.clusters.keys := by
  rw [layout, List.map_map]
  exact h.keys_values

theorem Coherent.members_perm (h : c.Coherent) {functions : List FunctionRecord}
    (hm : c.MembersAre (· ∈ functions)) (hids : (functions.map (·.id)).Nodup) {key : String}
    {k : Cluster} (hk : c.clusters.find? key = some k) :
    k.members.Perm (sharing functions c.memberships key) := by
  have hmembers : k.members.Nodup := (h.ordered key k hk).ids.of_map
  have hsharing : (sharing functions c.memberships key).Nodup := hids.of_map.filter _
  refine (List.perm_ext_iff_of_nodup hmembers hsharing).2 fun m => ?_
  rw [mem_sharing, ← h.mem_ids_iff hk]
  constructor
  · exact fun hmem => ⟨hm key k hk m hmem, List.mem_map_of_mem hmem⟩
  · rintro ⟨hf, hid⟩
    obtain ⟨m', hm', heq⟩ := List.mem_map.1 hid
    exact List.inj_on_of_nodup_map hids (hm key k hk m' hm') hf heq ▸ hm'

theorem Coherent.isSome_clusters_iff (h : c.Coherent) {functions : List FunctionRecord}
    (hm : c.MembersAre (· ∈ functions)) {key : String} :
    (c.clusters.find? key).isSome ↔ sharing functions c.memberships key ≠ [] := by
  rw [Option.isSome_iff_exists]
  constructor
  · rintro ⟨k, hk⟩
    have hcan := (h.ordered key k hk).canonical_mem
    exact List.ne_nil_of_mem (mem_sharing.2
      ⟨hm key k hk _ hcan, (h.mem_ids_iff hk).1 (List.mem_map_of_mem hcan)⟩)
  · intro hne
    obtain ⟨f, hf⟩ := List.exists_mem_of_ne_nil _ hne
    obtain ⟨k, hk, -⟩ := (h.membership f.id key).1 (mem_sharing.1 hf).2
    exact ⟨k, hk⟩

end Clustering

/-! ## Partitions -/

open Clustering

/-- A clustering, and what a checkpoint says of it, sort functions into clusters. -/
structure Partitioned (functions : List FunctionRecord) (c : Clustering) (s : Checkpoint) : Prop where
  /-- The functions have keys, and nothing else has. -/
  domain : ∀ id, (s.memberships.find? id).isSome ↔ id ∈ functions.map (·.id)
  /-- There is a cluster under each key in use, and no other one. -/
  clusters : ∀ key, (c.clusters.find? key).isSome ↔ sharing functions s.memberships key ≠ []
  /-- A cluster has the functions with its key as its members, each once. -/
  members : ∀ key k, c.clusters.find? key = some k →
    k.members.Perm (sharing functions s.memberships key)
  /-- The keys in use are listed, each once, in order. -/
  keys_sorted : (s.layout.map (·.1)).Pairwise (· < ·)
  mem_keys : ∀ key, key ∈ s.layout.map (·.1) ↔ sharing functions s.memberships key ≠ []
  /-- Beside each key are the files of its functions, each once, in order. -/
  files_sorted : ∀ e ∈ s.layout, e.2.Pairwise (· < ·)
  mem_files : ∀ e ∈ s.layout, ∀ path,
    path ∈ e.2 ↔ ∃ f ∈ sharing functions s.memberships e.1, f.filePath = path
  /-- The clusters that count as shared are those of keys that several functions have, in order. -/
  shared : c.shared.map (·.key) =
    (s.layout.map (·.1)).filter (fun key => 2 ≤ (sharing functions s.memberships key).length)
  mem_shared : ∀ k ∈ c.shared, c.clusters.find? k.key = some k

theorem Clustering.Coherent.partitioned {c : Clustering} (h : c.Coherent)
    {functions : List FunctionRecord} (hm : c.MembersAre (· ∈ functions))
    (hids : (functions.map (·.id)).Nodup)
    (hdomain : ∀ id, (c.memberships.find? id).isSome ↔ id ∈ functions.map (·.id)) (s : Checkpoint) :
    Partitioned functions c (s.setClusters c) where
  domain := hdomain
  clusters := fun key => h.isSome_clusters_iff hm
  members := fun key k hk => h.members_perm hm hids hk
  keys_sorted := by
    show (c.layout.map (·.1)).Pairwise (· < ·)
    rw [h.keys_layout]
    exact List.pairwise_map.2 c.clusters.sorted
  mem_keys := by
    intro key
    show key ∈ c.layout.map (·.1) ↔ _
    rw [h.keys_layout, Dict.mem_keys_iff]
    exact h.isSome_clusters_iff hm
  files_sorted := by
    intro e he
    obtain ⟨k, -, rfl⟩ := List.mem_map.1 he
    exact Cluster.filePaths_sorted
  mem_files := by
    intro e he path
    obtain ⟨k, hk, rfl⟩ := List.mem_map.1 he
    have hperm := h.members_perm hm hids (h.mem_values_iff.1 hk)
    rw [Cluster.mem_filePaths]
    exact exists_congr fun m => and_congr_left fun _ => hperm.mem_iff
  shared := by
    have hsize : ∀ k ∈ c.clusters.values,
        (decide (1 < k.size)) = decide (2 ≤ (sharing functions c.memberships k.key).length) := by
      intro k hk
      rw [Cluster.size, (h.members_perm hm hids (h.mem_values_iff.1 hk)).length_eq]
      rfl
    show (c.clusters.values.filter (fun k => 1 < k.size)).map (·.key) =
      (c.layout.map (·.1)).filter _
    rw [h.keys_layout, ← h.keys_values, List.filter_map, List.filter_congr hsize]
    rfl
  mem_shared := fun k hk => h.mem_values_iff.1 (List.mem_filter.1 hk).1

/-- **The cluster stage partitions the functions**, whatever keys are remembered, which functions are new, how
they are assigned and what each look-up says. -/
theorem partitioned_withAnswers (s : Checkpoint) (hids : (s.allFunctions.map (·.id)).Nodup)
    (strategy : Strategy) (answers : FunctionRecord → NeighbourQuery) (fresh : TextSet) :
    Partitioned s.allFunctions
      (Grouping.withAnswers strategy answers fresh s.memberships s.allFunctions).clustering
      (s.setClusters
        (Grouping.withAnswers strategy answers fresh s.memberships s.allFunctions).clustering) := by
  obtain ⟨hcoherent, hmembers⟩ : (Grouping.withAnswers strategy answers fresh s.memberships
    s.allFunctions).clustering.Coherent ∧ _ := Grouping.withAnswers_maps
  exact hcoherent.partitioned hmembers hids (fun id => Grouping.isSome_find?_withAnswers id) s

namespace Sample

/-- Three functions, and keys of one of them and of another that is gone. -/
def remembering : Checkpoint :=
  { Checkpoint.empty with
    functions := Dict.ofList [("a.py", [Clustering.Sample.atTop "a.py" "parse"]),
      ("b.py", [Clustering.Sample.atTop "b.py" "parse"]), ("c.py", [Clustering.Sample.atTop "c.py" "parse"])]
    memberships := Dict.ofList [("a.py::load", "sem:1"), ("gone.py::load", "sem:1")] }

end Sample

/-- One function keeps its key, one gets it from that one, and one look-up fails. -/
theorem partitioned_remembering :
    (Sample.remembering.allFunctions.map (·.id)).Nodup ∧
      Partitioned Sample.remembering.allFunctions
        (Grouping.withAnswers (.semantic .one 1)
          (fun f _ _ _ => if f.filePath = "b.py" then .error .content else .ok ["a.py::load"])
          Dict.empty Sample.remembering.memberships Sample.remembering.allFunctions).clustering
        (Sample.remembering.setClusters (Grouping.withAnswers (.semantic .one 1)
          (fun f _ _ _ => if f.filePath = "b.py" then .error .content else .ok ["a.py::load"])
          Dict.empty Sample.remembering.memberships Sample.remembering.allFunctions).clustering) :=
  ⟨by decide, partitioned_withAnswers Sample.remembering (by decide) _ _ _⟩

/-- What a run reports and writes down is a partition, if its records tell all functions apart. -/
theorem RunSetup.partitioned_group {σ : Type} (r : RunSetup σ) (l : RunSetup.Loaded σ)
    (hids : (l.inventory.checkpoint.allFunctions.map (·.id)).Nodup) :
    Partitioned l.inventory.checkpoint.allFunctions (r.group l).clustering
      (l.inventory.checkpoint.setClusters (r.group l).clustering) :=
  Grouping.ofFunctions_maps.1.partitioned Grouping.ofFunctions_maps.2 hids
    (fun id => Grouping.isSome_find?_ofFunctions id) _

end Consolidation
