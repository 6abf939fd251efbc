/-
# `Proofs.Run.Proposals` — results in the places of their clusters

However a batch ends, there is one result for each cluster (`length_inBatches`), so a report lists every cluster with
several members, whatever came of it (`outline_clusters_report`).

The results that have come in so far are told by the places that are filled (`filled`).  The batches have every place once
(`flatten_batches`), so in the end each place has the result of its cluster, however the batches are cut and in whatever
order they end (`inBatches_eq`).

What comes of a proposal is told by an `outcome` for each place; this module does not ask where it comes from.  The steps
in which results come in one by one, by workers that run at the same time, are in `Proofs.Run.Workers`; here a batch is a
function on the list of results, and `foldl_fill` ties the two together: filling places one after the other, in any order,
leaves the results that are named by `filled`.
-/
import Mathlib.Data.List.Basic
import Consolidation.Proofs.Proposal.Advisor
import Consolidation.Run.Basic

namespace Consolidation

/-! ## What a result says of its cluster -/

/-- A result that names a cluster, its canonical member and the number of its members. -/
structure ProposalResult.IsFor (r : ProposalResult) (c : Cluster) : Prop where
  clusterKey : r.clusterKey = c.key
  canonicalId : r.canonicalId = c.canonical.id
  memberCount : r.memberCount = c.size

theorem ProposalResult.isFor_failed (c : Cluster) (error : String) : (failed c error).IsFor c :=
  ⟨rfl, rfl, rfl⟩

theorem Advisor.Results.isFor {a : Advisor} {c : Cluster} {answer : String} {r : ProposalResult}
    (h : a.Results c answer r) : r.IsFor c := by
  cases h with
  | noCode => exact ProposalResult.isFor_failed c _
  | formatted => exact ⟨rfl, rfl, rfl⟩
  | kept => exact ⟨rfl, rfl, rfl⟩

theorem Advisor.isFor_propose {a : Advisor} {c : Cluster} {result : ProposalResult}
    (h : a.propose c = .finished result) : result.IsFor c := by
  rw [propose_eq] at h
  split at h
  · cases h
    exact ProposalResult.isFor_failed c _
  · cases hanswer : a.generator.generate (a.prompt c) with
    | text answer =>
      rw [hanswer] at h
      rw [← Attempt.finished.inj h]
      exact (a.results_resultOf c answer).isFor
    | failed reason =>
      rw [hanswer] at h
      rw [← Attempt.finished.inj h]
      exact ProposalResult.isFor_failed c _
    | brokeDown message =>
      rw [hanswer] at h
      cases h

namespace Proposals

theorem isFor_settle {c : Cluster} {task : Nat} {attempt : Attempt}
    (h : ∀ result, attempt = .finished result → result.IsFor c) : (settle c task attempt).IsFor c := by
  cases attempt with
  | finished result => exact h result rfl
  | brokeDown message => exact ProposalResult.isFor_failed c _

/-! ## One result for each cluster -/

variable {propose : Cluster → Attempt} {order : EndOrder} {clusters : List Cluster}

theorem length_fill (results : List (Option ProposalResult)) (place : Nat) :
    (fill propose clusters results place).length = results.length := by
  unfold fill
  split
  · exact List.length_set
  · rfl

theorem length_fillBatch (results : List (Option ProposalResult)) (batch : List Nat) :
    (fillBatch propose order clusters results batch).length = results.length := by
  unfold fillBatch
  induction order batch generalizing results with
  | nil => rfl
  | cons place places ih => rw [List.foldl_cons, ih, length_fill]

/-- There is one result for each cluster. -/
theorem length_inBatches (size : Nat) :
    (inBatches propose order size clusters).length = clusters.length := by
  have h : ∀ (batches : List (List Nat)) (results : List (Option ProposalResult)),
      (batches.foldl (fillBatch propose order clusters) results).length = results.length := by
    intro batches
    induction batches with
    | nil => exact fun _ => rfl
    | cons batch batches ih =>
      intro results
      rw [List.foldl_cons, ih, length_fillBatch]
  rw [inBatches, List.length_zipWith, h, List.length_replicate, Nat.min_self]

/-! ## Filled places -/

section Filled

variable {outcome : Nat → Cluster → ProposalResult} {places places' : List Nat}

/-- The results, if those of some places have come in. -/
def filled (outcome : Nat → Cluster → ProposalResult) (clusters : List Cluster) (places : List Nat) :
    List (Option ProposalResult) :=
  clusters.mapIdx (fun place c => if place ∈ places then some (outcome place c) else none)

theorem filled_nil : filled outcome clusters [] = List.replicate clusters.length none := by
  refine List.ext_getElem? fun place => ?_
  rw [filled, List.getElem?_mapIdx, List.getElem?_replicate]
  by_cases h : place < clusters.length <;> simp [h]

theorem filled_congr (h : ∀ place, place ∈ places ↔ place ∈ places') :
    filled outcome clusters places = filled outcome clusters places' := by
  simp only [filled, h]

theorem set_filled {place : Nat} {c : Cluster} (hc : clusters[place]? = some c) :
    (filled outcome clusters places).set place (some (outcome place c)) =
      filled outcome clusters (place :: places) := by
  refine List.ext_getElem? fun other => ?_
  rw [List.getElem?_set, filled, filled, List.getElem?_mapIdx, List.getElem?_mapIdx]
  by_cases hplace : place = other
  · subst hplace
    obtain ⟨hlt, rfl⟩ := List.getElem?_eq_some_iff.1 hc
    simp [hlt]
  · simp [hplace, Ne.symm hplace]

theorem filled_of_forall (h : ∀ place < clusters.length, place ∈ places) :
    filled outcome clusters places = clusters.mapIdx (fun place c => some (outcome place c)) := by
  refine List.ext_getElem? fun place => ?_
  rw [filled, List.getElem?_mapIdx, List.getElem?_mapIdx]
  by_cases hlt : place < clusters.length
  · simp [hlt, h place hlt]
  · simp [hlt]

end Filled

/-! ## All batches -/

theorem flatten_batchesFrom (size start count : Nat) :
    (batchesFrom size start count).flatten = List.range' start count := by
  fun_induction batchesFrom size start count with
  | case1 => rfl
  | case2 start count batch ih =>
    have hlen : batch.length = min (max size 1) (count + 1) := List.length_range'
    rw [List.flatten_cons, ih, hlen]
    show List.range' start (min (max size 1) (count + 1)) ++ _ = _
    have hcount : min (max size 1) (count + 1) + (count + 1 - min (max size 1) (count + 1)) =
        count + 1 := by omega
    rw [List.range'_append_1, hcount]

/-- Every place is in one batch, once. -/
theorem flatten_batches (size count : Nat) : (batches size count).flatten = List.range count := by
  rw [batches, flatten_batchesFrom, List.range_eq_range']

theorem foldl_fill (propose : Cluster → Attempt) {clusters : List Cluster} (added places : List Nat) :
    added.foldl (fill propose clusters)
        (filled (fun place c => settle c place (propose c)) clusters places) =
      filled (fun place c => settle c place (propose c)) clusters (added ++ places) := by
  induction added generalizing places with
  | nil => rfl
  | cons place added ih =>
    have hfill : fill propose clusters
        (filled (fun place c => settle c place (propose c)) clusters places) place =
        filled (fun place c => settle c place (propose c)) clusters (place :: places) := by
      unfold fill
      split
      · next c hc => exact set_filled hc
      · next hnone =>
        -- there is no such place
        refine List.ext_getElem? fun other => ?_
        have hne : ∀ c, clusters[other]? = some c → other ≠ place := by
          rintro c hc rfl
          rw [hnone] at hc
          cases hc
        rw [filled, filled, List.getElem?_mapIdx, List.getElem?_mapIdx]
        cases hc : clusters[other]? with
        | none => rfl
        | some c => simp [hne c hc]
    rw [List.foldl_cons, hfill, ih]
    refine filled_congr fun other => ?_
    simp only [List.mem_append, List.mem_cons]
    exact ⟨by rintro (h | h | h) <;> simp [h], by rintro ((h | h) | h) <;> simp [h]⟩

/-- Each place has the result of its cluster, however the batches are cut and in whatever order they end. -/
theorem inBatches_eq (size : Nat)
    (horder : ∀ batch ∈ batches size clusters.length, (order batch).Perm batch) :
    inBatches propose order size clusters =
      clusters.mapIdx (fun place c => settle c place (propose c)) := by
  have hfold : ∀ (later : List (List Nat)) (places : List Nat),
      (∀ batch ∈ later, (order batch).Perm batch) →
      later.foldl (fillBatch propose order clusters)
          (filled (fun place c => settle c place (propose c)) clusters places) =
        filled (fun place c => settle c place (propose c)) clusters (later.flatten ++ places) := by
    intro later
    induction later with
    | nil => exact fun _ _ => rfl
    | cons batch later ih =>
      intro places hperm
      obtain ⟨hbatch, hlater⟩ := List.forall_mem_cons.1 hperm
      rw [List.foldl_cons, fillBatch, foldl_fill, ih _ hlater]
      refine filled_congr fun place => ?_
      simp only [List.flatten_cons, List.mem_append, hbatch.mem_iff]
      exact ⟨by rintro (h | h | h) <;> simp [h], by rintro ((h | h) | h) <;> simp [h]⟩
  have hall : ∀ place < clusters.length,
      place ∈ (batches size clusters.length).flatten ++ [] := by
    intro place hplace
    simpa [flatten_batches] using hplace
  have hstart : filled (fun place c => settle c place (propose c)) clusters [] =
      List.replicate clusters.length none := filled_nil
  rw [inBatches, ← hstart, hfold _ _ horder, filled_of_forall hall]
  refine List.ext_getElem? fun place => ?_
  rw [List.getElem?_zipWith, List.getElem?_mapIdx, List.getElem?_mapIdx]
  cases clusters[place]? <;> rfl

end Proposals

namespace ClusterReport

/-- A listed cluster, without what came of it. -/
def outline (c : ClusterReport) : ClusterReport := { c with result := none }

theorem map_outline_zipWith (clusters : List Cluster) (results : List ProposalResult)
    (h : results.length = clusters.length) :
    (clusters.zipWith (fun c result => ofCluster c (some result)) results).map outline =
      clusters.map (fun c => ofCluster c none) := by
  induction clusters generalizing results with
  | nil => rfl
  | cons c clusters ih =>
    cases results with
    | nil => cases h
    | cons result results =>
      rw [List.zipWith_cons_cons, List.map_cons, List.map_cons, ih results (Nat.succ.inj h)]
      rfl

end ClusterReport

/-- A report lists the clusters with several members, whatever came of them. -/
theorem RunSetup.outline_clusters_report {σ : Type} (r : RunSetup σ) (files : Nat)
    (l : RunSetup.Loaded σ) (g : Grouping) (s : Checkpoint) (w : World σ) :
    (r.report files l g s (r.propose g.clustering.shared w)).clusters.map ClusterReport.outline =
      g.clustering.shared.map (fun c => ClusterReport.ofCluster c none) := by
  unfold report propose
  cases r.proposer with
  | none =>
    dsimp only [Option.map_none]
    rw [List.map_map]
    rfl
  | some p => exact ClusterReport.map_outline_zipWith _ _ (Proposals.length_inBatches _)

end Consolidation
