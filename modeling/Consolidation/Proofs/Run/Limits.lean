/-
# `Proofs.Run.Limits` — the largest numbers that settings may have

The check of the settings refuses a number that is zero, and no number for its size.  Three numbers of eight bytes are
reckoned with later: the workers are counted by permits, the neighbours asked for are one more than are wanted, and a
batch of clusters ends its size behind its start.

The last of these sums is always right: a batch that is not the first one starts behind a whole batch, so its size is
below the number of clusters (`exists_of_mem_batches`).  The other two are not.  There are fewer permits than numbers, so
a run with too many workers comes to nothing, and the largest number of neighbours is counted on to zero, so that no
function finds a close one (`semanticKeyFor_none_asked`).

## What is proved

For all settings that the check accepts and whose counts are numbers of eight bytes, every surrounding, folder and file
system, if the folder is a project and its patterns can be read:

* there is a run if and only if the workers are no more than the permits there can be;
* one more neighbour is asked for than is wanted, if and only if the number wanted is not the largest one; and if it is,
  every function with keywords gets the key of its own keywords;
* each batch of clusters is the one from its start to its start and its size, or to the end, and the sum is a number of
  eight bytes, for up to `2 ^ 63` clusters.

That there is no run at all is more than a failed stage: such a run does not come back with a report in which it is told.
-/
import Mathlib.Algebra.Group.Nat.Defs
import Consolidation.Proofs.Run.Proposals
import Consolidation.Run.Wiring
import Consolidation.Settings.Check

namespace Consolidation

open Number

namespace Settings

/-- Are the counts numbers of eight bytes? -/
structure Sized (s : Settings) : Prop where
  workers : s.run.workers < 2 ^ 64
  batchSize : s.run.batchSize < 2 ^ 64
  neighbours : s.clustering.neighbours < 2 ^ 64

theorem batchSize_pos_of_fault?_eq_none {s : Settings} (h : s.fault? = none) : 0 < s.run.batchSize := by
  rw [fault?, Option.map_eq_none_iff, List.find?_eq_none] at h
  have hbatch := h (s.run.batchSize == 0, .noBatch) (by simp [suspicions])
  exact Nat.pos_of_ne_zero (by simpa using hbatch)

end Settings

/-! ## Batches -/

namespace Proposals

variable {size start count : Nat} {batch : List Nat}

/-- A batch reaches from some place to a whole size behind it or to the end, and a later one starts behind a whole size. -/
theorem exists_of_mem_batchesFrom (hsize : 0 < size) (h : batch ∈ batchesFrom size start count) :
    ∃ first, first < start + count ∧ (first = start ∨ start + size ≤ first) ∧
      batch = List.range' first (min (first + size) (start + count) - first) := by
  fun_induction batchesFrom size start count with
  | case1 => cases h
  | case2 start count foremost ih =>
    have hlength : foremost.length = min size (count + 1) := by
      rw [List.length_range', Nat.max_eq_left hsize]
    rcases List.mem_cons.1 h with rfl | h
    · refine ⟨start, by omega, .inl rfl, ?_⟩
      have hreach : min (start + size) (start + (count + 1)) - start = min (max size 1) (count + 1) := by omega
      rw [hreach]
    · obtain ⟨first, hfirst, hplace, hbatch⟩ := ih h
      have hend : start + foremost.length + (count + 1 - foremost.length) = start + (count + 1) := by omega
      rw [hend] at hfirst hbatch
      exact ⟨first, hfirst, .inr (by omega), hbatch⟩

/-- The end of a batch is a number of eight bytes, for as many clusters as there can be. -/
theorem exists_of_mem_batches (hsize : 0 < size) (hword : size < 2 ^ 64) (hcount : count ≤ 2 ^ 63)
    (h : batch ∈ batches size count) :
    ∃ first, first + size < 2 ^ 64 ∧ batch = List.range' first (min (first + size) count - first) := by
  obtain ⟨first, hfirst, hplace, hbatch⟩ := exists_of_mem_batchesFrom hsize h
  rw [Nat.zero_add] at hfirst hplace hbatch
  refine ⟨first, ?_, hbatch⟩
  rcases hplace with rfl | hbehind
  · rwa [Nat.zero_add]
  · omega

end Proposals

/-! ## Neighbours -/

namespace Clustering

theorem neighbourCount_eq_iff {count : Nat} (h : count < 2 ^ 64) :
    neighbourCount count = count + 1 ↔ count ≠ 2 ^ 64 - 1 := by
  rw [neighbourCount]
  omega

/-- Where no neighbours are asked for, a function has the key of its own keywords. -/
theorem semanticKeyFor_none_asked {query : NeighbourQuery} {threshold : Single} {count : Nat}
    (hnone : ∀ text, query text threshold 0 = .ok []) (hcount : neighbourCount count = 0) (c : Clustering)
    {f : FunctionRecord} (hkeywords : f.contextKeywords.isEmpty = false) :
    c.semanticKeyFor query threshold count f = .ok (semanticKey f.contextKeywords) := by
  rw [semanticKeyFor, hkeywords, hcount, hnone]
  rfl

end Clustering

theorem SimilarityIndex.query_ofStore_zero {e : Embedder} {path : Files.Path}
    (havailable : (ofStore e path).available = true) (store : DocumentStore) (text : String) (threshold : Single) :
    (ofStore e path).query store text threshold 0 = .ok [] := by
  have hnone : store.query e text threshold 0 = .ok [] := by
    rw [DocumentStore.query, if_pos (by simp)]
  change whenAvailable (ofStore e path).available ((store.query e text threshold 0).map (·.map Hit.id)) = _
  rw [havailable, hnone]
  rfl

/-! ## Runs -/

namespace RunSetup

variable {σ : Type} {r : RunSetup σ} {w : World σ}

theorem exists_run_iff (hproject : w.files.hasFolder r.project = true)
    (hpatterns : (Files.ScanOptions.ofPatterns? r.settings.scan.patterns r.settings.scan.excluded
      r.settings.scan.limit).isSome = true) :
    (∃ result, r.run w = .ok result) ↔ r.settings.run.workers ≤ RunFault.workerLimit := by
  obtain ⟨o, ho⟩ := Option.isSome_iff_exists.1 hpatterns
  have hrun : r.run w = if RunFault.workerLimit < r.settings.run.workers then .error .tooManyWorkers
      else .ok (r.runOver (r.startingCheckpoint w) (r.sourceFiles o w) w) := by
    simp only [run, hproject, ho, Bool.not_true, Bool.false_eq_true, if_false]
  rw [hrun]
  constructor
  · rintro ⟨result, hresult⟩
    by_contra hmany
    rw [if_pos (Nat.lt_of_not_le hmany)] at hresult
    cases hresult
  · intro hfew
    exact ⟨_, if_neg (Nat.not_lt.2 hfew)⟩

/-- With settings that the check accepts, in a project with patterns that can be read:

* there is a run exactly if there are no more workers than permits;
* one more neighbour than wanted is asked for, but with the largest number none is, and every function with keywords that gets a
  key by them gets its own;
* every batch of clusters ends at its start and its size, a sum that is a number of eight bytes. -/
theorem runWith_limits {s : Settings} (hvalid : s.fault? = none) (hsized : s.Sized) (outside : Surroundings)
    (folder : Files.Path) (root : String) (fresh : Bool) (files : Files.Entry)
    (hproject : files.hasFolder (.ofText folder root) = true)
    (hpatterns : (Files.ScanOptions.ofPatterns? s.scan.patterns s.scan.excluded s.scan.limit).isSome = true) :
    ((∃ result, runWith s outside folder root fresh files = .ok result) ↔ s.run.workers ≤ RunFault.workerLimit) ∧
      (Clustering.neighbourCount s.clustering.neighbours = s.clustering.neighbours + 1 ↔
        s.clustering.neighbours ≠ 2 ^ 64 - 1) ∧
      (s.clustering.neighbours = 2 ^ 64 - 1 → (ofSettings s outside folder root fresh).index.available = true →
        ∀ (store : DocumentStore) (c : Clustering) (f : FunctionRecord), f.contextKeywords.isEmpty = false →
          c.semanticKeyFor ((ofSettings s outside folder root fresh).index.query store) s.clustering.threshold
            s.clustering.neighbours f = .ok (semanticKey f.contextKeywords)) ∧
      ∀ clusters : List Cluster, clusters.length ≤ 2 ^ 63 →
        ∀ batch ∈ Proposals.batches s.run.batchSize clusters.length, ∃ first, first + s.run.batchSize < 2 ^ 64 ∧
          batch = List.range' first (min (first + s.run.batchSize) clusters.length - first) := by
  refine ⟨exists_run_iff hproject hpatterns, Clustering.neighbourCount_eq_iff hsized.neighbours, ?_, ?_⟩
  · intro hlargest havailable store c f hkeywords
    have hcount : Clustering.neighbourCount s.clustering.neighbours = 0 := by rw [hlargest]; rfl
    exact c.semanticKeyFor_none_asked
      (fun text => SimilarityIndex.query_ofStore_zero havailable store text s.clustering.threshold) hcount hkeywords
  · intro clusters hclusters batch hbatch
    exact Proposals.exists_of_mem_batches (Settings.batchSize_pos_of_fault?_eq_none hvalid) hsized.batchSize hclusters
      hbatch

namespace Sample

/-- Accepted settings with one worker too many for a run. -/
def crowded : Settings := { Settings.default with run := { RunSettings.default with workers := 2305843009213693952 } }

/-- No server answers, and no program starts. -/
def deserted : Surroundings := ⟨fun _ => .notConnected, fun _ => .notStarted "not found"⟩

end Sample

/-- The check accepts the settings, and there is no run over the folder. -/
theorem runWith_limits_crowded :
    Sample.crowded.fault? = none ∧
      ¬∃ result, runWith Sample.crowded Sample.deserted [] "" true .empty = .ok result := by
  have hvalid : Sample.crowded.fault? = none := by decide
  have hsized : Sample.crowded.Sized := ⟨by decide, by decide, by decide⟩
  obtain ⟨hworkers, -⟩ :=
    runWith_limits hvalid hsized Sample.deserted [] "" true .empty (by decide) (by decide)
  rw [hworkers]
  exact ⟨hvalid, by decide⟩

end RunSetup

end Consolidation
