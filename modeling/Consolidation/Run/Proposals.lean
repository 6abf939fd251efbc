/-
# `Run.Proposals` — what comes of the clusters

The clusters are worked on in batches.  The attempts of a batch end in any order, and each result goes to the
place of its cluster; an attempt that breaks down costs its own cluster only.
-/
import Consolidation.Proposal.Advisor
import Consolidation.Text.Quoted

namespace Consolidation

/-- The order in which the attempts of a batch end, given by the places of their clusters. -/
abbrev EndOrder := List Nat → List Nat

namespace Proposals

/-- What an attempt comes to for a cluster; a breakdown tells the number of its task. -/
def settle (c : Cluster) (task : Nat) : Attempt → ProposalResult
  | .finished result => result
  | .brokeDown message =>
    .failed c ("proposal panicked: task " ++ toString task ++ " panicked with message " ++
      Text.quoted message)

/-- The places from `start` on, in batches of `size`; `count` of them are left. -/
def batchesFrom (size : Nat) : Nat → Nat → List (List Nat)
  | _, 0 => []
  | start, count + 1 =>
    let batch := List.range' start (min (max size 1) (count + 1))
    batch :: batchesFrom size (start + batch.length) (count + 1 - batch.length)
termination_by _ count => count
decreasing_by simp only [List.length_range']; omega

/-- The places of so many clusters in batches. -/
def batches (size count : Nat) : List (List Nat) := batchesFrom size 0 count

/-- Puts the result of the cluster at a place there. -/
def fill (propose : Cluster → Attempt) (clusters : List Cluster)
    (results : List (Option ProposalResult)) (place : Nat) : List (Option ProposalResult) :=
  match clusters[place]? with
  | some c => results.set place (some (settle c place (propose c)))
  | none => results

/-- Works on a batch. -/
def fillBatch (propose : Cluster → Attempt) (order : EndOrder) (clusters : List Cluster)
    (results : List (Option ProposalResult)) (batch : List Nat) : List (Option ProposalResult) :=
  (order batch).foldl (fill propose clusters) results

/-- The results for all clusters, each in the place of its cluster.  A cluster without one has failed. -/
def inBatches (propose : Cluster → Attempt) (order : EndOrder) (size : Nat)
    (clusters : List Cluster) : List ProposalResult :=
  let results := (batches size clusters.length).foldl (fillBatch propose order clusters)
    (List.replicate clusters.length none)
  clusters.zipWith (fun c r => r.getD (.failed c "proposal task did not complete")) results

def summary (results : List ProposalResult) : String :=
  toString (results.filter (·.isSuccess)).length ++ "/" ++ toString results.length ++
    " clusters consolidated"

end Proposals

end Consolidation
