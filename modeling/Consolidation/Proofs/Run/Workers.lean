/-
# `Proofs.Run.Workers` — proposals by several workers at once

The clusters are worked on batch by batch.  For each cluster of a batch there is a task, which waits for one of so many
permits, has its proposal made, and ends.  Tasks take up their work and end in any order; whenever one has ended its
result can be taken down, and a batch is over when there is no task left.  `Step` is what can happen next, so a sequence
of steps is any course that the work can take.

Each place of a cluster is in exactly one stage at any time: it is still to come, waits, is worked on, has ended, or has
its result (`Kept`, kept by every step).  So the work ends with one result for each cluster in its place
(`results_of_done`), and it always comes to an end: there is a next step until then (`done_or_step`), and each step leaves
less to do (`left_lt_of_step`).

The number of a task is given out by the runtime, which may give other numbers in other batches or to other workers.  It
stands in the error of a proposal that broke down, and nowhere else.  So two courses of the work come to the same results
up to these numbers (`UpToTask`), and to the very same exactly if the tasks that break down have the same numbers
(`Isolated.same_iff`).  A runtime that counts its tasks gives them others when the batches are of another size:

| size | tasks in the order in which they are begun | numbers of the two proposals |
| :-- | :-- | :-- |
| 2 | first cluster, second cluster, its proposal, its proposal | 3, 4 |
| 1 | first cluster, its proposal, second cluster, its proposal | 2, 4 |

## What is proved

For every workshop `s` (clusters, advisors, batch size, number of workers, and a number for each task) and every state `w`
to which the work can come: if the work is done, its results are `Isolated`; it can be brought to its end from `w`; and no
step from `w` can be repeated for ever, since each one leaves less to do.

`Isolated` says of the results that there is one for each cluster, in its place; that it is what came of the cluster's own
proposal, or an error if that broke down (`Answers`); that one proposal was made for each; that another workshop over the
same clusters with the same advisor, whatever its batches, workers and numbers are, ends with results that are the same up
to the numbers; and when they are the very same.
-/
import Mathlib.Data.List.Forall2
import Mathlib.Data.List.Perm.Basic
import Mathlib.Logic.Relation
import Consolidation.Proofs.Cluster.Calls
import Consolidation.Proofs.ParseError
import Consolidation.Proofs.Run.Proposals

namespace Consolidation

open Proposals

/-! ## The number of a task -/

/-- Two results that differ at most in the number of the task that broke down. -/
inductive ProposalResult.UpToTask : ProposalResult → ProposalResult → Prop where
  | same (r : ProposalResult) : UpToTask r r
  | brokeDown (c : Cluster) (task task' : Nat) (message : String) :
      UpToTask (settle c task (.brokeDown message)) (settle c task' (.brokeDown message))

namespace Proposals

theorem upToTask_settle (c : Cluster) (task task' : Nat) (attempt : Attempt) :
    (settle c task attempt).UpToTask (settle c task' attempt) := by
  cases attempt with
  | finished result => exact .same result
  | brokeDown message => exact .brokeDown c task task' message

theorem settle_eq_iff {c : Cluster} {task task' : Nat} {attempt : Attempt} :
    settle c task attempt = settle c task' attempt ↔
      ∀ message, attempt = .brokeDown message → task = task' := by
  constructor
  · rintro h message rfl
    have herror := congrArg (fun r : ProposalResult => r.errors.map String.toList) h
    simp only [settle, ProposalResult.failed, List.map_cons, List.map_nil, String.toList_append,
      List.cons.injEq, and_true, List.append_assoc, List.append_cancel_left_eq] at herror
    simp only [← List.append_assoc, List.append_cancel_right_eq] at herror
    exact toDigits_ten_inj.1 (by simpa [Nat.toString_eq_repr] using herror)
  · intro h
    cases attempt with
    | finished result => rfl
    | brokeDown message => rw [h message rfl]

variable {propose : Cluster → Attempt} (clusters : List Cluster) (number number' : Nat → Nat)

theorem upToTask_mapIdx :
    List.Forall₂ (Option.Rel ProposalResult.UpToTask)
      (clusters.mapIdx fun place c => some (settle c (number place) (propose c)))
      (clusters.mapIdx fun place c => some (settle c (number' place) (propose c))) := by
  refine List.forall₂_iff_get.2 ⟨by rw [List.length_mapIdx, List.length_mapIdx], ?_⟩
  intro place h h'
  rw [List.get_eq_getElem, List.get_eq_getElem, List.getElem_mapIdx, List.getElem_mapIdx]
  exact .some (upToTask_settle ..)

theorem mapIdx_settle_eq_iff :
    (clusters.mapIdx fun place c => some (settle c (number place) (propose c))) =
        (clusters.mapIdx fun place c => some (settle c (number' place) (propose c))) ↔
      ∀ (place : Nat) (c : Cluster) (message : String), clusters[place]? = some c →
        propose c = .brokeDown message → number place = number' place := by
  constructor
  · intro h place c message hc hattempt
    have hplace := congrArg (·[place]?) h
    simp only [List.getElem?_mapIdx, hc, Option.map_some, Option.some.injEq] at hplace
    exact settle_eq_iff.1 hplace message hattempt
  · intro h
    refine List.ext_getElem? fun place => ?_
    rw [List.getElem?_mapIdx, List.getElem?_mapIdx]
    cases hc : clusters[place]? with
    | none => rfl
    | some c =>
      have hsettle : settle c (number place) (propose c) = settle c (number' place) (propose c) :=
        settle_eq_iff.2 fun message hattempt => h place c message hc hattempt
      rw [Option.map_some, Option.map_some, hsettle]

end Proposals

/-! ## The work -/

/-- Clusters to work on, and how. -/
structure Workshop where
  clusters : List Cluster
  /-- An advisor for each cluster, so that what comes of a cluster is any function of it. -/
  advisor : Cluster → Advisor
  batchSize : Nat
  workers : Nat
  /-- The numbers of the tasks, by the places of their clusters. -/
  number : Nat → Nat

namespace Workshop

/-- Where the work stands.  Tasks go by the places of their clusters. -/
structure State where
  /-- The batches that have not been begun. -/
  later : List (List Nat)
  /-- The batch at hand. -/
  batch : List Nat
  /-- The tasks that wait for a permit. -/
  waiting : List Nat
  /-- The tasks that have a permit, in which a proposal is being made. -/
  running : List Nat
  /-- The tasks that have ended, with the ways they did, and whose results are not taken down yet. -/
  ended : List (Nat × Attempt)
  results : List (Option ProposalResult)
  /-- The places of the clusters for which proposals have been begun, in order. -/
  asked : List Nat

namespace State

structure Idle (w : State) : Prop where
  waiting : w.waiting = []
  running : w.running = []
  ended : w.ended = []

structure Done (w : State) : Prop extends w.Idle where
  later : w.later = []
  batch : w.batch = []

end State

variable (s : Workshop)

def propose (c : Cluster) : Attempt := (s.advisor c).propose c

def outcome (place : Nat) (c : Cluster) : ProposalResult := settle c (s.number place) (s.propose c)

def start : State where
  later := batches s.batchSize s.clusters.length
  batch := []
  waiting := []
  running := []
  ended := []
  results := List.replicate s.clusters.length none
  asked := []

/-- Lets a cluster fail for which there is no result. -/
def completeAt (results : List (Option ProposalResult)) (place : Nat) : List (Option ProposalResult) :=
  match results[place]?, s.clusters[place]? with
  | some none, some c => results.set place (some (.failed c "proposal task did not complete"))
  | _, _ => results

/-- What can happen next. -/
inductive Step : State → State → Prop where
  /-- The next batch is begun. -/
  | begin {w : State} {batch : List Nat} {later : List (List Nat)} : w.later = batch :: later →
      w.batch = [] → w.Idle →
      Step w { w with later := later, batch := batch, waiting := batch }
  /-- A task gets a permit, and a proposal is begun. -/
  | permit {w : State} {before after : List Nat} {place : Nat} :
      w.waiting = before ++ place :: after → w.running.length < max s.workers 1 →
      Step w { w with
        waiting := before ++ after, running := place :: w.running, asked := w.asked ++ [place] }
  /-- A proposal ends or breaks down, and the permit is given back. -/
  | finish {w : State} {before after : List Nat} {place : Nat} {c : Cluster} :
      w.running = before ++ place :: after → s.clusters[place]? = some c →
      Step w { w with running := before ++ after, ended := (place, s.propose c) :: w.ended }
  /-- The result of a task is taken down. -/
  | take {w : State} {before after : List (Nat × Attempt)} {place : Nat} {attempt : Attempt}
      {c : Cluster} :
      w.ended = before ++ (place, attempt) :: after → s.clusters[place]? = some c →
      Step w { w with
        ended := before ++ after
        results := w.results.set place (some (settle c (s.number place) attempt)) }
  /-- A batch is over. -/
  | close {w : State} : w.batch ≠ [] → w.Idle →
      Step w { w with batch := [], results := w.batch.foldl s.completeAt w.results }

def Reaches (w : State) : Prop := Relation.ReflTransGen s.Step s.start w

variable {s} {w w' : State}

/-! ## What every step keeps -/

/-- Each place is in one stage; those in `taken` have their results. -/
structure Kept (s : Workshop) (w : State) (taken : List Nat) : Prop where
  results : w.results = filled s.outcome s.clusters taken
  places : (taken ++ w.ended.map (·.1) ++ w.running ++ w.waiting ++ w.later.flatten).Perm
    (List.range s.clusters.length)
  asked : w.asked.Perm (taken ++ w.ended.map (·.1) ++ w.running)
  ended : ∀ e ∈ w.ended, ∀ c, s.clusters[e.1]? = some c → e.2 = s.propose c
  batch : ∀ place ∈ w.batch, place ∈ taken ++ w.ended.map (·.1) ++ w.running ++ w.waiting

theorem kept_start (s : Workshop) : s.Kept s.start [] where
  results := filled_nil.symm
  places := by simp [start, flatten_batches]
  asked := by simp [start]
  ended := by simp [start]
  batch := by simp [start]

theorem Kept.begin {taken : List Nat} (h : s.Kept w taken) {batch : List Nat}
    {later : List (List Nat)} (hlater : w.later = batch :: later) (hidle : w.Idle) :
    s.Kept { w with later := later, batch := batch, waiting := batch } taken where
  results := h.results
  places := by
    have hplaces := h.places
    rw [hlater, hidle.waiting, List.flatten_cons] at hplaces
    simpa using hplaces
  asked := h.asked
  ended := h.ended
  batch := fun place hplace => List.mem_append_right _ hplace

theorem Kept.permit {taken : List Nat} (h : s.Kept w taken) {before after : List Nat} {place : Nat}
    (hwaiting : w.waiting = before ++ place :: after) :
    s.Kept { w with
      waiting := before ++ after, running := place :: w.running, asked := w.asked ++ [place] }
      taken where
  results := h.results
  places := by
    refine List.Perm.trans (List.perm_iff_count.2 fun p => ?_) h.places
    simp only [hwaiting, List.count_append, List.count_cons]
    omega
  asked := by
    refine (h.asked.append_right [place]).trans (List.perm_iff_count.2 fun p => ?_)
    simp only [List.count_append, List.count_cons, List.count_nil]
    omega
  ended := h.ended
  batch := by
    intro p hp
    have hmem := h.batch p hp
    simp only [hwaiting, List.mem_append, List.mem_cons] at hmem ⊢
    tauto

theorem Kept.finish {taken : List Nat} (h : s.Kept w taken) {before after : List Nat} {place : Nat}
    {c : Cluster} (hrunning : w.running = before ++ place :: after)
    (hc : s.clusters[place]? = some c) :
    s.Kept { w with running := before ++ after, ended := (place, s.propose c) :: w.ended } taken where
  results := h.results
  places := by
    refine List.Perm.trans (List.perm_iff_count.2 fun p => ?_) h.places
    simp only [hrunning, List.map_cons, List.count_append, List.count_cons]
    omega
  asked := by
    refine h.asked.trans (List.perm_iff_count.2 fun p => ?_)
    simp only [hrunning, List.map_cons, List.count_append, List.count_cons]
    omega
  ended := by
    refine List.forall_mem_cons.2 ⟨fun c' hc' => ?_, h.ended⟩
    rw [hc] at hc'
    cases hc'
    rfl
  batch := by
    intro p hp
    have hmem := h.batch p hp
    simp only [hrunning, List.map_cons, List.mem_append, List.mem_cons] at hmem ⊢
    tauto

theorem Kept.take {taken : List Nat} (h : s.Kept w taken) {before after : List (Nat × Attempt)}
    {place : Nat} {attempt : Attempt} {c : Cluster}
    (hended : w.ended = before ++ (place, attempt) :: after) (hc : s.clusters[place]? = some c) :
    s.Kept { w with
      ended := before ++ after
      results := w.results.set place (some (settle c (s.number place) attempt)) }
      (place :: taken) where
  results := by
    have hattempt : attempt = s.propose c := h.ended (place, attempt) (by simp [hended]) c hc
    show w.results.set place (some (settle c (s.number place) attempt)) = _
    rw [h.results, hattempt]
    exact set_filled hc
  places := by
    refine List.Perm.trans (List.perm_iff_count.2 fun p => ?_) h.places
    simp only [hended, List.map_append, List.map_cons, List.cons_append, List.count_append,
      List.count_cons]
    omega
  asked := by
    refine h.asked.trans (List.perm_iff_count.2 fun p => ?_)
    simp only [hended, List.map_append, List.map_cons, List.cons_append, List.count_append,
      List.count_cons]
    omega
  ended := by
    intro e he
    refine h.ended e ?_
    rw [hended]
    simp only [List.mem_append, List.mem_cons] at he ⊢
    tauto
  batch := by
    intro p hp
    have hmem := h.batch p hp
    simp only [hended, List.map_append, List.map_cons, List.cons_append, List.mem_append,
      List.mem_cons] at hmem ⊢
    tauto

theorem foldl_completeAt {batch taken : List Nat} (h : ∀ place ∈ batch, place ∈ taken) :
    batch.foldl s.completeAt (filled s.outcome s.clusters taken) =
      filled s.outcome s.clusters taken := by
  induction batch with
  | nil => rfl
  | cons place batch ih =>
    obtain ⟨hplace, hbatch⟩ := List.forall_mem_cons.1 h
    have hone : s.completeAt (filled s.outcome s.clusters taken) place =
        filled s.outcome s.clusters taken := by
      unfold completeAt
      split
      · next hnone _ =>
        -- a place in `taken` has a result
        simp [filled, hplace] at hnone
      · rfl
    rw [List.foldl_cons, hone, ih hbatch]

theorem Kept.close {taken : List Nat} (h : s.Kept w taken) (hidle : w.Idle) :
    s.Kept { w with batch := [], results := w.batch.foldl s.completeAt w.results } taken where
  results := by
    have hbatch : ∀ place ∈ w.batch, place ∈ taken := by
      intro place hplace
      simpa [hidle.waiting, hidle.running, hidle.ended] using h.batch place hplace
    show w.batch.foldl s.completeAt w.results = _
    rw [h.results]
    exact foldl_completeAt hbatch
  places := h.places
  asked := h.asked
  ended := h.ended
  batch := by simp

theorem Kept.step {taken : List Nat} (h : s.Kept w taken) (hstep : s.Step w w') :
    ∃ taken', s.Kept w' taken' := by
  cases hstep with
  | begin hlater hbatch hidle => exact ⟨taken, h.begin hlater hidle⟩
  | permit hwaiting hpermit => exact ⟨taken, h.permit hwaiting⟩
  | finish hrunning hc => exact ⟨taken, h.finish hrunning hc⟩
  | take hended hc => exact ⟨_, h.take hended hc⟩
  | close hbatch hidle => exact ⟨taken, h.close hidle⟩

theorem Reaches.kept (h : s.Reaches w) : ∃ taken, s.Kept w taken := by
  induction h with
  | refl => exact ⟨[], kept_start s⟩
  | tail _ hstep ih =>
    obtain ⟨taken, hkept⟩ := ih
    exact hkept.step hstep

/-! ## The end of the work -/

/-- When all is done, each cluster has its result, and one proposal has been made for each. -/
theorem results_of_done (h : s.Reaches w) (hdone : w.Done) :
    w.results = s.clusters.mapIdx (fun place c => some (s.outcome place c)) ∧
      w.asked.Perm (List.range s.clusters.length) := by
  obtain ⟨taken, hkept⟩ := h.kept
  have hplaces : taken.Perm (List.range s.clusters.length) := by
    have hplaces := hkept.places
    rw [hdone.waiting, hdone.running, hdone.ended, hdone.later] at hplaces
    simpa using hplaces
  constructor
  · rw [hkept.results]
    exact filled_of_forall fun place hplace => hplaces.mem_iff.2 (List.mem_range.2 hplace)
  · have hasked := hkept.asked
    rw [hdone.running, hdone.ended] at hasked
    exact (by simpa using hasked : w.asked.Perm taken).trans hplaces

/-- There is a next step until all is done. -/
theorem done_or_step (h : s.Reaches w) : w.Done ∨ ∃ w', s.Step w w' := by
  obtain ⟨taken, hkept⟩ := h.kept
  have hcluster : ∀ place ∈ w.ended.map (·.1) ++ w.running, ∃ c, s.clusters[place]? = some c := by
    intro place hplace
    have hmem : place ∈ List.range s.clusters.length := by
      refine hkept.places.mem_iff.1 ?_
      simp only [List.mem_append] at hplace ⊢
      tauto
    exact ⟨_, List.getElem?_eq_getElem (List.mem_range.1 hmem)⟩
  cases hended : w.ended with
  | cons e ended =>
    obtain ⟨c, hc⟩ := hcluster e.1 (by simp [hended])
    have hfirst : w.ended = [] ++ e :: ended := hended
    exact .inr ⟨_, .take hfirst hc⟩
  | nil =>
    cases hrunning : w.running with
    | cons place running =>
      obtain ⟨c, hc⟩ := hcluster place (by simp [hrunning])
      have hfirst : w.running = [] ++ place :: running := hrunning
      exact .inr ⟨_, .finish hfirst hc⟩
    | nil =>
      cases hwaiting : w.waiting with
      | cons place waiting =>
        have hpermit : w.running.length < max s.workers 1 := by
          rw [hrunning]
          exact Nat.lt_of_lt_of_le Nat.one_pos (Nat.le_max_right _ _)
        have hfirst : w.waiting = [] ++ place :: waiting := hwaiting
        exact .inr ⟨_, .permit hfirst hpermit⟩
      | nil =>
        have hidle : w.Idle := ⟨hwaiting, hrunning, hended⟩
        by_cases hbatch : w.batch = []
        · cases hlater : w.later with
          | cons batch later => exact .inr ⟨_, .begin hlater hbatch hidle⟩
          | nil => exact .inl ⟨hidle, hlater, hbatch⟩
        · exact .inr ⟨_, .close hbatch hidle⟩

/-- How much is left to do: three steps for each cluster, and two for each batch. -/
def State.left (w : State) : Nat :=
  3 * w.later.flatten.length + 2 * w.later.length + (if w.batch = [] then 0 else 1) +
    3 * w.waiting.length + 2 * w.running.length + w.ended.length

theorem left_lt_of_step (h : s.Step w w') : w'.left < w.left := by
  cases h with
  | @begin batch later hlater hbatch hidle =>
    simp only [State.left, hlater, hbatch, hidle.waiting, List.flatten_cons, List.length_append,
      List.length_cons, List.length_nil]
    split <;> simp <;> omega
  | permit hwaiting hpermit =>
    simp only [State.left, hwaiting, List.length_append, List.length_cons]
    omega
  | finish hrunning hc =>
    simp only [State.left, hrunning, List.length_append, List.length_cons]
    omega
  | take hended hc =>
    simp only [State.left, hended, List.length_append, List.length_cons]
    omega
  | close hbatch hidle =>
    simp only [State.left, hbatch]
    simp

theorem Reaches.exists_done (h : s.Reaches w) :
    ∃ w', Relation.ReflTransGen s.Step w w' ∧ w'.Done := by
  induction hleft : w.left using Nat.strongRecOn generalizing w with
  | _ left ih =>
    rcases done_or_step h with hdone | ⟨next, hstep⟩
    · exact ⟨w, .refl, hdone⟩
    · obtain ⟨w', hsteps, hdone⟩ :=
        ih next.left (hleft ▸ left_lt_of_step hstep) (Relation.ReflTransGen.tail h hstep) rfl
      exact ⟨w', .head hstep hsteps, hdone⟩

/-! ## What the results say -/

/-- A result is for a cluster, and is what came of the advisor's proposal for it. -/
structure Answers (s : Workshop) (c : Cluster) (r : ProposalResult) : Prop where
  isFor : r.IsFor c
  own : ∀ result, s.propose c = .finished result → r = result
  failed : ∀ message, s.propose c = .brokeDown message → ∃ error, r = .failed c error

theorem answers_outcome (s : Workshop) (place : Nat) (c : Cluster) :
    s.Answers c (s.outcome place c) where
  isFor := isFor_settle fun _ h => Advisor.isFor_propose h
  own := by
    intro result h
    rw [outcome, h, settle]
  failed := by
    intro message h
    rw [outcome, h, settle]
    exact ⟨_, rfl⟩

/-- The results of work that is done: each cluster has its own, however the work went. -/
structure Isolated (s : Workshop) (w : State) : Prop where
  length : w.results.length = s.clusters.length
  result : ∀ (place : Nat) (c : Cluster), s.clusters[place]? = some c →
    ∃ r, w.results[place]? = some (some r) ∧ s.Answers c r
  /-- For each cluster one proposal has been made. -/
  once : w.asked.Perm (List.range s.clusters.length)
  /-- Other batches, other workers and another order of ends make no difference but for the numbers of tasks. -/
  upToTask : ∀ s' : Workshop, s'.clusters = s.clusters → s'.advisor = s.advisor →
    ∀ w', s'.Reaches w' → w'.Done →
      List.Forall₂ (Option.Rel ProposalResult.UpToTask) w'.results w.results
  /-- They make none at all exactly if the tasks that break down have the same numbers. -/
  same_iff : ∀ s' : Workshop, s'.clusters = s.clusters → s'.advisor = s.advisor →
    ∀ w', s'.Reaches w' → w'.Done →
      (w'.results = w.results ↔ ∀ (place : Nat) (c : Cluster) (message : String),
        s.clusters[place]? = some c → s.propose c = .brokeDown message →
          s'.number place = s.number place)
  /-- So it is if one batch after the other is worked on in any order. -/
  inBatches : ∀ (size : Nat) (order : EndOrder),
    (∀ batch ∈ batches size s.clusters.length, (order batch).Perm batch) →
      List.Forall₂ (Option.Rel ProposalResult.UpToTask) w.results
        ((inBatches s.propose order size s.clusters).map some)

/-- Other work on the same clusters with the same advisors ends with the results that its own numbers make. -/
theorem results_of_same {s' : Workshop} (hclusters : s'.clusters = s.clusters)
    (hadvisor : s'.advisor = s.advisor) (h' : s'.Reaches w') (hdone' : w'.Done) :
    w'.results =
      s.clusters.mapIdx (fun place c => some (settle c (s'.number place) (s.propose c))) := by
  have hpropose : s'.propose = s.propose := by
    funext c
    rw [propose, propose, hadvisor]
  have houtcome : s'.outcome = fun place c => settle c (s'.number place) (s.propose c) := by
    funext place c
    rw [outcome, hpropose]
  rw [(results_of_done h' hdone').1, hclusters, houtcome]

theorem isolated_of_done (h : s.Reaches w) (hdone : w.Done) : s.Isolated w := by
  have hown := results_of_same rfl rfl h hdone
  obtain ⟨hresults, hasked⟩ := results_of_done h hdone
  constructor
  case length => rw [hresults, List.length_mapIdx]
  case result =>
    intro place c hc
    refine ⟨s.outcome place c, ?_, s.answers_outcome place c⟩
    rw [hresults, List.getElem?_mapIdx, hc]
    rfl
  case once => exact hasked
  case upToTask =>
    intro s' hclusters hadvisor w' h' hdone'
    rw [results_of_same hclusters hadvisor h' hdone', hown]
    exact upToTask_mapIdx ..
  case same_iff =>
    intro s' hclusters hadvisor w' h' hdone'
    rw [results_of_same hclusters hadvisor h' hdone', hown]
    exact mapIdx_settle_eq_iff ..
  case inBatches =>
    intro size order horder
    have hbatches : (Proposals.inBatches s.propose order size s.clusters).map some =
        s.clusters.mapIdx (fun place c => some (settle c place (s.propose c))) := by
      rw [inBatches_eq size horder]
      refine List.ext_getElem? fun place => ?_
      rw [List.getElem?_map, List.getElem?_mapIdx, List.getElem?_mapIdx, Option.map_map]
      rfl
    rw [hown, hbatches]
    exact upToTask_mapIdx ..

/-- **Proposals are made apart from each other**: whatever course the work takes, it comes to an end
after so many steps, and then each cluster has the result of its own proposal. -/
theorem reaches_isolated (h : s.Reaches w) :
    (w.Done → s.Isolated w) ∧ (∃ w', Relation.ReflTransGen s.Step w w' ∧ w'.Done) ∧
      ∀ w', s.Step w w' → w'.left < w.left :=
  ⟨isolated_of_done h, h.exists_done, fun _ => left_lt_of_step⟩

namespace Sample

/-- Two clusters and two workers; the generator breaks down over the first cluster. -/
def workshop (size : Nat) (number : Nat → Nat) : Workshop where
  clusters := [⟨"k", [Clustering.Sample.atTop "a" "", Clustering.Sample.atTop "b" ""], Clustering.Sample.atTop "a" ""⟩,
    ⟨"l", [Clustering.Sample.atTop "c" "", Clustering.Sample.atTop "d" ""], Clustering.Sample.atTop "c" ""⟩]
  advisor c := {
    generator := ⟨"scripted", fun _ => if c.key = "k" then .brokeDown "boom" else .text "pass"⟩
    formatter := fun code => ⟨code, true, none⟩
    source := fun _ => none }
  batchSize := size
  workers := 2
  number := number

/-- In one batch, as a runtime counts its tasks. -/
def together : Workshop := workshop 2 (fun place => place + 3)

def apart : Workshop := workshop 1 (fun place => 2 * place + 2)

end Sample

theorem reaches_isolated_together :
    Sample.together.Reaches Sample.together.start ∧
      ∃ w, Sample.together.Reaches w ∧ w.Done ∧ Sample.together.Isolated w := by
  obtain ⟨-, ⟨w, hsteps, hdone⟩, -⟩ :=
    reaches_isolated (s := Sample.together) (w := Sample.together.start) .refl
  exact ⟨.refl, w, hsteps, hdone, (reaches_isolated hsteps).1 hdone⟩

/-- Over the same clusters and with the same advisors, batches of two sizes end with different results: the error of
the first cluster tells the number of its task. -/
theorem results_differ_between_sizes :
    Sample.apart.clusters = Sample.together.clusters ∧ Sample.apart.advisor = Sample.together.advisor ∧
      ∃ w w', Sample.together.Reaches w ∧ w.Done ∧ Sample.apart.Reaches w' ∧ w'.Done ∧
        w'.results ≠ w.results := by
  obtain ⟨w, hw, hdone⟩ := Reaches.exists_done (s := Sample.together) (w := Sample.together.start) .refl
  obtain ⟨w', hw', hdone'⟩ := Reaches.exists_done (s := Sample.apart) (w := Sample.apart.start) .refl
  refine ⟨rfl, rfl, w, w', hw, hdone, hw', hdone', fun heq => ?_⟩
  have hnumbers := ((isolated_of_done hw hdone).same_iff Sample.apart rfl rfl w' hw' hdone').1 heq
  have hnumber : Sample.apart.number 0 = Sample.together.number 0 := hnumbers 0 _ "boom" rfl rfl
  cases hnumber

end Workshop

end Consolidation
