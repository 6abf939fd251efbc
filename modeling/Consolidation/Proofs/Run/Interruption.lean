/-
# `Proofs.Run.Interruption` — runs that are stopped, and made again

A run writes its checkpoint twice, and before the first time it makes the index last.  So a run that is stopped in between
leaves either the checkpoint that it began with and an index that is ahead of it, or the records of the files without the
clusters (`Visit.left`).  The next run over the same tree makes up for it if it comes to the functions and clusters that
the stopped one would have come to (`Visit.MadeUp`).

| stopped | what the next run finds |
| :-- | :-- |
| `indexed` | the same files to extract; what it takes out of the index and puts in is out and in already |
| `recorded` | nothing to extract (`Inventory.settled_take`) and nothing gone; no key is remembered of what was extracted |

In both cases functions and remembered keys are the same, and keys are remembered of none that was extracted
(`Inventory.Orderly.fresh_unkeyed`), so that the same functions keep theirs.  What is left to see is that the index lasts
as it did and answers as it did (`Visit.madeUp_of_query`).  It does so if it is deterministic, since its answers depend on
what it holds, and if it keeps what was made to last (`Visit.madeUp_of_deterministic`); whether the index over a store
keeps that is the matter of `Proofs.Run.Reopening`.

## What a stop is

A run that is killed is a run some of whose writings have happened.  There are three: the index, the checkpoint with the
records, and the checkpoint with the clusters.  Each is a file that is replaced as a whole, so a run that is stopped has
done the first none, one, two or all of them.  A run that was stopped before the first has left nothing, and the next one
is the run itself; the two between are `Stop.indexed` and `Stop.recorded`.

Earlier runs may have been stopped as well, or have come to their ends (`afterRuns`); what they leave is orderly in any
case (`orderly_afterRuns`), and no more than that is needed of it.
-/
import Consolidation.Proofs.Run.Orderly
import Consolidation.Proofs.Run.Repetition
import Consolidation.Proofs.Similarity.Deterministic

namespace Consolidation

open Inventory SimilarityIndex

/-- Where a run is stopped. -/
inductive Stop where
  /-- The index was made to last, and the checkpoint has not been written. -/
  | indexed
  /-- The checkpoint was written after the files had been looked at, and the functions have not been sorted. -/
  | recorded

namespace Visit

/-- The checkpoint that is there after a visit that started with one and was stopped, or came to its end. -/
def left (v : Visit) (s : Checkpoint) : Option Stop → Checkpoint
  | some .indexed => s
  | some .recorded => .ofBytes (v.loaded s).inventory.checkpoint.toBytes
  | none => .ofBytes (v.result s).checkpoint.toBytes

def again (v : Visit) (w : World v.σ) : Visit := { v with world := w }

/-- Was the index there and made to last, keywords being looked for? -/
structure Lasted (v : Visit) (s : Checkpoint) : Prop where
  available : v.setup.index.available = true
  keywords : v.setup.settings.clustering.keywords = true
  completed : (v.loaded s).indexError = none

/-- Does the visit that is made in some world after a stopped one come to what that one would have come to? -/
structure MadeUp (v : Visit) (s : Checkpoint) (stop : Stop) (w : World v.σ) : Prop where
  strategy_eq : ((v.again w).result (v.left s (some stop))).report.strategy =
    (v.result s).report.strategy
  functions_eq : ((v.again w).result (v.left s (some stop))).checkpoint.functions =
    (v.result s).checkpoint.functions
  clusters : SameClusters ((v.again w).result (v.left s (some stop))) (v.result s)

/-- Is a world one in which a visit that was stopped can be made again? -/
structure Resumes (v : Visit) (s : Checkpoint) (b : Behaviour) (holds : v.σ → Held → Prop)
    (w : World v.σ) : Prop where
  read_eq : ∀ file ∈ v.files, v.world.files.read file.1 = w.files.read file.1
  lasts_eq : b.lasts w.files = b.lasts v.world.files
  held : ∃ d, holds w.index d
  /-- The index keeps what was made to last. -/
  lasting : v.Lasted s → ∀ d, holds (v.loaded s).world.index d → holds w.index d

end Visit

/-- The checkpoint that runs leave, each of which may have been stopped.  A run that passes over the checkpoint is the
first of some runs. -/
def afterRuns (runs : List (Visit × Option Stop)) : Checkpoint :=
  runs.foldl (fun s run => run.1.left s run.2) .empty

theorem afterRuns_append (runs : List (Visit × Option Stop)) (v : Visit) (stop : Option Stop) :
    afterRuns (runs ++ [(v, stop)]) = v.left (afterRuns runs) stop := by
  rw [afterRuns, List.foldl_append]
  rfl

/-! ## What is left -/

namespace Visit

variable {v : Visit} {s : Checkpoint}

theorem orderly_loaded (hs : s.Orderly) (hplain : v.Plain) : (v.loaded s).inventory.Orderly :=
  orderly_take hs v.policy v.world.files hplain.paths

theorem orderly_result (hs : s.Orderly) (hplain : v.Plain) : (v.result s).checkpoint.Orderly :=
  (orderly_loaded hs hplain).checkpoint.setClusters fun id hid =>
    (Grouping.isSome_find?_ofFunctions id).1 hid

theorem left_recorded (hs : s.Orderly) (hplain : v.Plain) :
    v.left s (some .recorded) = (v.loaded s).inventory.checkpoint :=
  (orderly_loaded hs hplain).checkpoint.ofBytes_toBytes

theorem orderly_left (hs : s.Orderly) (hplain : v.Plain) (stop : Option Stop) :
    (v.left s stop).Orderly := by
  match stop with
  | some .indexed => exact hs
  | some .recorded =>
    rw [left_recorded hs hplain]
    exact (orderly_loaded hs hplain).checkpoint
  | none =>
    rw [left, (orderly_result hs hplain).ofBytes_toBytes]
    exact orderly_result hs hplain

end Visit

theorem orderly_afterRuns {runs : List (Visit × Option Stop)} (h : ∀ run ∈ runs, run.1.Plain) :
    (afterRuns runs).Orderly := by
  have hfold : ∀ s : Checkpoint, s.Orderly →
      (runs.foldl (fun s run => run.1.left s run.2) s).Orderly := by
    induction runs with
    | nil => exact fun _ hs => hs
    | cons run runs ih =>
      intro s hs
      exact ih (fun run hrun => h run (List.mem_cons_of_mem _ hrun)) _
        (Visit.orderly_left hs (h run List.mem_cons_self) run.2)
  exact hfold .empty Checkpoint.orderly_empty

/-! ## The next run -/

namespace Visit

variable {v : Visit} {s t : Checkpoint} {w : World v.σ} {b : Behaviour} {holds : v.σ → Held → Prop}
  {d d' : Held}

/-- Does an inventory go on from another one, over the same functions and keys? -/
structure Continues (i j : Inventory) : Prop where
  functions_eq : j.checkpoint.functions = i.checkpoint.functions
  memberships_eq : j.checkpoint.memberships = i.checkpoint.memberships
  gone : j.gone = i.gone ∨ j.gone = []

/-- The run that follows a stopped one goes on from its inventory, wherever it was stopped. -/
theorem continues_left (hs : s.Orderly) (hplain : v.Plain)
    (hread : ∀ file ∈ v.files, v.world.files.read file.1 = w.files.read file.1) (stop : Stop) :
    Continues (v.loaded s).inventory ((v.again w).loaded (v.left s (some stop))).inventory := by
  have hagain : ∀ t, ((v.again w).loaded t).inventory = take v.policy v.world.files t v.files :=
    fun t => (take_congr hread).symm
  rw [hagain]
  cases stop with
  | indexed => exact ⟨rfl, rfl, .inl rfl⟩
  | recorded =>
    -- the records are read back, and when the files are looked at again only failures are met
    rw [left_recorded hs hplain, inventory_loaded]
    have hsettled : Settled v.policy v.world.files v.files
        (take v.policy v.world.files s v.files).checkpoint := settled_take hs.sound hplain.nodup
    have hsame := hsettled.sameFunctions_take
    refine ⟨hsame.functions_eq, hsame.memberships_eq, .inr ?_⟩
    rw [Inventory.gone, hsame.stale_eq]
    rfl

theorem Continues.allFunctions_eq {i j : Inventory} (h : Continues i j) :
    j.checkpoint.allFunctions = i.checkpoint.allFunctions := by
  rw [Checkpoint.allFunctions, h.functions_eq, Checkpoint.allFunctions]

/-! The index. -/

theorem lasted_iff (h : v.setup.index.Deterministic b holds) (hd : holds v.world.index d) :
    v.Lasted s ↔ v.setup.index.available = true ∧ v.setup.settings.clustering.keywords = true ∧
      b.takesAll (searchable (v.loaded s).inventory.checkpoint.allFunctions) = true ∧
      b.lasts v.world.files = true := by
  have herror : v.setup.index.available = true → v.setup.settings.clustering.keywords = true →
      ((v.loaded s).indexError = none ↔
        b.takesAll (searchable (v.loaded s).inventory.checkpoint.allFunctions) = true ∧
          b.lasts v.world.files = true) := by
    intro havailable hkeywords
    rw [indexError_loaded, hkeywords]
    exact h.update_error_iff havailable hd
  constructor
  · rintro ⟨havailable, hkeywords, hcompleted⟩
    exact ⟨havailable, hkeywords, (herror havailable hkeywords).1 hcompleted⟩
  · rintro ⟨havailable, hkeywords, hcompleted⟩
    exact ⟨havailable, hkeywords, (herror havailable hkeywords).2 hcompleted⟩

theorem resumes_loaded (h : v.setup.index.Deterministic b holds) (hd : holds v.world.index d)
    (hread : ∀ file ∈ v.files, v.world.files.read file.1 = (v.loaded s).world.files.read file.1)
    (hlasts : b.lasts (v.loaded s).world.files = b.lasts v.world.files) :
    v.Resumes s b holds (v.loaded s).world where
  read_eq := hread
  lasts_eq := hlasts
  held := h.exists_holds_update hd _
  lasting := fun _ _ hd => hd

theorem Lasted.strategy_eq (h : v.Lasted s) :
    v.setup.strategy (v.loaded s) = .semantic v.setup.settings.clustering.threshold
      v.setup.settings.clustering.neighbours := by
  simp [RunSetup.strategy, Strategy.select, h.available, h.keywords, h.completed]

theorem byLooks_of_not_lasted (h : ¬v.Lasted s) : v.ByLooks s := by
  unfold ByLooks RunSetup.strategy Strategy.select
  dsimp only
  split
  · next hselect =>
    simp only [Bool.and_eq_true, Option.isNone_iff_eq_none] at hselect
    exact absurd ⟨hselect.1.2, hselect.2, hselect.1.1⟩ h
  · rfl

theorem Lasted.holds_loaded (hlasted : v.Lasted s) (h : v.setup.index.Deterministic b holds)
    (hd : holds v.world.index d) :
    holds (v.loaded s).world.index
      (Held.put (searchable (v.loaded s).inventory.checkpoint.allFunctions)
        (Held.drop b.drops (v.loaded s).inventory.gone d)) := by
  have herror := hlasted.completed
  rw [indexError_loaded, hlasted.keywords] at herror
  have hupdated := h.holds_update hlasted.available hd herror
  rw [← hlasted.keywords] at hupdated
  exact hupdated

theorem lasted_again_iff (h : v.setup.index.Deterministic b holds) (hd : holds v.world.index d)
    (hresumes : v.Resumes s b holds w)
    (hcontinues : Continues (v.loaded s).inventory ((v.again w).loaded t).inventory) :
    (v.again w).Lasted t ↔ v.Lasted s := by
  obtain ⟨d', hd'⟩ := hresumes.held
  have hagain : (v.again w).Lasted t ↔ _ := lasted_iff (v := v.again w) h hd'
  rw [hagain, hcontinues.allFunctions_eq, lasted_iff h hd]
  show _ ∧ _ ∧ _ ∧ b.lasts w.files = true ↔ _
  rw [hresumes.lasts_eq]
  rfl

theorem query_again (h : v.setup.index.Deterministic b holds) (hd : holds v.world.index d)
    (hresumes : v.Resumes s b holds w)
    (hcontinues : Continues (v.loaded s).inventory ((v.again w).loaded t).inventory)
    (hlasted : v.Lasted s) :
    v.setup.index.query ((v.again w).loaded t).world.index =
      v.setup.index.query (v.loaded s).world.index := by
  -- the index holds what the stopped run has put in, and the same is put in and taken out once more
  have hfirst := hlasted.holds_loaded h hd
  have hkept := hresumes.lasting hlasted _ hfirst
  have hsecond := ((lasted_again_iff h hd hresumes hcontinues).2 hlasted).holds_loaded h hkept
  rw [hcontinues.allFunctions_eq] at hsecond
  rw [h.query_eq hfirst, h.query_eq hsecond]
  congr 1
  rcases hcontinues.gone with hgone | hgone
  · rw [hgone]
    exact Held.put_drop_put ..
  · rw [hgone]
    exact Held.put_put ..

/-! The clusters. -/

/-- A run that goes on from the inventory of another sorts the functions as that one would, if its index lasts like the
other one and answers alike. -/
theorem group_again (hcontinues : Continues (v.loaded s).inventory ((v.again w).loaded t).inventory)
    (hfirst : (v.loaded s).inventory.Orderly) (hsecond : ((v.again w).loaded t).inventory.Orderly)
    (hlasted : (v.again w).Lasted t ↔ v.Lasted s)
    (hquery : v.Lasted s → v.setup.index.query ((v.again w).loaded t).world.index =
      v.setup.index.query (v.loaded s).world.index) :
    v.setup.strategy ((v.again w).loaded t) = v.setup.strategy (v.loaded s) ∧
      v.setup.group ((v.again w).loaded t) = v.setup.group (v.loaded s) := by
  unfold RunSetup.group
  rw [Grouping.ofFunctions_unkeyed hfirst.fresh_unkeyed,
    Grouping.ofFunctions_unkeyed hsecond.fresh_unkeyed, hcontinues.memberships_eq,
    hcontinues.allFunctions_eq]
  by_cases hl : v.Lasted s
  · have hstrategy : v.setup.strategy ((v.again w).loaded t) = v.setup.strategy (v.loaded s) :=
      (hlasted.2 hl).strategy_eq.trans hl.strategy_eq.symm
    exact ⟨hstrategy, by rw [hstrategy, hquery hl]⟩
  · have hfirst : v.setup.strategy (v.loaded s) = .structural := byLooks_of_not_lasted hl
    have hsecond : v.setup.strategy ((v.again w).loaded t) = .structural :=
      byLooks_of_not_lasted fun hl' => hl (hlasted.1 hl')
    rw [hfirst, hsecond]
    exact ⟨rfl, Grouping.ofFunctions_structural_query ..⟩

/-- A stopped run is made up for if the index of the next one lasts like its own and answers alike. -/
theorem madeUp_of_query (hs : s.Orderly) (hplain : v.Plain)
    (hread : ∀ file ∈ v.files, v.world.files.read file.1 = w.files.read file.1) (stop : Stop)
    (hlasted : (v.again w).Lasted (v.left s (some stop)) ↔ v.Lasted s)
    (hquery : v.Lasted s →
      v.setup.index.query ((v.again w).loaded (v.left s (some stop))).world.index =
        v.setup.index.query (v.loaded s).world.index) : v.MadeUp s stop w := by
  have hcontinues := continues_left hs hplain hread stop
  have hsecond := orderly_loaded (v := v.again w) (orderly_left hs hplain (some stop))
    ⟨hplain.nodup, hplain.paths⟩
  obtain ⟨hstrategy, hgroup⟩ :=
    group_again hcontinues (orderly_loaded hs hplain) hsecond hlasted hquery
  exact ⟨congrArg Strategy.display hstrategy, hcontinues.functions_eq,
    sameClusters (congrArg Grouping.clustering hgroup)⟩

/-- So it is with every deterministic index that keeps what was made to last. -/
theorem madeUp_of_deterministic (hs : s.Orderly) (hplain : v.Plain)
    (hindex : v.setup.index.Deterministic b holds) (hd : holds v.world.index d)
    (hresumes : v.Resumes s b holds w) (stop : Stop) : v.MadeUp s stop w := by
  have hcontinues := continues_left hs hplain hresumes.read_eq stop
  exact madeUp_of_query hs hplain hresumes.read_eq stop
    (lasted_again_iff hindex hd hresumes hcontinues)
    (query_again hindex hd hresumes hcontinues)

end Visit

end Consolidation
