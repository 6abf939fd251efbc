/-
# `Proofs.Run.Repetition` — a visit repeated over an unchanged tree

A second visit to a tree finds its functions as the first one has left them, with their keys
(`Mirrors.sameFunctions_take`), so that it groups them over those keys.  By their meaning that does not always leave the
keys as they are: a structural key that a neighbour gave to a function is not kept by it, and when the neighbours are
asked again a closer one may have got a key in the meantime.

It does so exactly if every key that is not kept is found again (`repeated_iff_reproduced`); where all keys are kept there
is nothing to find (`reproduced_of_isRestorable`).

## What is proved

For all visits `earlier`, a visit `first` with which they are regular, and a visit `second` to the tree of `first` that
groups by meaning: the keys and clusters of `second` are those of `first` if and only if each key that is not kept is
found again through the neighbours (`Reproduced`).  The index may have changed in between, and the one that counts is that
of `second`.

## Why it is not simply so

A structural key that came from a neighbour is looked for again and not restored, so a repeated run can move a function to
another cluster although no file has changed.  The sample at the end is such a case: the look-up for the first of three
functions fails, so that it has a structural key; the second one gets this key, since the third one, which is closer, has
none yet; and in the second run the third one has a key from the start.
-/
import Consolidation.Proofs.Run.Indexing
import Consolidation.Proofs.Run.Regrouping
import Consolidation.Proofs.Run.Visits

namespace Consolidation

open Number Grouping Inventory

/-- Have two runs the same keys and clusters, whatever came of proposals? -/
structure SameClusters {σ τ : Type} (a : RunResult σ) (b : RunResult τ) : Prop where
  memberships_eq : a.checkpoint.memberships = b.checkpoint.memberships
  layout_eq : a.checkpoint.layout = b.checkpoint.layout
  shared_eq : a.shared = b.shared
  clusters_eq : a.report.clusters.map ClusterReport.outline =
    b.report.clusters.map ClusterReport.outline

namespace Visit

variable {v w : Visit} {s t : Checkpoint}

theorem sameClusters
    (h : (v.setup.group (v.loaded s)).clustering = (w.setup.group (w.loaded t)).clustering) :
    SameClusters (v.result s) (w.result t) where
  memberships_eq := congrArg Clustering.memberships h
  layout_eq := congrArg Clustering.layout h
  shared_eq := congrArg Clustering.shared h
  clusters_eq := by
    refine (RunSetup.outline_clusters_report ..).trans (.trans ?_
      (RunSetup.outline_clusters_report ..).symm)
    exact congrArg (fun c => c.shared.map (fun k => ClusterReport.ofCluster k none)) h

/-- A visit to settled files groups the functions that are there, over the keys that they have. -/
theorem group_settled (h : Settled v.policy v.world.files v.files s) :
    v.setup.group (v.loaded s) =
      .ofFunctions (v.setup.strategy (v.loaded s)) (v.setup.index.query (v.loaded s).world.index)
        Dict.empty s.memberships s.allFunctions := by
  have hsame := h.sameFunctions_take
  rw [RunSetup.group, inventory_loaded, hsame.fresh_eq, hsame.memberships_eq, Checkpoint.allFunctions,
    hsame.functions_eq, Checkpoint.allFunctions]

theorem group_mirrored (h : v.Mirrored s) :
    v.setup.group (v.loaded s) =
      .ofFunctions (v.setup.strategy (v.loaded s)) (v.setup.index.query (v.loaded s).world.index)
        Dict.empty s.memberships s.allFunctions :=
  group_settled h.settled

theorem isSome_find?_result (v : Visit) (s : Checkpoint) (id : String) :
    ((v.result s).checkpoint.memberships.find? id).isSome ↔
      id ∈ (v.result s).checkpoint.allFunctions.map (·.id) :=
  isSome_find?_ofFunctions id

end Visit

/-- Where all keys are kept, none has to be found again. -/
theorem reproduced_of_isRestorable {threshold : Single} {count : Nat} {query : NeighbourQuery}
    {keys : Dict String} {functions : List FunctionRecord}
    (h : ∀ f ∈ functions, ∀ key, keys.find? f.id = some key →
      isRestorable (.semantic threshold count) f key = true) :
    Reproduced threshold count query keys functions := by
  intro before f after hfunctions key hkey hnot
  rw [h f (by simp [hfunctions]) key hkey] at hnot
  cases hnot

/-- A second visit by meaning to an unchanged tree leaves all keys and clusters as they are exactly if every key
that is not kept is found again. -/
theorem repeated_iff_reproduced {policy : KeywordPolicy} {earlier : List Visit} {first second : Visit}
    {threshold : Single} {count : Nat}
    (hregular : Regular policy (earlier ++ [first])) (hpolicy : second.policy = policy)
    (hids : ∀ file ∈ first.files, ∀ bytes, first.world.files.read file.1 = .ok bytes →
      Extraction.Identifiable bytes)
    (htree : first.SameTree second)
    (hsecond : second.setup.strategy (second.loaded (afterVisits (earlier ++ [first]))) =
      .semantic threshold count) :
    SameClusters (second.result (afterVisits (earlier ++ [first])))
        (first.result (afterVisits earlier)) ↔
      Reproduced threshold count
        (second.setup.index.query (second.loaded (afterVisits (earlier ++ [first]))).world.index)
        (first.result (afterVisits earlier)).checkpoint.memberships
        (first.result (afterVisits earlier)).checkpoint.allFunctions := by
  have hmirrors := hregular.mirrors_afterVisits
  have hleft := hregular.afterVisits_concat_eq
  rw [lastTree_append] at hmirrors
  have hnodup := hmirrors.nodup_ids (hregular.plain first (by simp)).paths hids
  have hmirrored : second.Mirrored (afterVisits (earlier ++ [first])) := by
    unfold Visit.Mirrored
    rw [hpolicy, ← htree.files_eq]
    exact hmirrors.of_read_eq htree.read_eq
  have hgroup := Visit.group_mirrored hmirrored
  rw [hsecond, hleft] at hgroup
  rw [hleft] at hnodup ⊢
  rw [← memberships_regrouped_iff hnodup (Visit.isSome_find?_result _ _), ← hgroup]
  constructor
  · exact SameClusters.memberships_eq
  · intro hkeys
    refine Visit.sameClusters ?_
    rw [hgroup] at hkeys ⊢
    exact ofFunctions_eq_of_memberships_eq hnodup hkeys

/-! A function that changes its cluster although nothing has changed. -/

namespace Sample

def triple : List UInt8 :=
  bytesOf "def alpha(a):\n    return a\n\ndef beta(b):\n    return b\n\ndef gamma(c):\n    return c\n"

/-- An index that cannot look up the first of the functions, and finds the last and the first close to the second. -/
def biased : SimilarityIndex Unit :=
  { silent with
    query := fun _ text _ _ =>
      if text = "alpha" then .error (.index "fail_query alpha")
      else if text = "beta" then .ok ["a.py::gamma", "a.py::alpha"]
      else .ok [] }

/-- The files with these functions, as often as one likes. -/
def threefold : Visit where
  σ := Unit
  setup := setupWith biased
  files := [(["a.py"], "a.py")]
  world := ⟨.folder [("a.py", .file triple)], ()⟩

theorem threefold_strategy (s : Checkpoint) :
    threefold.setup.strategy (threefold.loaded s) = .semantic ClusterSettings.default.threshold
      ClusterSettings.default.neighbours := by
  have herror : (threefold.loaded s).indexError = none := by
    rw [Visit.indexError_loaded]
    exact SimilarityIndex.update_error (fun _ _ _ _ => ⟨(), rfl⟩) (fun _ _ => rfl) _
  rw [RunSetup.strategy, herror]
  rfl

theorem threefold_plain : threefold.Plain := .of_single rfl (by decide)

theorem read_threefold {file : Files.Path × String} (hfile : file ∈ threefold.files)
    {bytes : List UInt8} (hread : threefold.world.files.read file.1 = .ok bytes) : bytes = triple := by
  obtain rfl := List.mem_singleton.1 hfile
  cases hread
  rfl

theorem identifiable_triple : Extraction.Identifiable triple :=
  Extraction.identifiable_encode (by decide)

theorem threefold_keys :
    (threefold.result (threefold.result .empty).checkpoint).checkpoint.memberships ≠
      (threefold.result .empty).checkpoint.memberships := by
  decide +kernel

end Sample

/-- The second function got the key of the first, which is not kept, and does not find it again. -/
theorem repeated_iff_reproduced_sample :
    ¬SameClusters (Sample.threefold.result (afterVisits [Sample.threefold]))
        (Sample.threefold.result .empty) ∧
      ¬Reproduced ClusterSettings.default.threshold ClusterSettings.default.neighbours
        (Sample.biased.query ())
        (Sample.threefold.result .empty).checkpoint.memberships
        (Sample.threefold.result .empty).checkpoint.allFunctions := by
  have hids : ∀ file ∈ Sample.threefold.files, ∀ bytes,
      Sample.threefold.world.files.read file.1 = .ok bytes → Extraction.Identifiable bytes := by
    intro file hfile bytes hread
    rw [Sample.read_threefold hfile hread]
    exact Sample.identifiable_triple
  have hregular : Regular Sample.threefold.policy ([] ++ [Sample.threefold]) :=
    .singleton Sample.threefold_plain
  have hiff := repeated_iff_reproduced hregular rfl hids ⟨rfl, fun _ _ => rfl⟩
    (Sample.threefold_strategy _)
  have hnot : ¬SameClusters (Sample.threefold.result (afterVisits [Sample.threefold]))
      (Sample.threefold.result .empty) := by
    intro h
    have hleft := hregular.afterVisits_concat_eq
    rw [List.nil_append] at hleft
    rw [hleft] at h
    exact Sample.threefold_keys h.memberships_eq
  exact ⟨hnot, fun h => hnot (hiff.2 h)⟩

end Consolidation
