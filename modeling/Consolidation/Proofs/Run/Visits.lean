/-
# `Proofs.Run.Visits` — runs one after the other over one checkpoint

A `Visit` is a run over the files of a tree; each visit starts with the checkpoint that the one before has written
(`afterVisits`).  What is carried from visit to visit is that the checkpoint mirrors the last tree
(`Regular.mirrors_afterVisits`), and with it everything that a run says of the files.  Keys are not part of it: a run by
looks gives every function its structural key anyway.

So the last of some visits, if it goes by looks, comes to the same as a visit that starts with nothing
(`result_eq_fresh`).  Four things are taken for granted, the first three of all visits (`Regular`):

| | |
| :-- | :-- |
| policy | keywords are chosen in one way |
| paths | the files of a tree go by different texts, which are not empty and hold no colon |
| digests | a file has one digest in two trees only if it has the same bytes |
| definitions | definitions of one name in one text are recorded under different lines (`Extraction.Identifiable`) |

The last is no more than that no text has more lines than there are numbers for (`Extraction.identifiable_iff_lines`).

## What is proved

For all visits `earlier` and one more, `last`, that are regular together, and for every visit `fresh` to the tree of
`last` with the policy of these visits, if both go by looks:

    SameOutcome (last.result (afterVisits earlier)) (fresh.result .empty)

Two things are proved with it.  The keys at the end are the structural keys of the recorded functions and no others.  And
if the visit before `last` was to the same tree, no text is extracted again: each has the finding `unchanged`.

## What it leaves out

* `SameOutcome` says nothing of proposals, since a generator may answer otherwise the next time.
* It compares the errors in two checkpoints as lists up to their order.  A checkpoint holds them in the order in which
  they were recorded, which depends on the visits; a report lists them in an order of its own, and the errors of two
  reports are the same.
* What is no text is extracted again in every visit, as its digest is not recorded.

## How it goes

Nothing is recorded at first, so the first visit is one over a mirror of the empty tree (`Inventory.mirrors_empty`).  A
visit over a mirror of one tree leaves a mirror of its own (`mirrored_loaded`), the clusters being no part of it
(`mirrored_result_iff`), and what it writes is read back (`ofBytes_result`).  Two mirrors of one tree have the same
records, and by looks these decide all else (`sameOutcome`).
-/
import Mathlib.Data.List.Induction
import Consolidation.Run.Basic
import Consolidation.Proofs.Identifiers
import Consolidation.Proofs.Report.Errors
import Consolidation.Proofs.Run.Grouping
import Consolidation.Proofs.Run.Inventory
import Consolidation.Proofs.Run.Proposals

namespace Consolidation

open Inventory

/-- A run over the files of a tree. -/
structure Visit where
  σ : Type
  setup : RunSetup σ
  files : List (Files.Path × String)
  world : World σ

namespace Visit

/-- What comes of a visit that starts with a checkpoint. -/
def result (v : Visit) (s : Checkpoint) : RunResult v.σ := v.setup.runOver s v.files v.world

def loaded (v : Visit) (s : Checkpoint) : RunSetup.Loaded v.σ := v.setup.load s v.files v.world

def policy (v : Visit) : KeywordPolicy := v.setup.settings.clustering.policy

/-- Are functions grouped by their looks? -/
def ByLooks (v : Visit) (s : Checkpoint) : Prop := v.setup.strategy (v.loaded s) = .structural

/-- Does a checkpoint record what is in the tree of a visit? -/
def Mirrored (v : Visit) (s : Checkpoint) : Prop := Mirrors v.policy v.world.files v.files s

/-- Do the files of a tree go by different texts that can be told from what follows them? -/
structure Plain (v : Visit) : Prop where
  nodup : (v.files.map (·.2)).Nodup
  paths : ∀ file ∈ v.files, PlainPath file.2

instance (v : Visit) : Decidable v.Plain :=
  decidable_of_iff ((v.files.map (·.2)).Nodup ∧ ∀ file ∈ v.files, PlainPath file.2)
    ⟨fun h => ⟨h.1, h.2⟩, fun h => ⟨h.nodup, h.paths⟩⟩

theorem Plain.of_single {v : Visit} {file : Files.Path × String} (hfiles : v.files = [file])
    (hpath : PlainPath file.2) : v.Plain where
  nodup := by
    rw [hfiles]
    exact List.nodup_singleton _
  paths := by
    rw [hfiles]
    intro file' hfile
    obtain rfl := List.mem_singleton.1 hfile
    exact hpath

structure SameTree (v w : Visit) : Prop where
  files_eq : v.files = w.files
  read_eq : ∀ file ∈ v.files, v.world.files.read file.1 = w.world.files.read file.1

end Visit

/-- What is taken for granted of visits: one policy, plain paths, and digests that tell contents of one file
apart. -/
structure Regular (policy : KeywordPolicy) (visits : List Visit) : Prop where
  policy_eq : ∀ v ∈ visits, v.policy = policy
  plain : ∀ v ∈ visits, v.Plain
  digests_tell : ∀ v ∈ visits, ∀ w ∈ visits,
    DigestsTell v.world.files v.files w.world.files w.files

theorem Regular.mono {policy : KeywordPolicy} {visits visits' : List Visit} (h : Regular policy visits)
    (hsub : ∀ v ∈ visits', v ∈ visits) : Regular policy visits' where
  policy_eq := fun v hv => h.policy_eq v (hsub v hv)
  plain := fun v hv => h.plain v (hsub v hv)
  digests_tell := fun v hv w hw => h.digests_tell v (hsub v hv) w (hsub w hw)

theorem Regular.init {policy : KeywordPolicy} {visits : List Visit} {v : Visit}
    (h : Regular policy (visits ++ [v])) : Regular policy visits :=
  h.mono fun _ hw => List.mem_append_left _ hw

theorem Regular.singleton {v : Visit} (h : v.Plain) : Regular v.policy [v] where
  policy_eq := by
    intro w hw
    rw [List.mem_singleton.1 hw]
  plain := by
    intro w hw
    rwa [List.mem_singleton.1 hw]
  digests_tell := by
    intro w hw w' hw' file hfile file' hfile' hpath bytes bytes' hread hread' _
    obtain rfl := List.mem_singleton.1 hw
    obtain rfl := List.mem_singleton.1 hw'
    obtain rfl := List.inj_on_of_nodup_map h.nodup hfile hfile' hpath
    exact Except.ok.inj (hread.symm.trans hread')

/-- Digests tell the contents of files apart if they tell apart whatever is read. -/
theorem Regular.of_contents {policy : KeywordPolicy} {visits : List Visit}
    {contents : List (List UInt8)} (hpolicy : ∀ v ∈ visits, v.policy = policy)
    (hplain : ∀ v ∈ visits, v.Plain)
    (hread : ∀ v ∈ visits, ∀ file ∈ v.files, ∀ bytes,
      v.world.files.read file.1 = .ok bytes → bytes ∈ contents)
    (htell : ∀ bytes ∈ contents, ∀ bytes' ∈ contents,
      Digest.sha256 bytes = Digest.sha256 bytes' → bytes = bytes') : Regular policy visits where
  policy_eq := hpolicy
  plain := hplain
  digests_tell := by
    intro v hv w hw file hfile file' hfile' _ bytes bytes' hbytes hbytes'
    exact htell bytes (hread v hv file hfile bytes hbytes) bytes'
      (hread w hw file' hfile' bytes' hbytes')

/-- The checkpoint that visits leave, each of which starts with what the one before has written. -/
def afterVisits (visits : List Visit) : Checkpoint :=
  visits.foldl (fun s v => .ofBytes (v.result s).checkpoint.toBytes) .empty

/-- The tree of the last visit; before the first one there are no files. -/
def lastTree (visits : List Visit) : Files.Entry × List (Files.Path × String) :=
  match visits.getLast? with
  | some v => (v.world.files, v.files)
  | none => (.empty, [])

/-! ## From visit to visit -/

namespace Visit

variable {v : Visit} {s : Checkpoint}

theorem checkpoint_result (v : Visit) (s : Checkpoint) :
    (v.result s).checkpoint =
      (v.loaded s).inventory.checkpoint.setClusters (v.setup.group (v.loaded s)).clustering := rfl

theorem inventory_loaded (v : Visit) (s : Checkpoint) :
    (v.loaded s).inventory = take v.policy v.world.files s v.files := rfl

theorem indexError_loaded (v : Visit) (s : Checkpoint) :
    (v.loaded s).indexError = (v.setup.index.update v.setup.settings.clustering.keywords
      (v.loaded s).inventory v.world).2 := rfl

theorem mirrored_result_iff :
    v.Mirrored (v.result s).checkpoint ↔ v.Mirrored (v.loaded s).inventory.checkpoint :=
  ⟨fun h => ⟨h.version_eq, h.recorded, h.blank⟩, fun h => ⟨h.version_eq, h.recorded, h.blank⟩⟩

/-- A visit over a mirror of another tree leaves a mirror of its own tree. -/
theorem mirrored_loaded {tree : Files.Entry} {files : List (Files.Path × String)}
    (h : Mirrors v.policy tree files s) (hplain : v.Plain)
    (hdigests : DigestsTell tree files v.world.files v.files) :
    v.Mirrored (v.loaded s).inventory.checkpoint :=
  h.take hplain.nodup hdigests

theorem ofBytes_result {tree : Files.Entry} {files : List (Files.Path × String)}
    (h : Mirrors v.policy tree files s) (hplain : v.Plain)
    (hdigests : DigestsTell tree files v.world.files v.files) :
    Checkpoint.ofBytes (v.result s).checkpoint.toBytes = (v.result s).checkpoint :=
  ((mirrored_result_iff.2 (mirrored_loaded h hplain hdigests)).writable hplain.paths).ofBytes_toBytes

end Visit

section Sequence

variable {policy : KeywordPolicy} {visits : List Visit}

theorem afterVisits_append (visits : List Visit) (v : Visit) :
    afterVisits (visits ++ [v]) = .ofBytes (v.result (afterVisits visits)).checkpoint.toBytes := by
  rw [afterVisits, List.foldl_append]
  rfl

theorem lastTree_append (visits : List Visit) (v : Visit) :
    lastTree (visits ++ [v]) = (v.world.files, v.files) := by
  rw [lastTree, List.getLast?_concat]

theorem Regular.digestsTell_lastTree {v : Visit} (h : Regular policy (visits ++ [v])) :
    DigestsTell (lastTree visits).1 (lastTree visits).2 v.world.files v.files := by
  unfold lastTree
  split
  · next w hw =>
    exact h.digests_tell w (List.mem_append_left _ (List.mem_of_getLast? hw)) v (by simp)
  · intro file hfile
    cases hfile

/-- After some visits the checkpoint mirrors the last tree. -/
theorem Regular.mirrors_afterVisits (h : Regular policy visits) :
    Mirrors policy (lastTree visits).1 (lastTree visits).2 (afterVisits visits) := by
  induction visits using List.reverseRecOn with
  | nil => exact mirrors_empty policy .empty
  | append_singleton visits v ih =>
    have hv : v ∈ visits ++ [v] := by simp
    have hmirrors := ih h.init
    rw [← h.policy_eq v hv] at hmirrors
    rw [afterVisits_append, lastTree_append,
      Visit.ofBytes_result hmirrors (h.plain v hv) h.digestsTell_lastTree, ← h.policy_eq v hv]
    exact Visit.mirrored_result_iff.2
      (Visit.mirrored_loaded hmirrors (h.plain v hv) h.digestsTell_lastTree)

theorem Regular.afterVisits_concat_eq {v : Visit} (h : Regular policy (visits ++ [v])) :
    afterVisits (visits ++ [v]) = (v.result (afterVisits visits)).checkpoint := by
  have hv : v ∈ visits ++ [v] := by simp
  have hmirrors := h.init.mirrors_afterVisits
  rw [← h.policy_eq v hv] at hmirrors
  rw [afterVisits_append]
  exact Visit.ofBytes_result hmirrors (h.plain v hv) h.digestsTell_lastTree

end Sequence

/-! ## The last visit -/

/-- Do two runs come to the same, except for proposals and for the order of errors in the checkpoints? -/
structure SameOutcome {σ τ : Type} (a : RunResult σ) (b : RunResult τ) : Prop where
  shared_eq : a.shared = b.shared
  clusters_eq : a.report.clusters.map ClusterReport.outline =
    b.report.clusters.map ClusterReport.outline
  parseErrors_eq : a.report.parseErrors = b.report.parseErrors
  duplicateFiles_eq : a.report.duplicateFiles = b.report.duplicateFiles
  functions_eq : a.report.stats.functions = b.report.stats.functions
  size_eq : a.report.stats.clusters = b.report.stats.clusters
  syntaxErrors_perm : a.checkpoint.syntaxErrors.Perm b.checkpoint.syntaxErrors
  checkpoint_eq : { a.checkpoint with syntaxErrors := [] } = { b.checkpoint with syntaxErrors := [] }

namespace Visit

variable {v w : Visit} {s t : Checkpoint}

theorem grouping_byLooks (h : v.ByLooks s) :
    v.setup.group (v.loaded s) =
      .ofFunctions .structural (v.setup.index.query (v.loaded s).world.index)
        (v.loaded s).inventory.fresh (v.loaded s).inventory.checkpoint.memberships
        (v.loaded s).inventory.checkpoint.allFunctions := by
  rw [RunSetup.group, h]

theorem clustering_byLooks (hv : v.ByLooks s) (hw : w.ByLooks t)
    (hsame : (v.loaded s).inventory.checkpoint.SameRecords (w.loaded t).inventory.checkpoint)
    (hids : ((v.loaded s).inventory.checkpoint.allFunctions.map (·.id)).Nodup) :
    (v.setup.group (v.loaded s)).clustering = (w.setup.group (w.loaded t)).clustering := by
  rw [grouping_byLooks hv, grouping_byLooks hw, ← hsame.allFunctions_eq]
  exact Grouping.ofFunctions_structural_eq hids _ _ _ _ _ _

/-- Visits by looks that know the same of the files come to the same. -/
theorem sameOutcome (hv : v.ByLooks s) (hw : w.ByLooks t)
    (hsame : (v.loaded s).inventory.checkpoint.SameRecords (w.loaded t).inventory.checkpoint)
    (hversion : (v.loaded s).inventory.checkpoint.version =
      (w.loaded t).inventory.checkpoint.version)
    (hids : ((v.loaded s).inventory.checkpoint.allFunctions.map (·.id)).Nodup) :
    SameOutcome (v.result s) (w.result t) := by
  have hclustering := clustering_byLooks hv hw hsame hids
  have hshared : (v.result s).shared = (w.result t).shared := congrArg Clustering.shared hclustering
  constructor
  case shared_eq => exact hshared
  case clusters_eq =>
    refine (RunSetup.outline_clusters_report ..).trans (.trans ?_
      (RunSetup.outline_clusters_report ..).symm)
    exact congrArg (List.map _) hshared
  case parseErrors_eq => exact Report.mergeSort_eq_of_perm hsame.syntaxErrors_perm
  case duplicateFiles_eq => exact congrArg Report.duplicateGroups hsame.fileHashes_eq
  case functions_eq => exact congrArg List.length hsame.allFunctions_eq
  case size_eq => exact congrArg Clustering.size hclustering
  case syntaxErrors_perm => exact hsame.syntaxErrors_perm
  case checkpoint_eq =>
    simp only [checkpoint_result, Checkpoint.setClusters, hversion, hsame.processed_eq,
      hsame.fileHashes_eq, hsame.functions_eq, hclustering]

theorem memberships_byLooks (h : v.ByLooks s)
    (hids : ((v.loaded s).inventory.checkpoint.allFunctions.map (·.id)).Nodup) (id key : String) :
    (v.result s).checkpoint.memberships.find? id = some key ↔
      ∃ f ∈ (v.result s).checkpoint.allFunctions, f.id = id ∧ key = structuralKey f := by
  have hmemberships : (v.result s).checkpoint.memberships =
      (v.setup.group (v.loaded s)).clustering.memberships := rfl
  have hfunctions : (v.result s).checkpoint.allFunctions =
      (v.loaded s).inventory.checkpoint.allFunctions := rfl
  rw [hmemberships, hfunctions, grouping_byLooks h]
  constructor
  · exact Grouping.structuralKeys_ofFunctions id key
  · rintro ⟨f, hf, rfl, rfl⟩
    exact Grouping.find?_ofFunctions_structural hids hf

end Visit

/-- The last of some visits, if it goes by looks, comes to the same as a visit to the same tree that starts
with nothing; all functions end with their structural keys; and over an unchanged tree no text is
extracted again. -/
theorem result_eq_fresh {policy : KeywordPolicy} {earlier : List Visit} {last fresh : Visit}
    (hregular : Regular policy (earlier ++ [last])) (hpolicy : fresh.policy = policy)
    (hids : ∀ file ∈ last.files, ∀ bytes, last.world.files.read file.1 = .ok bytes →
      Extraction.Identifiable bytes)
    (htree : last.SameTree fresh)
    (hlast : last.ByLooks (afterVisits earlier)) (hfresh : fresh.ByLooks .empty) :
    SameOutcome (last.result (afterVisits earlier)) (fresh.result .empty) ∧
      (∀ id key, (last.result (afterVisits earlier)).checkpoint.memberships.find? id = some key ↔
        ∃ f ∈ (last.result (afterVisits earlier)).checkpoint.allFunctions,
          f.id = id ∧ key = structuralKey f) ∧
      ∀ previous, earlier.getLast? = some previous → last.SameTree previous →
        (last.result (afterVisits earlier)).report.stats.filesLoaded = 0 ∧
          ∀ file ∈ last.files, ∀ bytes, last.world.files.read file.1 = .ok bytes →
            Text.Utf8.decode? bytes ≠ none →
            FileFinding.ofFile last.policy
              ((afterVisits earlier).purge (last.files.map (·.2))).1 file.2 (.ok bytes) =
              .unchanged := by
  have hmem : last ∈ earlier ++ [last] := by simp
  have hlastpolicy : last.policy = policy := hregular.policy_eq last hmem
  have hplain : last.Plain := hregular.plain last hmem
  -- the checkpoint before the last visit mirrors the tree before, the one behind it the last tree
  have hmirrors : Mirrors last.policy (lastTree earlier).1 (lastTree earlier).2 (afterVisits earlier) := by
    rw [hlastpolicy]
    exact hregular.init.mirrors_afterVisits
  have hloaded : last.Mirrored (last.loaded (afterVisits earlier)).inventory.checkpoint :=
    Visit.mirrored_loaded hmirrors hplain hregular.digestsTell_lastTree
  have hfreshplain : fresh.Plain :=
    ⟨htree.files_eq ▸ hplain.nodup, htree.files_eq ▸ hplain.paths⟩
  have hfreshloaded : fresh.Mirrored (fresh.loaded .empty).inventory.checkpoint :=
    Visit.mirrored_loaded (mirrors_empty fresh.policy .empty) hfreshplain
      (fun file hfile => by cases hfile)
  have hsame : (last.loaded (afterVisits earlier)).inventory.checkpoint.SameRecords
      (fresh.loaded .empty).inventory.checkpoint := by
    unfold Visit.Mirrored at hloaded hfreshloaded
    rw [hlastpolicy] at hloaded
    rw [hpolicy, ← htree.files_eq] at hfreshloaded
    exact hloaded.sameRecords hfreshloaded htree.read_eq
  have hnodup := hloaded.nodup_ids hplain.paths hids
  refine ⟨Visit.sameOutcome hlast hfresh hsame ?_ hnodup, Visit.memberships_byLooks hlast hnodup, ?_⟩
  · rw [hloaded.version_eq, hfreshloaded.version_eq]
  · intro previous hprevious hprevtree
    have hknown : last.Mirrored (afterVisits earlier) := by
      rw [lastTree, hprevious] at hmirrors
      dsimp only at hmirrors
      rw [← hprevtree.files_eq] at hmirrors
      exact hmirrors.of_read_eq (fun file hfile => (hprevtree.read_eq file hfile).symm)
    refine ⟨hknown.sameFunctions_take.loaded_eq, fun file hfile bytes hread htext => ?_⟩
    rw [← hread]
    exact hknown.ofFile_unchanged hfile hread htext

/-! A project that changes between two visits. -/

namespace Sample

def bytesOf (text : String) : List UInt8 := Text.Utf8.encode text.toList

def header : List UInt8 := bytesOf "def load(path):\n    return path\n"

def edited : List UInt8 := bytesOf "def load(path, mode):\n    return open(path, mode)\n"

/-- An index that is there, finds nothing and remembers nothing. -/
def silent : SimilarityIndex Unit where
  available := true
  upsert _ _ _ _ := .ok ()
  query _ _ _ _ := .ok []
  remove _ _ := .ok ()
  persist _ tree := (tree, .ok ())

def setupWith (index : SimilarityIndex Unit) : RunSetup Unit :=
  ⟨[], "", .default, index, none, false⟩

/-- Two files with one function each, by their meaning. -/
def before : Visit where
  σ := Unit
  setup := setupWith silent
  files := [(["a.py"], "a.py"), (["b.py"], "b.py")]
  world := ⟨.folder [("a.py", .file header), ("b.py", .file header)], ()⟩

/-- One of them edited, the other gone, and a new one that is no text; by their looks. -/
def after : Visit where
  σ := Unit
  setup := setupWith .unavailable
  files := [(["a.py"], "a.py"), (["c.py"], "c.py")]
  world := ⟨.folder [("a.py", .file edited), ("c.py", .file [0xFF])], ()⟩

theorem after_byLooks (s : Checkpoint) : after.ByLooks s := by
  show Strategy.select _ _ _ _ = _
  simp [Strategy.select, after, setupWith, SimilarityIndex.unavailable]

theorem after_plain : after.Plain := by
  decide

theorem before_plain : before.Plain := by
  decide

def contents : List (List UInt8) := [header, edited, [0xFF]]

theorem read_mem_contents {v : Visit} (hv : v ∈ [before] ++ [after]) {file : Files.Path × String}
    (hfile : file ∈ v.files) {bytes : List UInt8} (hread : v.world.files.read file.1 = .ok bytes) :
    bytes ∈ contents := by
  rcases List.mem_append.1 hv with hv | hv
  · obtain rfl := List.mem_singleton.1 hv
    simp only [before, List.mem_cons, List.not_mem_nil, or_false] at hfile
    rcases hfile with rfl | rfl <;>
    · cases hread
      exact List.mem_cons_self
  · obtain rfl := List.mem_singleton.1 hv
    simp only [after, List.mem_cons, List.not_mem_nil, or_false] at hfile
    rcases hfile with rfl | rfl
    · cases hread
      exact List.mem_cons_of_mem _ List.mem_cons_self
    · cases hread
      exact List.mem_cons_of_mem _ (List.mem_cons_of_mem _ List.mem_cons_self)

theorem digests_tell : ∀ bytes ∈ contents, ∀ bytes' ∈ contents,
    Digest.sha256 bytes = Digest.sha256 bytes' → bytes = bytes' := by
  decide +kernel

theorem identifiable_contents {bytes : List UInt8} (hbytes : bytes ∈ contents) :
    Extraction.Identifiable bytes := by
  simp only [contents, List.mem_cons, List.not_mem_nil, or_false] at hbytes
  rcases hbytes with rfl | rfl | rfl
  · exact Extraction.identifiable_encode (by decide)
  · exact Extraction.identifiable_encode (by decide)
  · intro source hsource
    cases hsource

theorem before_after_regular :
    Regular (.atMost KeywordPolicy.defaultLimit) ([before] ++ [after]) := by
  refine .of_contents ?_ ?_ (fun v hv file hfile bytes => read_mem_contents hv hfile) digests_tell
  · intro v hv
    rcases List.mem_append.1 hv with hv | hv <;>
    · obtain rfl := List.mem_singleton.1 hv
      rfl
  · intro v hv
    rcases List.mem_append.1 hv with hv | hv
    · obtain rfl := List.mem_singleton.1 hv
      exact before_plain
    · obtain rfl := List.mem_singleton.1 hv
      exact after_plain

end Sample

/-- After the edit the second visit comes to what a first one would come to. -/
theorem result_eq_fresh_sample :
    SameOutcome (Sample.after.result (afterVisits [Sample.before])) (Sample.after.result .empty) := by
  refine (result_eq_fresh Sample.before_after_regular rfl ?_ ⟨rfl, fun _ _ => rfl⟩
    (Sample.after_byLooks _) (Sample.after_byLooks _)).1
  intro file hfile bytes hread
  exact Sample.identifiable_contents (Sample.read_mem_contents (by simp) hfile hread)

end Consolidation
