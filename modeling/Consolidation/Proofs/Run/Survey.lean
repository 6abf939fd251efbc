/-
# `Proofs.Run.Survey` — files looked at by several workers at once

For each scanned file there is a task, which waits for one of so many permits, looks at the file and ends: the file is
unchanged, or extracted, or looking at it broke down.  Tasks take up their work and end in any order, and `Step` is what
can happen next.  At any time each file is in one stage: its task waits, runs, or has its finding among those that are in
(`Kept`, kept by every step).

So when the survey is over the findings are those of all files, in some order (`found_of_done`).  Since the files go by
different texts the order is lost when the findings are sorted (`inOrder_eq_of_perm`), and all that the run makes of them
is the same: the checkpoint, the counts, and what the index is told (`reaches_settled`).  It is no restriction that there
are few permits: every order of the files can come about (`exists_reaches_order`).

What becomes of each file is given, also the text of a breakdown, in which the number of the task stands, and only the
order is left open.  What other numbers come to is told of the proposals, in `Proofs.Run.Workers`.

## What is proved

For every survey `s` whose files go by different texts, over a checkpoint whose records are sound, and every state `w` to
which it can come: if it is over, what comes of it is `Settled`; it can be brought to its end from `w`; each step leaves
less to do; and for each order of the files there is a course of the survey in which the findings come in in that order.

`Settled` names the checkpoint, the counts and the calls that the index is told, and says that they are those of any other
course over the same files, and of looking at the files in turn, if nothing breaks down; that each finding is counted
once; and that nothing is recorded of any file that was not scanned.
-/
import Mathlib.Data.List.Perm.Basic
import Mathlib.Logic.Relation
import Consolidation.Run.Basic
import Consolidation.Proofs.Collection.Sorting
import Consolidation.Proofs.Run.Inventory
import Consolidation.Proofs.Run.Visits

namespace Consolidation

open Inventory FileFinding Checkpoint

/-! ## What an index is told -/

inductive IndexCall where
  | remove (id : String)
  | upsert (id text : String) (metadata : Metadata)
deriving DecidableEq

namespace SimilarityIndex

variable {σ : Type} (index : SimilarityIndex σ)

/-- The state of an index after a call; one that fails leaves it as it was. -/
def perform (state : σ) : IndexCall → σ
  | .remove id => (index.remove state id).toOption.getD state
  | .upsert id text metadata => (index.upsert state id text metadata).toOption.getD state

/-- The calls that put functions into an index, up to the first that fails. -/
def upserts : List FunctionRecord → σ → List IndexCall
  | [], _ => []
  | f :: rest, state =>
    .upsert f.id f.contextKeywords (metadataOf f) ::
      match index.upsert state f.id f.contextKeywords (metadataOf f) with
      | .ok state => upserts rest state
      | .error _ => []

/-- The calls that bring an index up to date. -/
def calls (keywords : Bool) (i : Inventory) (state : σ) : List IndexCall :=
  i.gone.map .remove ++
    if !index.available || !keywords then []
    else index.upserts (searchable i.checkpoint.allFunctions) (index.removeAll i.gone state)

variable {index}

theorem foldl_perform_removes (ids : List String) (state : σ) :
    (ids.map .remove).foldl index.perform state = index.removeAll ids state := by
  rw [removeAll, List.foldl_map]
  refine List.foldl_ext _ _ _ fun state id _ => ?_
  rw [perform]
  cases index.remove state id <;> rfl

theorem foldl_perform_upserts (functions : List FunctionRecord) (state : σ) :
    (index.upserts functions state).foldl index.perform state =
      (index.upsertAll functions state).1 := by
  induction functions generalizing state with
  | nil => rfl
  | cons f rest ih =>
    rw [upserts, upsertAll, List.foldl_cons, perform]
    cases index.upsert state f.id f.contextKeywords (metadataOf f) with
    | ok state' => exact ih state'
    | error error => rfl

theorem foldl_perform_calls (keywords : Bool) (i : Inventory) (w : World σ) :
    (index.calls keywords i w.index).foldl index.perform w.index =
      (index.update keywords i w).1.index := by
  rw [calls, List.foldl_append, foldl_perform_removes]
  unfold update
  dsimp only
  split
  · rfl
  · rw [foldl_perform_upserts]
    split
    · next hupserts => rw [hupserts]
    · next hupserts =>
      rw [hupserts]
      split <;> rfl

end SimilarityIndex

/-! ## Findings in any order -/

namespace Inventory

/-- Files are found once each, so their findings are in one order only when sorted. -/
theorem inOrder_eq_of_perm {found found' : List (String × FileFinding)} (h : found.Perm found')
    (hnodup : (found.map (·.1)).Nodup) : inOrder found = inOrder found' := by
  have hsorted : ∀ l : List (String × FileFinding), (inOrder l).Pairwise (fun a b => a.1 ≤ b.1) :=
    pairwise_mergeSort_key Prod.fst
  have hperm : (inOrder found).Perm (inOrder found') :=
    (inOrder_perm found).trans (h.trans (inOrder_perm found').symm)
  refine hperm.eq_of_pairwise ?_ (hsorted _) (hsorted _)
  intro a b ha hb hab hba
  have ha : a ∈ found := (inOrder_perm found).mem_iff.1 ha
  have hb : b ∈ found := h.mem_iff.2 ((inOrder_perm found').mem_iff.1 hb)
  exact List.inj_on_of_nodup_map hnodup ha hb (String.le_antisymm hab hba)

theorem ofFindings_eq_of_perm {found found' : List (String × FileFinding)} (h : found.Perm found')
    (hnodup : (found.map (·.1)).Nodup) (s : Checkpoint) (scanned : List String) :
    ofFindings s scanned found = ofFindings s scanned found' := by
  rw [ofFindings, inOrder_eq_of_perm h hnodup, ofFindings]

def counted (i : Inventory) : Nat := i.loaded + i.unchanged + i.failed

theorem counted_note (i : Inventory) (path : String) (found : FileFinding) :
    (i.note path found).counted = i.counted + 1 := by
  unfold note
  split
  · unfold counted
    dsimp only
    omega
  · unfold record counted
    dsimp only
    split <;> omega

theorem counted_foldl_note (found : List (String × FileFinding)) (i : Inventory) :
    (found.foldl (fun i f => i.note f.1 f.2) i).counted = i.counted + found.length := by
  induction found generalizing i with
  | nil => rfl
  | cons f found ih =>
    rw [List.foldl_cons, ih, counted_note, List.length_cons]
    omega

theorem counted_ofFindings (s : Checkpoint) (scanned : List String)
    (found : List (String × FileFinding)) : (ofFindings s scanned found).counted = found.length := by
  rw [ofFindings, counted_foldl_note, (inOrder_perm found).length_eq]
  exact Nat.zero_add _

end Inventory

namespace FileFinding

theorem names_brokeDown (path reason : String) : (brokeDown reason).Names path := by
  rintro e ⟨⟩ e' he'
  obtain rfl := List.mem_singleton.1 he'
  rfl

end FileFinding

namespace Checkpoint

/-- Is nothing recorded of other files than those of a list? -/
structure Confined (s : Checkpoint) (scanned : List String) : Prop where
  processed : ∀ path, s.processed.contains path = true → path ∈ scanned
  fileHashes : ∀ path, (s.fileHashes.find? path).isSome → path ∈ scanned
  functions : ∀ path, (s.functions.find? path).isSome → path ∈ scanned
  syntaxErrors : ∀ e ∈ s.syntaxErrors, e.filePath ∈ scanned

theorem confined_of_blank {s : Checkpoint} {scanned : List String}
    (h : ∀ path ∉ scanned, s.recordOf path = .blank) : s.Confined scanned := by
  constructor
  case processed =>
    intro path hprocessed
    by_contra hpath
    rw [(recordOf_eq_blank (h path hpath)).1] at hprocessed
    cases hprocessed
  case fileHashes =>
    intro path hhash
    by_contra hpath
    rw [(recordOf_eq_blank (h path hpath)).2.1] at hhash
    cases hhash
  case functions =>
    intro path hfunctions
    by_contra hpath
    rw [(recordOf_eq_blank (h path hpath)).2.2.1] at hfunctions
    cases hfunctions
  case syntaxErrors =>
    intro e he
    by_contra hpath
    have hnone := (recordOf_eq_blank (h e.filePath hpath)).2.2.2
    have hmem : e ∈ s.syntaxErrors.filter (·.filePath == e.filePath) := by simp [he]
    rw [hnone] at hmem
    cases hmem

end Checkpoint

/-! ## Tasks -/

/-- Files to look at, and how. -/
structure Survey (σ : Type) where
  setup : RunSetup σ
  checkpoint : Checkpoint
  files : List (Files.Path × String)
  world : World σ
  workers : Nat
  /-- Why looking at a file breaks down, if it does. -/
  breakdown : Files.Path × String → Option String

namespace Survey

structure State where
  /-- The files whose tasks wait for a permit. -/
  waiting : List (Files.Path × String)
  /-- The files whose tasks have a permit. -/
  running : List (Files.Path × String)
  /-- The findings that have come in, the first of them first. -/
  found : List (String × FileFinding)

namespace State

structure Done (w : State) : Prop where
  waiting : w.waiting = []
  running : w.running = []

/-- How much is left to do: two steps for each file. -/
def left (w : State) : Nat := 2 * w.waiting.length + w.running.length

end State

variable {σ : Type} (s : Survey σ)

def scanned : List String := s.files.map (·.2)

def finding (file : Files.Path × String) : String × FileFinding :=
  (file.2, match s.breakdown file with
    | some reason => .brokeDown reason
    | none => .ofFile s.setup.settings.clustering.policy (s.checkpoint.purge s.scanned).1 file.2
        (s.world.files.read file.1))

def start : State := ⟨s.files, [], []⟩

/-- What can happen next. -/
inductive Step : State → State → Prop where
  /-- A task gets a permit. -/
  | permit {w : State} {before after : List (Files.Path × String)} {file : Files.Path × String} :
      w.waiting = before ++ file :: after → w.running.length < max s.workers 1 →
      Step w { w with waiting := before ++ after, running := file :: w.running }
  /-- A task ends or breaks down, and the permit is given back. -/
  | finish {w : State} {before after : List (Files.Path × String)} {file : Files.Path × String} :
      w.running = before ++ file :: after →
      Step w { w with running := before ++ after, found := w.found ++ [s.finding file] }

/-- The states to which the survey can come. -/
def Reaches (w : State) : Prop := Relation.ReflTransGen s.Step s.start w

/-- What a run knows with some findings. -/
def loaded (found : List (String × FileFinding)) : RunSetup.Loaded σ :=
  let inventory := ofFindings s.checkpoint s.scanned found
  let (world, error) :=
    s.setup.index.update s.setup.settings.clustering.keywords inventory s.world
  ⟨inventory, world, error⟩

def indexCalls (found : List (String × FileFinding)) : List IndexCall :=
  s.setup.index.calls s.setup.settings.clustering.keywords (s.loaded found).inventory s.world.index

variable {s} {w w' : State}

/-! ## What every step keeps -/

/-- Each file is in one stage; the findings of those in `ended` are in. -/
structure Kept (s : Survey σ) (w : State) (ended : List (Files.Path × String)) : Prop where
  found : w.found = ended.map s.finding
  files : (ended ++ w.running ++ w.waiting).Perm s.files

theorem kept_start (s : Survey σ) : s.Kept s.start [] := ⟨rfl, .refl _⟩

theorem Kept.permit {ended before after : List (Files.Path × String)} {file : Files.Path × String}
    (h : s.Kept w ended) (hwaiting : w.waiting = before ++ file :: after) :
    s.Kept { w with waiting := before ++ after, running := file :: w.running } ended where
  found := h.found
  files := by
    refine List.Perm.trans (List.perm_iff_count.2 fun f => ?_) h.files
    simp only [hwaiting, List.count_append, List.count_cons]
    omega

theorem Kept.finish {ended before after : List (Files.Path × String)} {file : Files.Path × String}
    (h : s.Kept w ended) (hrunning : w.running = before ++ file :: after) :
    s.Kept { w with running := before ++ after, found := w.found ++ [s.finding file] }
      (ended ++ [file]) where
  found := by
    rw [List.map_append, ← h.found]
    rfl
  files := by
    refine List.Perm.trans (List.perm_iff_count.2 fun f => ?_) h.files
    simp only [hrunning, List.count_append, List.count_cons, List.count_nil]
    omega

theorem Kept.step {ended : List (Files.Path × String)} (h : s.Kept w ended) (hstep : s.Step w w') :
    ∃ ended', s.Kept w' ended' := by
  cases hstep with
  | permit hwaiting hpermit => exact ⟨ended, h.permit hwaiting⟩
  | finish hrunning => exact ⟨_, h.finish hrunning⟩

theorem Reaches.kept (h : s.Reaches w) : ∃ ended, s.Kept w ended := by
  induction h with
  | refl => exact ⟨[], kept_start s⟩
  | tail _ hstep ih =>
    obtain ⟨ended, hkept⟩ := ih
    exact hkept.step hstep

/-! ## The end of a survey -/

/-- In the end the findings of all files are in. -/
theorem found_of_done (h : s.Reaches w) (hdone : w.Done) : w.found.Perm (s.files.map s.finding) := by
  obtain ⟨ended, hkept⟩ := h.kept
  have hfiles := hkept.files
  rw [hdone.waiting, hdone.running, List.append_nil, List.append_nil] at hfiles
  rw [hkept.found]
  exact hfiles.map _

/-- There is a next step until the survey is over. -/
theorem done_or_step (s : Survey σ) (w : State) : w.Done ∨ ∃ w', s.Step w w' := by
  cases hrunning : w.running with
  | cons file running =>
    have hfirst : w.running = [] ++ file :: running := hrunning
    exact .inr ⟨_, .finish hfirst⟩
  | nil =>
    cases hwaiting : w.waiting with
    | nil => exact .inl ⟨hwaiting, hrunning⟩
    | cons file waiting =>
      have hpermit : w.running.length < max s.workers 1 := by
        rw [hrunning]
        exact Nat.lt_of_lt_of_le Nat.one_pos (Nat.le_max_right _ _)
      have hfirst : w.waiting = [] ++ file :: waiting := hwaiting
      exact .inr ⟨_, .permit hfirst hpermit⟩

theorem left_lt_of_step (h : s.Step w w') : w'.left < w.left := by
  cases h with
  | permit hwaiting hpermit =>
    simp only [State.left, hwaiting, List.length_append, List.length_cons]
    omega
  | finish hrunning =>
    simp only [State.left, hrunning, List.length_append, List.length_cons]
    omega

theorem exists_done (s : Survey σ) (w : State) :
    ∃ w', Relation.ReflTransGen s.Step w w' ∧ w'.Done := by
  induction hleft : w.left using Nat.strongRecOn generalizing w with
  | _ left ih =>
    rcases s.done_or_step w with hdone | ⟨next, hstep⟩
    · exact ⟨w, .refl, hdone⟩
    · obtain ⟨w', hsteps, hdone⟩ := ih next.left (hleft ▸ left_lt_of_step hstep) next rfl
      exact ⟨w', .head hstep hsteps, hdone⟩

/-- The files can be looked at one by one in any order. -/
theorem exists_steps_order {order waiting : List (Files.Path × String)} (h : order.Perm waiting)
    (found : List (String × FileFinding)) :
    Relation.ReflTransGen s.Step ⟨waiting, [], found⟩ ⟨[], [], found ++ order.map s.finding⟩ := by
  induction order generalizing waiting found with
  | nil =>
    rw [List.nil_perm.1 h, List.map_nil, List.append_nil]
  | cons file order ih =>
    obtain ⟨before, after, rfl⟩ := List.append_of_mem (h.mem_iff.1 List.mem_cons_self)
    have hrest : order.Perm (before ++ after) := (h.trans List.perm_middle).cons_inv
    have hpermit : s.Step ⟨before ++ file :: after, [], found⟩ ⟨before ++ after, [file], found⟩ :=
      .permit (w := ⟨before ++ file :: after, [], found⟩) rfl
        (Nat.lt_of_lt_of_le Nat.one_pos (Nat.le_max_right _ _))
    have hrunning : [file] = [] ++ file :: [] := rfl
    have hfinish : s.Step ⟨before ++ after, [file], found⟩
        ⟨before ++ after, [], found ++ [s.finding file]⟩ :=
      .finish (w := ⟨before ++ after, [file], found⟩) hrunning
    have hsteps := ih hrest (found ++ [s.finding file])
    rw [List.append_assoc] at hsteps
    exact .head hpermit (.head hfinish hsteps)

theorem exists_reaches_order {order : List (Files.Path × String)} (h : order.Perm s.files) :
    ∃ w, s.Reaches w ∧ w.Done ∧ w.found = order.map s.finding :=
  ⟨_, exists_steps_order h [], ⟨rfl, rfl⟩, rfl⟩

/-! ## What a run makes of a survey -/

theorem scanned_nodup_of_perm {found : List (String × FileFinding)}
    (hfound : found.Perm (s.files.map s.finding)) (hnodup : s.scanned.Nodup) :
    (found.map (·.1)).Nodup := by
  rw [(hfound.map _).nodup_iff, List.map_map]
  exact hnodup

theorem loaded_eq_of_perm {found : List (String × FileFinding)}
    (hfound : found.Perm (s.files.map s.finding)) (hnodup : s.scanned.Nodup) :
    s.loaded found = s.loaded (s.files.map s.finding) := by
  rw [loaded, ofFindings_eq_of_perm hfound (scanned_nodup_of_perm hfound hnodup), loaded]

/-- Where nothing breaks down this is what a run makes of the files. -/
theorem loaded_eq_load (h : ∀ file ∈ s.files, s.breakdown file = none) :
    s.loaded (s.files.map s.finding) = s.setup.load s.checkpoint s.files s.world := by
  have hfound : s.files.map s.finding =
      look s.setup.settings.clustering.policy s.world.files (s.checkpoint.purge s.scanned).1
        s.files := by
    refine List.map_congr_left fun file hfile => ?_
    rw [finding, h file hfile]
  rw [loaded, hfound]
  rfl

theorem names_finding (s : Survey σ) (file : Files.Path × String) :
    (s.finding file).2.Names (s.finding file).1 := by
  unfold finding
  split
  · exact names_brokeDown _ _
  · exact names_ofFile _ _ _ _

/-- What comes of a survey that is over. -/
structure Settled (s : Survey σ) (w : State) : Prop where
  /-- Other workers and another course make no difference to what the run knows and to what the index is
  told. -/
  same : ∀ workers w', { s with workers := workers }.Reaches w' → w'.Done →
    s.loaded w'.found = s.loaded w.found ∧ s.indexCalls w'.found = s.indexCalls w.found
  /-- So the files could have been looked at one by one as they were scanned. -/
  inTurn : s.loaded w.found = s.loaded (s.files.map s.finding)
  load : (∀ file ∈ s.files, s.breakdown file = none) →
    s.loaded w.found = s.setup.load s.checkpoint s.files s.world
  /-- What the index is told makes it what the run leaves. -/
  index : (s.indexCalls w.found).foldl s.setup.index.perform s.world.index =
    (s.loaded w.found).world.index
  counted : s.files.length = (s.loaded w.found).inventory.loaded +
    (s.loaded w.found).inventory.unchanged + (s.loaded w.found).inventory.failed
  confined : (s.loaded w.found).inventory.checkpoint.Confined s.scanned

theorem confined_loaded {found : List (String × FileFinding)}
    (hfound : found.Perm (s.files.map s.finding))
    (hsound : ∀ path, (s.checkpoint.recordOf path).Sound) :
    (s.loaded found).inventory.checkpoint.Confined s.scanned := by
  refine confined_of_blank fun path hpath => ?_
  have hmem : ∀ f ∈ inOrder found, ∃ file ∈ s.files, s.finding file = f := fun f hf =>
    List.mem_map.1 (hfound.mem_iff.1 ((inOrder_perm found).mem_iff.1 hf))
  refine (recordOf_foldl_note_of_not_mem ?_ ?_ _).trans
    ((recordOf_purge hsound s.scanned path).trans (if_neg hpath))
  · intro f hf
    obtain ⟨file, -, rfl⟩ := hmem f hf
    exact s.names_finding file
  · intro hin
    obtain ⟨f, hf, rfl⟩ := List.mem_map.1 hin
    obtain ⟨file, hfile, rfl⟩ := hmem f hf
    exact hpath (List.mem_map_of_mem hfile)

theorem settled_of_done (hnodup : s.scanned.Nodup)
    (hsound : ∀ path, (s.checkpoint.recordOf path).Sound) (h : s.Reaches w) (hdone : w.Done) :
    s.Settled w := by
  have hfound := found_of_done h hdone
  constructor
  case same =>
    intro workers w' h' hdone'
    have hfound' : w'.found.Perm (s.files.map s.finding) :=
      found_of_done (s := { s with workers := workers }) h' hdone'
    have hloaded : s.loaded w'.found = s.loaded w.found :=
      (loaded_eq_of_perm hfound' hnodup).trans (loaded_eq_of_perm hfound hnodup).symm
    exact ⟨hloaded, by rw [indexCalls, hloaded, indexCalls]⟩
  case inTurn => exact loaded_eq_of_perm hfound hnodup
  case load =>
    intro hnone
    rw [loaded_eq_of_perm hfound hnodup, loaded_eq_load hnone]
  case index => exact SimilarityIndex.foldl_perform_calls _ _ _
  case counted =>
    have hcounted := counted_ofFindings s.checkpoint s.scanned w.found
    rw [hfound.length_eq, List.length_map] at hcounted
    exact hcounted.symm
  case confined => exact confined_loaded hfound hsound

/-- **The order in which tasks end does not matter**: whatever course a survey takes, it comes to an
end after so many steps, and what the run knows then and tells the index is settled by the files and the
checkpoint; and the findings can come in in every order. -/
theorem reaches_settled (hnodup : s.scanned.Nodup)
    (hsound : ∀ path, (s.checkpoint.recordOf path).Sound) (h : s.Reaches w) :
    (w.Done → s.Settled w) ∧ (∃ w', Relation.ReflTransGen s.Step w w' ∧ w'.Done) ∧
      (∀ w', s.Step w w' → w'.left < w.left) ∧
      ∀ order : List (Files.Path × String), order.Perm s.files →
        ∃ w', s.Reaches w' ∧ w'.Done ∧ w'.found = order.map s.finding :=
  ⟨settled_of_done hnodup hsound h, s.exists_done w, fun _ => left_lt_of_step,
    fun _ => exists_reaches_order⟩

namespace Sample

/-- What is known of a file that is gone. -/
def gone : FileExtraction := ⟨[], [⟨"gone.py", "no name", some 3⟩], some "0", false⟩

/-- Two files and two workers, over the record of a third file; looking at one of them breaks down. -/
def pair : Survey Unit where
  setup := Sample.setupWith Sample.silent
  checkpoint := Checkpoint.empty.recordFile "gone.py" gone.contentHash gone.functions gone.errors
    (!gone.failed)
  files := Sample.before.files
  world := Sample.before.world
  workers := 2
  breakdown file := if file.2 = "b.py" then some "task 7 panicked" else none

theorem pair_sound (path : String) : (pair.checkpoint.recordOf path).Sound := by
  have hnames : ∀ e ∈ gone.errors, e.filePath = "gone.py" := by
    intro e he
    obtain rfl := List.mem_singleton.1 he
    rfl
  have hrecord : pair.checkpoint.recordOf path =
      if "gone.py" = path then .ofExtraction gone else Checkpoint.empty.recordOf path :=
    recordOf_recordFile rfl hnames path
  rw [hrecord]
  split
  · exact FileRecord.sound_ofExtraction _
  · exact FileRecord.sound_blank

end Sample

theorem reaches_settled_pair :
    Sample.pair.scanned.Nodup ∧ (∀ path, (Sample.pair.checkpoint.recordOf path).Sound) ∧
      Sample.pair.Reaches Sample.pair.start ∧ ∃ w, Sample.pair.Reaches w ∧ w.Done ∧ Sample.pair.Settled w := by
  have hnodup : Sample.pair.scanned.Nodup := by decide
  obtain ⟨-, ⟨w, hsteps, hdone⟩, -⟩ := reaches_settled hnodup Sample.pair_sound (w := Sample.pair.start) .refl
  exact ⟨hnodup, Sample.pair_sound, .refl, w, hsteps, hdone,
    (reaches_settled hnodup Sample.pair_sound hsteps).1 hdone⟩

end Survey

end Consolidation
