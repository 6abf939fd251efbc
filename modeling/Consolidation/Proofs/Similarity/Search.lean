/-
# `Proofs.Similarity.Search` — a search gives exactly the closest

The comparison by which hits are sorted is no order on all of them: what is not a number is as close as everything.  But
the threshold has been applied before, and it lets only numbers through.  On numbers the comparison is that of the ranks
(`Hit.before_eq_rankBefore`), the two zeros counting as one, and that is an order.

So the sorted hits stand strictly one before the other (`pairwise_ahead`), and there is only one such list of them, in
whatever order the vectors were looked at (`sortedHits_eq_of_perm`).  What a search gives is its start.

## What is proved

For every index, every query of its dimension, every threshold and every count there is an answer, and it is `Closest`:

| part | what it says |
| :-- | :-- |
| `stored`, `distinct` | each hit is a vector of the index with its score, and none comes twice |
| `reaching` | the scores are numbers and reach the threshold |
| `ordered` | each hit stands ahead of the later ones, by score and then by identifier |
| `length_eq` | there are as many as wanted, or all that reach the threshold |
| `omitted` | what reaches the threshold and is left out stands behind all that is given |

The answer does not depend on the order in which the vectors are looked at; who asks for more gets the same and more; and
a higher threshold gives what is left of all hits without those that do not reach it.

Scores are singles, and may be infinite or no numbers, since vectors may have such components.  Nothing is asked of them.
-/
import Mathlib.Data.List.Nodup
import Consolidation.Proofs.Collection.Dict
import Consolidation.Similarity.VectorIndex

namespace Consolidation

open Number

/-! ## Numbers in order -/

namespace Number.Single

variable {x y z : Single}

theorem le_iff : x.le y = true ↔ x.isNaN = false ∧ y.isNaN = false ∧ x.rank ≤ y.rank := by
  simp [le, and_assoc]

theorem lt_iff : x.lt y = true ↔ x.isNaN = false ∧ y.isNaN = false ∧ x.rank < y.rank := by
  simp [lt, and_assoc]

theorem eq_iff : x.eq y = true ↔ x.isNaN = false ∧ y.isNaN = false ∧ x.rank = y.rank := by
  simp [eq, and_assoc]

theorem le_trans (hxy : x.le y = true) (hyz : y.le z = true) : x.le z = true := by
  obtain ⟨hx, -, hxy⟩ := le_iff.1 hxy
  obtain ⟨-, hz, hyz⟩ := le_iff.1 hyz
  exact le_iff.2 ⟨hx, hz, Int.le_trans hxy hyz⟩

theorem isNaN_of_le (h : x.le y = true) : y.isNaN = false := (le_iff.1 h).2.1

end Number.Single

/-! ## Hits in order -/

namespace Hit

/-- Does a hit stand ahead of another for certain: closer, or as close with a smaller identifier? -/
def Ahead (a b : Hit) : Prop := b.score.lt a.score = true ∨ a.score.eq b.score = true ∧ a.id < b.id

/-- `before` by the ranks of the scores, numbers or not. -/
def rankBefore (a b : Hit) : Bool :=
  b.score.rank < a.score.rank || (!(a.score.rank < b.score.rank) && a.id ≤ b.id)

variable {a b c : Hit}

theorem before_eq_rankBefore (ha : a.score.isNaN = false) (hb : b.score.isNaN = false) :
    a.before b = a.rankBefore b := by
  simp [before, rankBefore, Single.lt, ha, hb]

theorem rankBefore_iff :
    a.rankBefore b = true ↔ b.score.rank < a.score.rank ∨ a.score.rank = b.score.rank ∧ a.id ≤ b.id := by
  simp only [rankBefore, Bool.or_eq_true, Bool.and_eq_true, decide_eq_true_eq, Bool.not_eq_true',
    decide_eq_false_iff_not, Int.not_lt]
  constructor
  · rintro (hlt | ⟨hle, hid⟩)
    · exact .inl hlt
    · rcases Int.lt_or_eq_of_le hle with hlt | heq
      · exact .inl hlt
      · exact .inr ⟨heq.symm, hid⟩
  · rintro (hlt | ⟨heq, hid⟩)
    · exact .inl hlt
    · exact .inr ⟨Int.le_of_eq heq.symm, hid⟩

theorem rankBefore_trans (a b c : Hit) (hab : a.rankBefore b = true) (hbc : b.rankBefore c = true) :
    a.rankBefore c = true := by
  rw [rankBefore_iff] at *
  rcases hab with hab | ⟨hab, hid⟩
  · left
    rcases hbc with hbc | ⟨hbc, -⟩ <;> omega
  · rcases hbc with hbc | ⟨hbc, hid'⟩
    · left
      omega
    · exact .inr ⟨hab.trans hbc, String.le_trans hid hid'⟩

theorem rankBefore_total (a b : Hit) : (a.rankBefore b || b.rankBefore a) = true := by
  rw [Bool.or_eq_true, rankBefore_iff, rankBefore_iff]
  rcases Int.lt_trichotomy a.score.rank b.score.rank with hlt | heq | hgt
  · exact .inr (.inl hlt)
  · rcases String.le_total a.id b.id with hid | hid
    · exact .inl (.inr ⟨heq, hid⟩)
    · exact .inr (.inr ⟨heq.symm, hid⟩)
  · exact .inl (.inl hgt)

theorem Ahead.of_rankBefore (ha : a.score.isNaN = false) (hb : b.score.isNaN = false) (hid : a.id ≠ b.id)
    (h : a.rankBefore b = true) : a.Ahead b := by
  rcases rankBefore_iff.1 h with hlt | ⟨heq, hle⟩
  · exact .inl (Single.lt_iff.2 ⟨hb, ha, hlt⟩)
  · refine .inr ⟨Single.eq_iff.2 ⟨ha, hb, heq⟩, ?_⟩
    exact String.not_le.1 fun hge => hid (String.le_antisymm hle hge)

theorem Ahead.asymm (hab : a.Ahead b) : ¬b.Ahead a := by
  intro hba
  rcases hab with hab | ⟨hab, hid⟩ <;> rcases hba with hba | ⟨hba, hid'⟩
  · have := (Single.lt_iff.1 hab).2.2
    have := (Single.lt_iff.1 hba).2.2
    omega
  · have := (Single.lt_iff.1 hab).2.2
    have := (Single.eq_iff.1 hba).2.2
    omega
  · have := (Single.eq_iff.1 hab).2.2
    have := (Single.lt_iff.1 hba).2.2
    omega
  · exact String.lt_irrefl _ (String.lt_trans hid hid')

/-- Hits whose scores are numbers, with an identifier each. -/
structure Sortable (hits : List Hit) : Prop where
  number : ∀ h ∈ hits, h.score.isNaN = false
  ids : (hits.map Hit.id).Nodup

variable {hits hits' : List Hit}

theorem Sortable.perm (h : Sortable hits) (hperm : hits.Perm hits') : Sortable hits' where
  number := fun hit hhit => h.number hit (hperm.mem_iff.2 hhit)
  ids := (hperm.map Hit.id).nodup_iff.1 h.ids

theorem Sortable.mergeSort_eq (h : Sortable hits) : hits.mergeSort before = hits.mergeSort rankBefore := by
  have hmap := List.map_mergeSort (f := fun hit : Hit => hit) (l := hits) (r := before) (s := rankBefore)
    fun a ha b hb => before_eq_rankBefore (h.number a ha) (h.number b hb)
  rwa [List.map_id', List.map_id'] at hmap

/-- Sorted hits stand strictly one before the other. -/
theorem Sortable.pairwise_ahead (h : Sortable hits) : (hits.mergeSort before).Pairwise Ahead := by
  have hsorted : Sortable (hits.mergeSort rankBefore) := h.perm (List.mergeSort_perm hits _).symm
  rw [h.mergeSort_eq]
  have hids : (hits.mergeSort rankBefore).Pairwise (fun a b => a.id ≠ b.id) := List.pairwise_map.1 hsorted.ids
  have hpairs := (List.pairwise_mergeSort rankBefore_trans rankBefore_total hits).and hids
  refine hpairs.imp_of_mem ?_
  rintro a b ha hb ⟨hbefore, hid⟩
  exact .of_rankBefore (hsorted.number a ha) (hsorted.number b hb) hid hbefore

theorem eq_of_pairwise_ahead (hperm : hits.Perm hits') (h : hits.Pairwise Ahead) (h' : hits'.Pairwise Ahead) :
    hits = hits' :=
  hperm.eq_of_pairwise (fun _ _ _ _ hab hba => absurd hba hab.asymm) h h'

end Hit

/-! ## Searches -/

namespace VectorIndex

/-- The hits among vectors that are looked at in some order, the closest first. -/
def sortedHits (entries : List (String × Embedding)) (query : Embedding) (threshold : Single) : List Hit :=
  ((entries.map (fun e => (⟨e.1, query.cosine e.2⟩ : Hit))).filter (fun h => threshold.le h.score)).mergeSort
    Hit.before

variable {i : VectorIndex} {query : Embedding} {threshold : Single} {count : Nat}

theorem search_eq (hdimension : ∀ n, i.dimension = some n → n = query.length) (threshold : Single) (count : Nat) :
    i.search query count threshold = .ok ((sortedHits i.vectors.entries query threshold).take count) := by
  have hcheck : i.checkDimension query = .ok () := by
    unfold checkDimension
    cases hn : i.dimension with
    | none => rfl
    | some n =>
      obtain rfl := hdimension n hn
      simp
  cases hempty : i.vectors.isEmpty with
  | true =>
    rw [search, hempty, if_pos rfl]
    rw [Dict.isEmpty, List.isEmpty_iff] at hempty
    rw [hempty, sortedHits, List.map_nil, List.filter_nil, List.mergeSort_nil, List.take_nil]
  | false =>
    rw [search, hempty, hcheck]
    rfl

theorem sortable_hits {entries : List (String × Embedding)} (h : (entries.map (·.1)).Nodup) :
    Hit.Sortable ((entries.map (fun e => (⟨e.1, query.cosine e.2⟩ : Hit))).filter
      (fun h => threshold.le h.score)) where
  number := by
    intro hit hhit
    exact Single.isNaN_of_le (List.mem_filter.1 hhit).2
  ids := by
    refine List.Nodup.sublist (List.filter_sublist.map Hit.id) ?_
    rw [List.map_map]
    exact h

theorem sortable_sortedHits {entries : List (String × Embedding)} (h : (entries.map (·.1)).Nodup) :
    Hit.Sortable (sortedHits entries query threshold) :=
  (sortable_hits h).perm (List.mergeSort_perm _ _).symm

theorem pairwise_sortedHits {entries : List (String × Embedding)} (h : (entries.map (·.1)).Nodup) :
    (sortedHits entries query threshold).Pairwise Hit.Ahead :=
  (sortable_hits h).pairwise_ahead

theorem mem_sortedHits {entries : List (String × Embedding)} {hit : Hit} :
    hit ∈ sortedHits entries query threshold ↔
      ∃ v, (hit.id, v) ∈ entries ∧ hit.score = query.cosine v ∧ threshold.le hit.score = true := by
  rw [sortedHits, (List.mergeSort_perm _ _).mem_iff, List.mem_filter, List.mem_map]
  constructor
  · rintro ⟨⟨⟨id, v⟩, hv, rfl⟩, hle⟩
    exact ⟨v, hv, rfl, hle⟩
  · rintro ⟨v, hv, hscore, hle⟩
    refine ⟨⟨(hit.id, v), hv, ?_⟩, hle⟩
    rw [← hscore]

/-- The order in which the vectors are looked at does not matter. -/
theorem sortedHits_eq_of_perm {entries entries' : List (String × Embedding)} (h : (entries.map (·.1)).Nodup)
    (hperm : entries'.Perm entries) : sortedHits entries' query threshold = sortedHits entries query threshold := by
  have h' : (entries'.map (·.1)).Nodup := (hperm.map _).nodup_iff.2 h
  refine Hit.eq_of_pairwise_ahead ?_ (pairwise_sortedHits h') (pairwise_sortedHits h)
  calc sortedHits entries' query threshold
    _ |>.Perm _ := List.mergeSort_perm _ _
    _ |>.Perm _ := (hperm.map _).filter _
    _ |>.Perm _ := (List.mergeSort_perm _ _).symm

/-- What an answer to a query has to be: the closest vectors that reach the threshold, in order. -/
structure Closest (i : VectorIndex) (query : Embedding) (threshold : Single) (count : Nat)
    (answer : List Hit) : Prop where
  distinct : (answer.map Hit.id).Nodup
  stored : ∀ h ∈ answer, ∃ v, i.vectors.find? h.id = some v ∧ h.score = query.cosine v
  reaching : ∀ h ∈ answer, threshold.le h.score = true ∧ h.score.isNaN = false
  ordered : answer.Pairwise Hit.Ahead
  length_eq : answer.length =
    min count (i.vectors.values.countP (fun v => threshold.le (query.cosine v)))
  omitted : ∀ id v, i.vectors.find? id = some v → threshold.le (query.cosine v) = true →
    id ∉ answer.map Hit.id → ∀ h ∈ answer, h.Ahead ⟨id, query.cosine v⟩

theorem mem_sortedHits_index {hit : Hit} :
    hit ∈ sortedHits i.vectors.entries query threshold ↔
      ∃ v, i.vectors.find? hit.id = some v ∧ hit.score = query.cosine v ∧ threshold.le hit.score = true := by
  simp only [mem_sortedHits, Dict.mem_entries_iff]

theorem length_sortedHits : (sortedHits i.vectors.entries query threshold).length =
    i.vectors.values.countP (fun v => threshold.le (query.cosine v)) := by
  rw [sortedHits, List.length_mergeSort, ← List.countP_eq_length_filter, List.countP_map, Dict.values,
    List.countP_map]
  rfl

theorem closest_take (i : VectorIndex) (query : Embedding) (threshold : Single) (count : Nat) :
    Closest i query threshold count ((sortedHits i.vectors.entries query threshold).take count) := by
  have hpairs : (sortedHits i.vectors.entries query threshold).Pairwise Hit.Ahead :=
    pairwise_sortedHits i.vectors.nodup_keys
  have hmem : ∀ h ∈ (sortedHits i.vectors.entries query threshold).take count,
      h ∈ sortedHits i.vectors.entries query threshold := fun h hh => List.mem_of_mem_take hh
  constructor
  case distinct =>
    have hsorted : Hit.Sortable (sortedHits i.vectors.entries query threshold) :=
      sortable_sortedHits i.vectors.nodup_keys
    exact hsorted.ids.sublist ((List.take_sublist count _).map Hit.id)
  case stored =>
    intro h hh
    obtain ⟨v, hv, hscore, -⟩ := mem_sortedHits_index.1 (hmem h hh)
    exact ⟨v, hv, hscore⟩
  case reaching =>
    intro h hh
    obtain ⟨-, -, -, hle⟩ := mem_sortedHits_index.1 (hmem h hh)
    exact ⟨hle, Single.isNaN_of_le hle⟩
  case ordered => exact hpairs.sublist (List.take_sublist count _)
  case length_eq => rw [List.length_take, length_sortedHits]
  case omitted =>
    intro id v hv hle hnot h hh
    have hhit : (⟨id, query.cosine v⟩ : Hit) ∈ sortedHits i.vectors.entries query threshold :=
      mem_sortedHits_index.2 ⟨v, hv, rfl, hle⟩
    rw [← List.take_append_drop count (sortedHits i.vectors.entries query threshold)] at hpairs hhit
    rcases List.mem_append.1 hhit with htake | hdrop
    · exact absurd (List.mem_map_of_mem htake) hnot
    · exact (List.pairwise_append.1 hpairs).2.2 h hh _ hdrop

theorem sortedHits_filter {threshold' : Single} (h : threshold.le threshold' = true) :
    (sortedHits i.vectors.entries query threshold).filter (fun hit => threshold'.le hit.score) =
      sortedHits i.vectors.entries query threshold' := by
  refine Hit.eq_of_pairwise_ahead ?_ ?_ (pairwise_sortedHits i.vectors.nodup_keys)
  · refine ((List.mergeSort_perm _ _).filter _).trans ((List.mergeSort_perm _ _).trans ?_).symm
    rw [List.filter_filter]
    refine List.Perm.of_eq (List.filter_congr fun hit _ => ?_)
    cases hle : threshold'.le hit.score with
    | true => rw [Single.le_trans h hle, Bool.and_true]
    | false => rw [Bool.false_and]
  · exact (pairwise_sortedHits i.vectors.nodup_keys).filter _

/-- A query of the dimension of the index is answered with the closest vectors that reach the threshold, in whatever order
the vectors are looked at.  Who asks for more gets the same and more; a higher threshold leaves out what does not reach it. -/
theorem search_closest (hdimension : ∀ n, i.dimension = some n → n = query.length) (threshold : Single)
    (count : Nat) :
    ∃ answer, i.search query count threshold = .ok answer ∧ Closest i query threshold count answer ∧
      (∀ entries, entries.Perm i.vectors.entries → (sortedHits entries query threshold).take count = answer) ∧
      (∀ more answer', count ≤ more → i.search query more threshold = .ok answer' → answer <+: answer') ∧
      (∀ threshold' all, threshold.le threshold' = true → i.search query i.size threshold = .ok all →
        i.search query count threshold' = .ok ((all.filter (fun h => threshold'.le h.score)).take count)) := by
  refine ⟨_, search_eq hdimension threshold count, closest_take i query threshold count, ?_, ?_, ?_⟩
  · intro entries hperm
    rw [sortedHits_eq_of_perm i.vectors.nodup_keys hperm]
  · intro more answer' hmore hanswer'
    rw [search_eq hdimension threshold more, Except.ok.injEq] at hanswer'
    rw [← hanswer']
    exact List.take_prefix_take_left hmore
  · intro threshold' all hle hall
    have hsize : (sortedHits i.vectors.entries query threshold).length ≤ i.size := by
      rw [length_sortedHits, size, Dict.size, ← List.length_map (·.2)]
      exact List.countP_le_length
    rw [search_eq hdimension threshold i.size, List.take_of_length_le hsize, Except.ok.injEq] at hall
    rw [search_eq hdimension threshold' count, ← hall, sortedHits_filter hle]

namespace Sample

/-- Vectors of which two are equally close, one points away and one is no number. -/
def tied : VectorIndex :=
  ⟨some 1, Dict.ofList [("z", [.one]), ("m", [.one]), ("n", [.nan]), ("a", [⟨true, Single.one.magnitude, by decide⟩])]⟩

end Sample

/-- Two vectors reach the threshold, and one of them is wanted. -/
theorem search_closest_tied :
    (∀ n, Sample.tied.dimension = some n → n = [Single.one].length) ∧
      ∃ answer, Sample.tied.search [.one] 1 .zero = .ok answer ∧ Closest Sample.tied [.one] .zero 1 answer ∧
        answer.length = 1 := by
  have hdimension : ∀ n, Sample.tied.dimension = some n → n = [Single.one].length := by
    intro n hn
    exact (Option.some.inj hn).symm
  have hcount : Sample.tied.vectors.values.countP (fun v => Single.zero.le (Embedding.cosine [.one] v)) = 2 := by
    decide +kernel
  obtain ⟨answer, hanswer, hclosest, -⟩ := search_closest hdimension .zero 1
  refine ⟨hdimension, answer, hanswer, hclosest, ?_⟩
  rw [hclosest.length_eq, hcount]
  rfl

end VectorIndex

end Consolidation
