/-
# `Proofs.Cluster.Coherence` — the two maps of a clustering agree

A clustering keeps two maps, from keys to clusters and from functions to keys.  `Clustering.Coherent` says how they belong
together: a function has a key exactly when the cluster under that key has a member of its identifier, every cluster
carries the key under which it is kept, and every cluster is `Ordered`.

Every operation keeps this, and what it does to the keys of functions is one look-up equation each
(`find?_memberships_remove`, `find?_memberships_insert`).  Whoever needs more of a clustering than its keys uses
`Coherent.ext`: where every identifier stands for one function, the keys of the functions determine the whole clustering.

| operation | what it does to the keys |
| :-- | :-- |
| `remove` | the function has none, all others keep theirs |
| `insert` | the function has the new key, all others keep theirs |

A member of an ordered cluster occurs once (`Ordered.countP_eq_one_iff`), so removing it takes it away, and a cluster
whose last member goes vanishes with it (`find?_clusters_remove`).  `MembersAre` is the invariant that goes beside
coherence where something is known of all functions that come in.
-/
import Consolidation.Cluster.Clustering
import Consolidation.Proofs.Cluster.Members

namespace Consolidation

namespace Cluster

variable {c : Cluster}

def ids (c : Cluster) : List String := c.members.map (·.id)

@[simp] theorem mem_ids_single {key id : String} {f : FunctionRecord} :
    id ∈ (single key f).ids ↔ id = f.id := by
  simp [ids, single]

@[simp] theorem mem_ids_add {id : String} {f : FunctionRecord} :
    id ∈ (c.add f).ids ↔ id = f.id ∨ id ∈ c.ids := by
  simp only [ids, add, List.mem_map, mem_insertMember]
  constructor
  · rintro ⟨m, rfl | hm, rfl⟩
    · exact .inl rfl
    · exact .inr ⟨m, hm, rfl⟩
  · rintro (rfl | ⟨m, hm, rfl⟩)
    · exact ⟨f, .inl rfl, rfl⟩
    · exact ⟨m, .inr hm, rfl⟩

theorem exists_remove_iff {gone id : String} :
    (∃ c', c.remove gone = some c' ∧ id ∈ c'.ids) ↔ id ∈ c.ids ∧ id ≠ gone := by
  simp only [ids, List.mem_map]
  constructor
  · rintro ⟨c', hc', m, hm, rfl⟩
    rw [(members_of_remove hc').2, List.mem_filter, bne_iff_ne] at hm
    exact ⟨⟨m, hm.1, rfl⟩, hm.2⟩
  · rintro ⟨⟨m, hm, rfl⟩, hne⟩
    cases hc : c.remove gone with
    | none => exact absurd (remove_eq_none_iff.1 hc m hm) hne
    | some c' =>
      refine ⟨c', rfl, m, ?_, rfl⟩
      rw [(members_of_remove hc).2, List.mem_filter, bne_iff_ne]
      exact ⟨hm, hne⟩

theorem Ordered.countP_eq_one_iff (h : c.Ordered) {id : String} :
    c.members.countP (·.id == id) = 1 ↔ id ∈ c.ids := by
  have hcount : c.members.countP (·.id == id) = c.ids.count id := by
    rw [Cluster.ids, List.count, List.countP_map]
    rfl
  have hids : c.ids.Nodup := h.ids
  rw [hcount, hids.count]
  split <;> simp_all

end Cluster

namespace Clustering

/-- The two maps of a clustering belong together. -/
structure Coherent (c : Clustering) : Prop where
  membership : ∀ id key, c.memberships.find? id = some key ↔
    ∃ k, c.clusters.find? key = some k ∧ id ∈ k.ids
  key_eq : ∀ key k, c.clusters.find? key = some k → k.key = key
  ordered : ∀ key k, c.clusters.find? key = some k → k.Ordered

theorem coherent_empty : empty.Coherent where
  membership := by simp [empty]
  key_eq := by simp [empty]
  ordered := by simp [empty]

variable {c : Clustering}

theorem Coherent.mem_ids_iff (h : c.Coherent) {key id : String} {k : Cluster}
    (hk : c.clusters.find? key = some k) :
    id ∈ k.ids ↔ c.memberships.find? id = some key := by
  rw [h.membership]
  constructor
  · intro hid
    exact ⟨k, hk, hid⟩
  · rintro ⟨k', hk', hid⟩
    rw [hk] at hk'
    cases hk'
    exact hid

/-! ## Removal -/

theorem find?_memberships_remove (c : Clustering) (gone id : String) :
    (c.remove gone).memberships.find? id =
      if gone = id then none else c.memberships.find? id := by
  unfold remove
  split
  · next h =>
    split
    · next e => exact e ▸ h
    · rfl
  · exact Dict.find?_erase ..

/-- What removal does to the clusters: only the one under the key of the function changes. -/
theorem find?_clusters_remove {gone key : String} {k : Cluster}
    (hm : c.memberships.find? gone = some key) (hk : c.clusters.find? key = some k) (key' : String) :
    (c.remove gone).clusters.find? key' =
      if key = key' then k.remove gone else c.clusters.find? key' := by
  simp only [remove, hm, hk]
  cases hr : k.remove gone with
  | none => exact Dict.find?_erase ..
  | some rest => exact Dict.find?_insert ..

theorem Coherent.remove (h : c.Coherent) (gone : String) : (c.remove gone).Coherent := by
  cases hm : c.memberships.find? gone with
  | none => simpa only [Clustering.remove, hm] using h
  | some key =>
    obtain ⟨k, hk, hgone⟩ := (h.membership gone key).1 hm
    have hfind := find?_clusters_remove hm hk
    refine ⟨?_, ?_, ?_⟩
    · intro id key'
      rw [find?_memberships_remove, hfind]
      by_cases hkey : key = key'
      · subst hkey
        rw [if_pos rfl, Cluster.exists_remove_iff, h.mem_ids_iff hk]
        by_cases hid : gone = id
        · simp [hid]
        · simp [hid, Ne.symm hid]
      · rw [if_neg hkey, ← h.membership]
        by_cases hid : gone = id
        · subst hid
          simp [hm, hkey]
        · simp [hid]
    · intro key' k' hk'
      rw [hfind] at hk'
      split at hk'
      · next e =>
        rw [(Cluster.members_of_remove hk').1, ← e]
        exact h.key_eq key k hk
      · exact h.key_eq key' k' hk'
    · intro key' k' hk'
      rw [hfind] at hk'
      split at hk'
      · exact (h.ordered key k hk).remove hk'
      · exact h.ordered key' k' hk'

/-! ## Insertion -/

theorem find?_clusters_place (c : Clustering) (key : String) (f : FunctionRecord) (key' : String) :
    (c.place key f).clusters.find? key' =
      if key = key' then
        some (match c.clusters.find? key with
          | some k => k.add f
          | none => .single key f)
      else c.clusters.find? key' := by
  unfold place
  cases c.clusters.find? key with
  | none => exact Dict.find?_insert ..
  | some k => exact Dict.find?_insert ..

theorem Coherent.place (h : c.Coherent) {key : String} {f : FunctionRecord}
    (hf : c.memberships.find? f.id = none) : (c.place key f).Coherent := by
  have hfind := find?_clusters_place c key f
  have hnew : ∀ k, c.clusters.find? key = some k → f.id ∉ k.ids := by
    intro k hk hid
    rw [h.mem_ids_iff hk, hf] at hid
    cases hid
  refine ⟨?_, ?_, ?_⟩
  · intro id key'
    rw [hfind]
    have hmem : (c.place key f).memberships.find? id =
        if f.id = id then some key else c.memberships.find? id := Dict.find?_insert ..
    rw [hmem]
    by_cases hkey : key = key'
    · subst hkey
      rw [if_pos rfl]
      cases hk : c.clusters.find? key with
      | none =>
        by_cases hid : f.id = id
        · simp [hid]
        · simp [hid, Ne.symm hid, h.membership, hk]
      | some k =>
        by_cases hid : f.id = id
        · simp [hid]
        · simp [hid, Ne.symm hid, h.mem_ids_iff hk]
    · rw [if_neg hkey, ← h.membership]
      by_cases hid : f.id = id
      · subst hid
        simp [hf, hkey]
      · simp [hid]
  · intro key' k' hk'
    rw [hfind] at hk'
    split at hk'
    · next e =>
      subst e
      cases hk : c.clusters.find? key with
      | none => simp only [hk, Option.some.injEq] at hk'; exact hk' ▸ rfl
      | some k => simp only [hk, Option.some.injEq] at hk'; exact hk' ▸ h.key_eq key k hk
    · exact h.key_eq key' k' hk'
  · intro key' k' hk'
    rw [hfind] at hk'
    split at hk'
    · next e =>
      subst e
      cases hk : c.clusters.find? key with
      | none =>
        simp only [hk, Option.some.injEq] at hk'
        exact hk' ▸ Cluster.Ordered.single key f
      | some k =>
        simp only [hk, Option.some.injEq] at hk'
        exact hk' ▸ (h.ordered key k hk).add (hnew k hk)
    · exact h.ordered key' k' hk'

theorem find?_memberships_insert (c : Clustering) (key : String) (f : FunctionRecord) (id : String) :
    (c.insert key f).memberships.find? id =
      if f.id = id then some key else c.memberships.find? id := by
  unfold insert
  split
  · next previous hprev =>
    split
    · next e =>
      split
      · next hid => rw [← hid, hprev, e]
      · rfl
    · simp only [place, Dict.find?_insert, find?_memberships_remove]
      split <;> rfl
  · simp only [place, Dict.find?_insert]

theorem Coherent.insert (h : c.Coherent) (key : String) (f : FunctionRecord) :
    (c.insert key f).Coherent := by
  unfold Clustering.insert
  split
  · split
    · exact h
    · refine (h.remove f.id).place ?_
      rw [find?_memberships_remove, if_pos rfl]
  · next hnone => exact h.place hnone

/-! ## Members and keys make a clustering -/

def MembersAre (P : FunctionRecord → Prop) (c : Clustering) : Prop :=
  ∀ key k, c.clusters.find? key = some k → ∀ m ∈ k.members, P m

section MembersAre

variable {P : FunctionRecord → Prop}

theorem membersAre_empty : empty.MembersAre P := by
  intro key k hk
  simp [empty] at hk

theorem MembersAre.remove (hc : c.Coherent) (h : c.MembersAre P) (gone : String) :
    (c.remove gone).MembersAre P := by
  cases hm : c.memberships.find? gone with
  | none => simpa only [Clustering.remove, hm] using h
  | some key =>
    obtain ⟨k, hk, -⟩ := (hc.membership gone key).1 hm
    intro key' k' hk' m hmem
    rw [find?_clusters_remove hm hk] at hk'
    split at hk'
    · rw [(Cluster.members_of_remove hk').2] at hmem
      exact h key k hk m (List.mem_of_mem_filter hmem)
    · exact h key' k' hk' m hmem

theorem MembersAre.place (h : c.MembersAre P) (key : String) {f : FunctionRecord} (hf : P f) :
    (c.place key f).MembersAre P := by
  intro key' k' hk' m hmem
  rw [find?_clusters_place] at hk'
  split at hk'
  · cases hk : c.clusters.find? key with
    | none =>
      simp only [hk, Option.some.injEq] at hk'
      subst hk'
      exact List.mem_singleton.1 hmem ▸ hf
    | some k =>
      simp only [hk, Option.some.injEq] at hk'
      subst hk'
      rcases Cluster.mem_insertMember.1 hmem with rfl | hmem
      · exact hf
      · exact h key k hk m hmem
  · exact h key' k' hk' m hmem

theorem MembersAre.insert (hc : c.Coherent) (h : c.MembersAre P) (key : String)
    {f : FunctionRecord} (hf : P f) : (c.insert key f).MembersAre P := by
  unfold Clustering.insert
  split
  · split
    · exact h
    · exact (h.remove hc f.id).place key hf
  · exact h.place key hf

end MembersAre

section Records

variable {record : String → FunctionRecord}

theorem Coherent.mem_members_iff (h : c.Coherent) (hrec : c.MembersAre (fun m => m = record m.id))
    {key : String} {k : Cluster} (hk : c.clusters.find? key = some k) {m : FunctionRecord} :
    m ∈ k.members ↔ c.memberships.find? m.id = some key ∧ m = record m.id := by
  rw [← h.mem_ids_iff hk]
  constructor
  · intro hm
    exact ⟨List.mem_map_of_mem hm, hrec key k hk m hm⟩
  · rintro ⟨hid, hm⟩
    obtain ⟨m', hm', hid'⟩ := List.mem_map.1 hid
    rw [hm, ← hid', ← hrec key k hk m' hm']
    exact hm'

variable {c' : Clustering}

theorem Coherent.find?_clusters_of_memberships_eq (h : c.Coherent) (h' : c'.Coherent)
    (hrec : c.MembersAre (fun m => m = record m.id))
    (hrec' : c'.MembersAre (fun m => m = record m.id)) (hm : c.memberships = c'.memberships)
    {key : String} {k : Cluster} (hk : c.clusters.find? key = some k) :
    c'.clusters.find? key = some k := by
  -- the canonical member shows that there is a cluster under this key on the other side
  have hcan := ((h.mem_members_iff hrec hk).1 (h.ordered key k hk).canonical_mem).1
  rw [hm] at hcan
  obtain ⟨k', hk', -⟩ := (h'.membership _ _).1 hcan
  rw [hk']
  refine congrArg some ((h'.ordered key k' hk').ext (h.ordered key k hk) ?_ fun m => ?_)
  · rw [h'.key_eq key k' hk', h.key_eq key k hk]
  · rw [h'.mem_members_iff hrec' hk', h.mem_members_iff hrec hk, hm]

/-- Where every identifier stands for one function, the keys of the functions make the clustering. -/
theorem Coherent.ext (h : c.Coherent) (h' : c'.Coherent)
    (hrec : c.MembersAre (fun m => m = record m.id))
    (hrec' : c'.MembersAre (fun m => m = record m.id)) (hm : c.memberships = c'.memberships) :
    c = c' := by
  have hclusters : c.clusters = c'.clusters := by
    refine Dict.ext_find? fun key => ?_
    cases hk : c.clusters.find? key with
    | some k => exact (h.find?_clusters_of_memberships_eq h' hrec hrec' hm hk).symm
    | none =>
      cases hk' : c'.clusters.find? key with
      | none => rfl
      | some k' =>
        rw [h'.find?_clusters_of_memberships_eq h hrec' hrec hm.symm hk'] at hk
        cases hk
  cases c
  cases c'
  simp_all

end Records

end Clustering

end Consolidation
