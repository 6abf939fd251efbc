/-
# `Proofs.Cluster.Donation` — where the keys of functions come from

Functions arrive one after another, each with an answer of a similarity index or the failure of one.  A key that a
function gets is `Justified` in one of three ways:

| | |
| :-- | :-- |
| `donated` | it is the key of the first neighbour in the answer that has one, and this is another function, which came earlier |
| `own` | no neighbour in the answer, itself apart, has a key, and the function has the key of its keywords |
| `structural` | the function has no keywords, and has the key of functions that look alike |

Keys go from function to function, but nobody loses one.  So whoever was the first to have a semantic key has it still,
and it is the key of its own keywords (`Traced`).

## What is proved

For all arrivals of functions with different identifiers, each with an answer of the index or its failure: at every
arrival the function gets a key exactly if the index has not failed or was not asked, it has this key at the end of all
arrivals, and the key is `Justified`; if the index failed, the clustering is as it was before.  And a semantic key in use
is always the key of the keywords of a function that has it.

## How it goes

An assignment is looked at step by step (`assignInPlace`), so that it can be said that nothing changes when it fails
(`assignInPlace_atomic`).  A function that comes for the first time has no key, so the answer can be taken without it
(`donatedKey?_of_none`); what it gets is told by `keyFor_eq_ok` and is never changed by later arrivals
(`find?_afterArrivals_append`).
-/
import Consolidation.Proofs.Cluster.Calls
import Consolidation.Proofs.InPlace

namespace Consolidation.Clustering

open InPlace Number

/-! ## Arrivals -/

/-- Assigns a function, step by step: a key is found first, and then the function is put under it. -/
def assignInPlace (strategy : Strategy) (query : NeighbourQuery) (f : FunctionRecord) :
    EStateM StoreError Clustering String := do
  match (← get).memberships.find? f.id with
  | some key => return key
  | none =>
    let key ← MonadExcept.ofExcept ((← get).keyFor strategy query f)
    modify fun c => c.insert key f
    return key

theorem assignInPlace_atomic (strategy : Strategy) (query : NeighbourQuery) (f : FunctionRecord) :
    Atomic (assignInPlace strategy query f) (fun c => c.assign strategy query f) := by
  intro c
  simp only [assignInPlace, assign, EStateM.run_bind, EStateM.run_get]
  cases c.memberships.find? f.id with
  | some key => rfl
  | none =>
    simp only [EStateM.run_bind, EStateM.run_get]
    cases c.keyFor strategy query f with
    | ok key => rfl
    | error error => rfl

/-- A function that arrives, and the index that it meets: another answer, or another failure, each time. -/
structure Arrival where
  query : NeighbourQuery
  function : FunctionRecord

section Arrivals

variable (threshold : Single) (count : Nat)

/-- What the index says of the keywords of the function. -/
def Arrival.neighbours (a : Arrival) : Except StoreError (List String) :=
  a.query a.function.contextKeywords threshold (neighbourCount count)

def Arrival.inPlace (a : Arrival) : EStateM StoreError Clustering String :=
  assignInPlace (.semantic threshold count) a.query a.function

/-- The clustering after an arrival, whether the function got a key or not. -/
def afterArrival (c : Clustering) (a : Arrival) : Clustering := stateOf ((a.inPlace threshold count).run c)

def afterArrivals (arrivals : List Arrival) : Clustering := arrivals.foldl (afterArrival threshold count) empty

/-- Why a function gets a key, when others have arrived before. -/
inductive Justified (earlier : List Arrival) (a : Arrival) : String → Prop where
  | donated {before after : List String} {donor : Arrival} {key : String} :
      a.function.contextKeywords ≠ "" →
      a.neighbours threshold count = .ok (before ++ donor.function.id :: after) →
      donor ∈ earlier → donor.function.id ≠ a.function.id →
      (afterArrivals threshold count earlier).memberships.find? donor.function.id = some key →
      (∀ id ∈ before, (afterArrivals threshold count earlier).memberships.find? id = none) →
      Justified earlier a key
  | own {neighbours : List String} :
      a.function.contextKeywords ≠ "" →
      a.neighbours threshold count = .ok neighbours →
      (∀ id ∈ neighbours, id ≠ a.function.id →
        (afterArrivals threshold count earlier).memberships.find? id = none) →
      Justified earlier a (semanticKey a.function.contextKeywords)
  | structural : a.function.contextKeywords = "" → Justified earlier a (structuralKey a.function)

end Arrivals

variable {c : Clustering} {a : Arrival} {arrivals earlier : List Arrival} {threshold : Single} {count : Nat}

/-! ## One arrival -/

theorem run_inPlace (threshold : Single) (count : Nat) (c : Clustering) (a : Arrival) :
    (a.inPlace threshold count).run c = orKept c (c.assign (.semantic threshold count) a.query a.function) :=
  assignInPlace_atomic (.semantic threshold count) a.query a.function c

def Arrival.call (threshold : Single) (count : Nat) (a : Arrival) : Call :=
  .assign (.semantic threshold count) a.query a.function

theorem afterArrival_eq_apply (threshold : Single) (count : Nat) (c : Clustering) (a : Arrival) :
    afterArrival threshold count c a = (a.call threshold count).apply c := by
  rw [afterArrival, run_inPlace, Arrival.call, Call.apply]
  cases c.assign (.semantic threshold count) a.query a.function <;> rfl

theorem afterArrival_eq (threshold : Single) (count : Nat) (c : Clustering) (a : Arrival) :
    afterArrival threshold count c a = c ∨
      ∃ key, c.memberships.find? a.function.id = none ∧
        c.keyFor (.semantic threshold count) a.query a.function = .ok key ∧
        afterArrival threshold count c a = c.insert key a.function := by
  unfold afterArrival
  rw [run_inPlace]
  cases hassign : c.assign (.semantic threshold count) a.query a.function with
  | error error => exact .inl rfl
  | ok result =>
    obtain ⟨key, c'⟩ := result
    rcases assign_eq_ok hassign with ⟨rfl, -⟩ | ⟨rfl, hnone, hkey⟩
    · exact .inl rfl
    · exact .inr ⟨key, hnone, hkey, rfl⟩

theorem donatedKey?_of_none {id : String} (hnone : c.memberships.find? id = none) (neighbours : List String) :
    c.donatedKey? id neighbours = neighbours.findSome? c.memberships.find? := by
  unfold donatedKey?
  induction neighbours with
  | nil => rfl
  | cons neighbour neighbours ih =>
    by_cases hid : neighbour = id
    · rw [List.filter_cons_of_neg (by simp [hid]), List.findSome?_cons, hid, hnone, ih]
    · rw [List.filter_cons_of_pos (by simpa using hid), List.findSome?_cons, List.findSome?_cons, ih]

/-- What key is found: one of the function's own, or that of the first neighbour that has one. -/
theorem keyFor_eq_ok {key : String} (hnone : c.memberships.find? a.function.id = none)
    (h : c.keyFor (.semantic threshold count) a.query a.function = .ok key) :
    (a.function.contextKeywords = "" ∧ key = structuralKey a.function) ∨
      a.function.contextKeywords ≠ "" ∧ ∃ neighbours, a.neighbours threshold count = .ok neighbours ∧
        (neighbours.findSome? c.memberships.find? = some key ∨
          neighbours.findSome? c.memberships.find? = none ∧ key = semanticKey a.function.contextKeywords) := by
  simp only [keyFor, semanticKeyFor] at h
  split at h
  · next hempty =>
    cases h
    exact .inl ⟨String.isEmpty_iff.1 hempty, rfl⟩
  · next hempty =>
    refine .inr ⟨fun heq => hempty (String.isEmpty_iff.2 heq), ?_⟩
    split at h
    · cases h
    · next neighbours hneighbours =>
      refine ⟨neighbours, hneighbours, ?_⟩
      rw [donatedKey?_of_none hnone] at h
      cases hdonated : neighbours.findSome? c.memberships.find? with
      | some donated =>
        rw [hdonated] at h
        cases h
        exact .inl rfl
      | none =>
        rw [hdonated] at h
        cases h
        exact .inr ⟨rfl, rfl⟩

theorem keyFor_eq_error {error : StoreError}
    (h : c.keyFor (.semantic threshold count) a.query a.function = .error error) :
    a.function.contextKeywords ≠ "" ∧ a.neighbours threshold count = .error error := by
  simp only [keyFor, semanticKeyFor] at h
  split at h
  · cases h
  · next hempty =>
    refine ⟨fun heq => hempty (String.isEmpty_iff.2 heq), ?_⟩
    split at h
    · next hneighbours =>
      cases h
      exact hneighbours
    · cases h

/-! ## Keys are not lost -/

theorem find?_afterArrival_of_some {id key : String} (h : c.memberships.find? id = some key) :
    (afterArrival threshold count c a).memberships.find? id = some key := by
  rcases afterArrival_eq threshold count c a with heq | ⟨key', hnone, -, heq⟩
  · rw [heq, h]
  · rw [heq, find?_memberships_insert, if_neg, h]
    rintro rfl
    rw [h] at hnone
    cases hnone

theorem find?_afterArrival_eq_some {id key : String}
    (h : (afterArrival threshold count c a).memberships.find? id = some key) :
    c.memberships.find? id = some key ∨
      a.function.id = id ∧ c.memberships.find? a.function.id = none ∧
        c.keyFor (.semantic threshold count) a.query a.function = .ok key := by
  rcases afterArrival_eq threshold count c a with heq | ⟨found, hnone, hfound, heq⟩
  · rw [heq] at h
    exact .inl h
  · rw [heq, find?_memberships_insert] at h
    split at h
    · next hid =>
      cases h
      exact .inr ⟨hid, hnone, hfound⟩
    · exact .inl h

theorem find?_afterArrival_of_ne {id : String} (h : a.function.id ≠ id) :
    (afterArrival threshold count c a).memberships.find? id = c.memberships.find? id := by
  rcases afterArrival_eq threshold count c a with heq | ⟨key, -, -, heq⟩
  · rw [heq]
  · rw [heq, find?_memberships_insert, if_neg h]

theorem find?_foldl_of_forall_ne {id : String} (h : ∀ a ∈ arrivals, a.function.id ≠ id) :
    (arrivals.foldl (afterArrival threshold count) c).memberships.find? id = c.memberships.find? id := by
  induction arrivals generalizing c with
  | nil => rfl
  | cons a arrivals ih =>
    obtain ⟨ha, hrest⟩ := List.forall_mem_cons.1 h
    rw [List.foldl_cons, ih hrest, find?_afterArrival_of_ne ha]

/-! ## Who was the first to have a key -/

/-- Keys are keys of functions that arrived, and every key is that of the keywords, or of the look, of a function that has it. -/
structure Traced (arrivals : List Arrival) (c : Clustering) : Prop where
  arrived : ∀ id key, c.memberships.find? id = some key → ∃ a ∈ arrivals, a.function.id = id
  minted : ∀ id key, c.memberships.find? id = some key →
    ∃ a ∈ arrivals, c.memberships.find? a.function.id = some key ∧
      (key = semanticKey a.function.contextKeywords ∨ key = structuralKey a.function)

theorem traced_empty : Traced [] empty := ⟨nofun, nofun⟩

theorem Traced.step (h : Traced earlier c) (a : Arrival) :
    Traced (earlier ++ [a]) (afterArrival threshold count c a) where
  arrived := by
    intro id key hkey
    rcases find?_afterArrival_eq_some hkey with hbefore | ⟨hid, -, -⟩
    · obtain ⟨b, hb, hid⟩ := h.arrived id key hbefore
      exact ⟨b, List.mem_append_left _ hb, hid⟩
    · exact ⟨a, List.mem_append_right _ List.mem_cons_self, hid⟩
  minted := by
    intro id key hkey
    have hold : ∀ id, c.memberships.find? id = some key →
        ∃ b ∈ earlier ++ [a], (afterArrival threshold count c a).memberships.find? b.function.id = some key ∧
          (key = semanticKey b.function.contextKeywords ∨ key = structuralKey b.function) := by
      intro id hbefore
      obtain ⟨b, hb, hbkey, hminted⟩ := h.minted id key hbefore
      exact ⟨b, List.mem_append_left _ hb, find?_afterArrival_of_some hbkey, hminted⟩
    rcases find?_afterArrival_eq_some hkey with hbefore | ⟨rfl, hnone, hfound⟩
    · exact hold id hbefore
    · have ha : a ∈ earlier ++ [a] := List.mem_append_right _ List.mem_cons_self
      rcases keyFor_eq_ok hnone hfound with ⟨-, rfl⟩ | ⟨-, neighbours, -, hdonated | ⟨-, rfl⟩⟩
      · exact ⟨a, ha, hkey, .inr rfl⟩
      · -- the function that was first to have the key of the donor
        obtain ⟨donor, -, hdonor⟩ := List.exists_of_findSome?_eq_some hdonated
        exact hold donor hdonor
      · exact ⟨a, ha, hkey, .inl rfl⟩

theorem Traced.foldl (h : Traced earlier c) (arrivals : List Arrival) :
    Traced (earlier ++ arrivals) (arrivals.foldl (afterArrival threshold count) c) := by
  induction arrivals generalizing earlier c with
  | nil => rwa [List.append_nil]
  | cons a arrivals ih =>
    rw [List.foldl_cons, List.append_cons]
    exact ih (h.step a)

theorem traced_afterArrivals (threshold : Single) (count : Nat) (arrivals : List Arrival) :
    Traced arrivals (afterArrivals threshold count arrivals) := traced_empty.foldl arrivals

theorem Traced.exists_semantic (h : Traced arrivals c) {id rest : String}
    (hkey : c.memberships.find? id = some ("sem:" ++ rest)) :
    ∃ a ∈ arrivals, c.memberships.find? a.function.id = some ("sem:" ++ rest) ∧
      "sem:" ++ rest = semanticKey a.function.contextKeywords := by
  obtain ⟨a, ha, hhas, hsemantic | hstructural⟩ := h.minted id _ hkey
  · exact ⟨a, ha, hhas, hsemantic⟩
  · have hsecond := congrArg (fun key : String => key.toList[1]?) hstructural
    simp [structuralKey] at hsecond

/-! ## All keys are justified -/

theorem justified_of_keyFor {key : String}
    (hnone : (afterArrivals threshold count earlier).memberships.find? a.function.id = none)
    (h : (afterArrivals threshold count earlier).keyFor (.semantic threshold count) a.query a.function = .ok key) :
    Justified threshold count earlier a key := by
  rcases keyFor_eq_ok hnone h with ⟨hempty, rfl⟩ | ⟨hkeywords, neighbours, hneighbours, hdonated | ⟨hundonated, rfl⟩⟩
  · exact .structural hempty
  · obtain ⟨before, donor, after, rfl, hdonor, hbefore⟩ := List.findSome?_eq_some_iff.1 hdonated
    obtain ⟨b, hb, rfl⟩ := (traced_afterArrivals threshold count earlier).arrived donor key hdonor
    refine .donated hkeywords hneighbours hb ?_ hdonor hbefore
    intro hself
    rw [hself, hnone] at hdonor
    cases hdonor
  · exact .own hkeywords hneighbours fun id hid _ => List.findSome?_eq_none_iff.1 hundonated id hid

/-- An arrival of a function without a key: it gets the one that is found, or the index fails and nothing changes. -/
theorem run_inPlace_of_none (hnone : c.memberships.find? a.function.id = none) (threshold : Single) (count : Nat) :
    (∃ key, c.keyFor (.semantic threshold count) a.query a.function = .ok key ∧
        (a.inPlace threshold count).run c = .ok key (afterArrival threshold count c a) ∧
        (afterArrival threshold count c a).memberships.find? a.function.id = some key) ∨
      ∃ error, c.keyFor (.semantic threshold count) a.query a.function = .error error ∧
        (a.inPlace threshold count).run c = .error error c ∧
        (afterArrival threshold count c a).memberships.find? a.function.id = none := by
  cases hfound : c.keyFor (.semantic threshold count) a.query a.function with
  | ok key =>
    have hrun : (a.inPlace threshold count).run c = .ok key (c.insert key a.function) := by
      rw [run_inPlace, assign, hnone, hfound]
      rfl
    refine .inl ⟨key, rfl, ?_, ?_⟩
    · rw [afterArrival, hrun, stateOf]
    · rw [afterArrival, hrun, stateOf, find?_memberships_insert, if_pos rfl]
  | error error =>
    have hrun : (a.inPlace threshold count).run c = .error error c := by
      rw [run_inPlace, assign, hnone, hfound]
      rfl
    refine .inr ⟨error, rfl, hrun, ?_⟩
    rw [afterArrival, hrun, stateOf, hnone]

/-- Where identifiers are distinct, a function comes without a key, and what it gets is what it has in the end. -/
theorem find?_afterArrivals_append {later : List Arrival}
    (hdistinct : ((earlier ++ a :: later).map (·.function.id)).Nodup) (threshold : Single) (count : Nat) :
    (afterArrivals threshold count earlier).memberships.find? a.function.id = none ∧
      (afterArrivals threshold count (earlier ++ a :: later)).memberships.find? a.function.id =
        (afterArrival threshold count (afterArrivals threshold count earlier) a).memberships.find? a.function.id := by
  rw [List.map_append, List.map_cons, List.nodup_append, List.nodup_cons] at hdistinct
  obtain ⟨-, ⟨hlater, -⟩, hearlier⟩ := hdistinct
  constructor
  · refine find?_foldl_of_forall_ne fun b hb => ?_
    exact hearlier _ (List.mem_map_of_mem hb) _ List.mem_cons_self
  · rw [afterArrivals, List.foldl_append, List.foldl_cons]
    refine find?_foldl_of_forall_ne fun b hb heq => ?_
    exact hlater (List.mem_map.2 ⟨b, hb, heq⟩)

/-- Is a key in use, by a function or for a cluster? -/
def InUse (c : Clustering) (key : String) : Prop :=
  (∃ id, c.memberships.find? id = some key) ∨ ∃ k, c.clusters.find? key = some k

theorem Coherent.exists_of_inUse (h : c.Coherent) {key : String} (hkey : c.InUse key) :
    ∃ id, c.memberships.find? id = some key := by
  rcases hkey with hfunction | ⟨k, hk⟩
  · exact hfunction
  · exact ⟨_, (h.mem_ids_iff hk).1 (List.mem_map_of_mem (h.ordered key k hk).canonical_mem)⟩

theorem coherent_afterArrivals (threshold : Single) (count : Nat) (arrivals : List Arrival) :
    (afterArrivals threshold count arrivals).Coherent := by
  have hcalls : afterArrivals threshold count arrivals = afterCalls (arrivals.map (Arrival.call threshold count)) := by
    rw [afterArrivals, afterCalls, List.foldl_map]
    exact congrArg (fun step => arrivals.foldl step empty)
      (funext fun c => funext fun a => afterArrival_eq_apply threshold count c a)
  rw [hcalls]
  exact coherent_foldl _ coherent_empty

/-- What a clustering at the end of all arrivals has to do with one of them. -/
structure Accounted (threshold : Single) (count : Nat) (earlier : List Arrival) (a : Arrival) (c : Clustering) : Prop where
  /-- The key that the function has is the one that it got when it came. -/
  got : ∀ key, c.memberships.find? a.function.id = some key ↔
    ∃ c', (a.inPlace threshold count).run (afterArrivals threshold count earlier) = .ok key c'
  justified : ∀ key, c.memberships.find? a.function.id = some key → Justified threshold count earlier a key
  /-- If it got none, the index has failed, and nothing has changed. -/
  kept : ∀ error c', (a.inPlace threshold count).run (afterArrivals threshold count earlier) = .error error c' →
    a.neighbours threshold count = .error error ∧ c' = afterArrivals threshold count earlier

theorem accounted_of_nodup {later : List Arrival}
    (hdistinct : ((earlier ++ a :: later).map (·.function.id)).Nodup) :
    Accounted threshold count earlier a (afterArrivals threshold count (earlier ++ a :: later)) := by
  obtain ⟨hnone, hend⟩ := find?_afterArrivals_append hdistinct threshold count
  rcases run_inPlace_of_none hnone threshold count with
    ⟨found, hfound, hrun, hkey⟩ | ⟨error, hfailed, hrun, hkey⟩
  · have hhas : (afterArrivals threshold count (earlier ++ a :: later)).memberships.find? a.function.id =
        some found := hend.trans hkey
    constructor
    case got =>
      intro key
      rw [hhas, hrun]
      constructor
      · rintro ⟨⟩
        exact ⟨_, rfl⟩
      · rintro ⟨c', ⟨⟩⟩
        rfl
    case justified =>
      intro key hkey'
      rw [hhas] at hkey'
      cases hkey'
      exact justified_of_keyFor hnone hfound
    case kept =>
      intro error c' herror
      rw [hrun] at herror
      cases herror
  · have hhas : (afterArrivals threshold count (earlier ++ a :: later)).memberships.find? a.function.id = none :=
      hend.trans hkey
    constructor
    case got =>
      intro key
      rw [hhas, hrun]
      constructor
      · rintro ⟨⟩
      · rintro ⟨c', ⟨⟩⟩
    case justified =>
      intro key hkey'
      rw [hhas] at hkey'
      cases hkey'
    case kept =>
      intro error' c' herror
      rw [hrun] at herror
      cases herror
      exact ⟨(keyFor_eq_error hfailed).2, rfl⟩

/-- Functions of distinct identifiers arrive, and the index answers anything or fails.  Every key that a function has in the end is
justified, an arrival that fails changes nothing, and a semantic key that is in use is that of the keywords of a function that
has it. -/
theorem justified_afterArrivals (hdistinct : (arrivals.map (·.function.id)).Nodup) :
    (∀ earlier a later, arrivals = earlier ++ a :: later →
      Accounted threshold count earlier a (afterArrivals threshold count arrivals)) ∧
    ∀ rest, (afterArrivals threshold count arrivals).InUse ("sem:" ++ rest) →
      ∃ a ∈ arrivals, "sem:" ++ rest = semanticKey a.function.contextKeywords ∧
        (afterArrivals threshold count arrivals).memberships.find? a.function.id = some ("sem:" ++ rest) := by
  constructor
  · rintro earlier a later rfl
    exact accounted_of_nodup hdistinct
  · intro rest huse
    obtain ⟨id, hid⟩ := (coherent_afterArrivals threshold count arrivals).exists_of_inUse huse
    obtain ⟨a, ha, hhas, hkey⟩ := (traced_afterArrivals threshold count arrivals).exists_semantic hid
    exact ⟨a, ha, hkey, hhas⟩

namespace Sample

/-- An index that answers with a fixed list, or fails. -/
def answered (answer : Except StoreError (List String)) (f : FunctionRecord) : Arrival := ⟨fun _ _ _ => answer, f⟩

/-- Functions one of which takes the key of another that has taken it itself, while one gets none and one has no keywords. -/
def fiveArrivals : List Arrival := [
  answered (.ok ["z::load", "a::load"]) (atTop "a" "parse"),
  answered (.ok ["b::load", "a::load"]) (atTop "b" "parse json"),
  answered (.error .http) (atTop "c" "socket"),
  answered (.ok ["a::load"]) (atTop "d" ""),
  answered (.ok ["c::load", "b::load", "d::load"]) (atTop "e" "json")]

end Sample

/-- The last function has the key of the first one's keywords, and it is justified. -/
theorem justified_sampleArrivals :
    (Sample.fiveArrivals.map (·.function.id)).Nodup ∧
      (afterArrivals .one 3 Sample.fiveArrivals).memberships.find? "e::load" = some (semanticKey "parse") ∧
      Justified .one 3 (Sample.fiveArrivals.take 4)
        (Sample.answered (.ok ["c::load", "b::load", "d::load"]) (Sample.atTop "e" "json")) (semanticKey "parse") := by
  have hdistinct : (Sample.fiveArrivals.map (·.function.id)).Nodup := by decide
  have hkey : (afterArrivals .one 3 Sample.fiveArrivals).memberships.find? "e::load" = some (semanticKey "parse") := by
    decide +kernel
  exact ⟨hdistinct, hkey, ((justified_afterArrivals hdistinct).1 _ _ [] rfl).justified _ hkey⟩

end Consolidation.Clustering
