/-
# `Proofs.Embedding.Placement` — which vector is given for which text

A server may give its vectors with the places of their texts.  They are put in the order of the places, those of one place
in the order in which they were given (`PlacedInOrder`), and counted; the places themselves are not looked at.  So as many
vectors as texts are always taken (`ofReply_of_entriesIn?`), and each stands at its place exactly if the places are those
of the texts, each once (`PlacedInOrder.aligned_iff`).  Where a place is missing, another one is taken by two vectors or
lies outside, and texts get the vectors of others.

## What is proved

For every transport, all settings for this kind of server and every list of texts that is not empty: the vectors that are
given are those of the entries of the reply in the order of their places, and some are given if and only if the reply has
as many entries as there are texts.  They are `Aligned` with the texts if and only if the places are those of the texts,
in any order.  For no texts no vectors are given.

So the places are used for sorting and are trusted otherwise.  At the end a server gives one place to both vectors: they
are taken, although one of the two texts has no vector of its own.
-/
import Mathlib.Data.List.Nodup
import Mathlib.Data.List.Perm.Subperm
import Consolidation.Embedding.Embedder
import Consolidation.Proofs.Collection.Sorting

namespace Consolidation

namespace EmbeddingServer

open Consolidation.Json

/-! ## Entries in order -/

/-- Are entries some others in the order of their places, and those of one place in the order that they had? -/
structure PlacedInOrder (entries sorted : List PlacedVector) : Prop where
  perm : sorted.Perm entries
  ordered : sorted.Pairwise fun a b => a.place ≤ b.place
  stable : ∀ i, sorted.filter (·.place == i) = entries.filter (·.place == i)

/-- Is each place below `count` that of one entry, and does the vector of that entry stand there? -/
structure Aligned (entries : List PlacedVector) (count : Nat) (vectors : List Embedding) : Prop where
  length_eq : vectors.length = count
  once : ∀ i < count, (entries.map (·.place)).count i = 1
  placed : ∀ e ∈ entries, e.place < count → vectors[e.place]? = some e.vector

variable {entries sorted : List PlacedVector} {count : Nat} {vectors : List Embedding}

theorem placedInOrder_mergeSort (entries : List PlacedVector) :
    PlacedInOrder entries (entries.mergeSort fun a b => a.place ≤ b.place) where
  perm := List.mergeSort_perm _ _
  ordered := pairwise_mergeSort_key PlacedVector.place entries
  stable := filter_mergeSort_key PlacedVector.place entries

theorem PlacedInOrder.eq_mergeSort (h : PlacedInOrder entries sorted) :
    sorted = entries.mergeSort fun a b => a.place ≤ b.place :=
  eq_of_filter_key_eq h.ordered (placedInOrder_mergeSort entries).ordered fun i =>
    (h.stable i).trans ((placedInOrder_mergeSort entries).stable i).symm

theorem PlacedInOrder.place_eq (h : PlacedInOrder entries sorted)
    (hplaces : (entries.map (·.place)).Perm (List.range count)) : sorted.map (·.place) = List.range count :=
  ((h.perm.map _).trans hplaces).eq_of_pairwise (fun _ _ _ _ => Nat.le_antisymm) (List.pairwise_map.2 h.ordered)
    (List.pairwise_lt_range.imp Nat.le_of_lt)

theorem PlacedInOrder.aligned_iff (h : PlacedInOrder entries sorted) (hlength : entries.length = count) :
    Aligned entries count (sorted.map (·.vector)) ↔ (entries.map (·.place)).Perm (List.range count) := by
  constructor
  · intro haligned
    -- all places are taken, and there are no more entries than places
    have hsub : List.range count ⊆ entries.map (·.place) := by
      intro i hi
      have honce := haligned.once i (List.mem_range.1 hi)
      exact List.count_pos_iff.1 (by omega)
    have hle : (entries.map (·.place)).length ≤ (List.range count).length :=
      Nat.le_of_eq (by rw [List.length_map, List.length_range, hlength])
    exact ((List.subperm_of_subset List.nodup_range hsub).perm_of_length_le hle).symm
  · intro hplaces
    refine ⟨?length_eq, fun i hi => ?once, fun e he hlt => ?placed⟩
    case length_eq => rw [List.length_map, h.perm.length_eq, hlength]
    case once => rw [hplaces.count_eq, List.count_eq_one_of_mem List.nodup_range (List.mem_range.2 hi)]
    case placed =>
      obtain ⟨j, hj, rfl⟩ := List.getElem_of_mem (h.perm.symm.subset he)
      have hplace : (sorted.map (·.place))[j]? = some sorted[j].place := by
        rw [List.getElem?_map, List.getElem?_eq_getElem hj, Option.map_some]
      rw [h.place_eq hplaces] at hplace
      obtain ⟨hcount, hplace⟩ := List.getElem?_eq_some_iff.1 hplace
      rw [List.getElem_range] at hplace
      rw [← hplace, List.getElem?_map, List.getElem?_eq_getElem hj, Option.map_some]

/-! ## Answers -/

/-- The entries of an answer that gives places. -/
def entries? (j : Json) : Option (List PlacedVector) := do
  let r ← record? ["data"] j
  r.required "data" (asList? PlacedVector.ofJson?)

theorem ofAnswer?_openAi (body : List UInt8) : ofAnswer? .openAi body = ((ofBytes? body).bind entries?).map inOrder := by
  rw [Option.map_bind]
  refine congrArg (Option.bind _) (funext fun j => ?_)
  simp only [ofPlaced?, entries?, Function.comp_apply]
  cases record? ["data"] j <;> rfl

/-- The entries of a reply that gives places, if it says that all went well. -/
def entriesIn? : HttpReply → Option (List PlacedVector)
  | .answered status body => if Http.isSuccess status then (ofBytes? body).bind entries? else none
  | _ => none

variable {s : EmbeddingSettings} {texts : List String} {reply : HttpReply}

theorem ofReply_of_entriesIn? (hprovider : s.provider = .openAi) (hentries : entriesIn? reply = some entries) :
    ofReply s texts reply =
      if entries.length = texts.length then .ok (inOrder entries)
      else .error (.embedding ("Expected " ++ toString texts.length ++ " embeddings, got " ++ toString entries.length)) := by
  cases reply with
  | answered status body =>
    simp only [entriesIn?] at hentries
    split at hentries
    · next hsuccess =>
      have hanswer : ofAnswer? s.provider body = some (inOrder entries) := by
        rw [hprovider, ofAnswer?_openAi, hentries, Option.map_some]
      have hlength : (inOrder entries).length = entries.length := by
        rw [inOrder, List.length_map, List.length_mergeSort]
      simp only [ofReply, hsuccess, hanswer, hlength, Bool.not_true, Bool.false_eq_true, if_false, beq_iff_eq]
    · cases hentries
  | timedOut => cases hentries
  | notConnected => cases hentries
  | unsendable => cases hentries

theorem exists_error_of_entriesIn? (hprovider : s.provider = .openAi) (hentries : entriesIn? reply = none) :
    ∃ error, ofReply s texts reply = .error error := by
  cases reply with
  | answered status body =>
    simp only [entriesIn?] at hentries
    simp only [ofReply]
    split
    · exact ⟨_, rfl⟩
    · next hsuccess =>
      rw [if_pos (by simpa using hsuccess)] at hentries
      have hanswer : ofAnswer? s.provider body = none := by
        rw [hprovider, ofAnswer?_openAi, hentries, Option.map_none]
      rw [hanswer]
      exact ⟨_, rfl⟩
  | timedOut => exact ⟨_, rfl⟩
  | notConnected => exact ⟨_, rfl⟩
  | unsendable => exact ⟨_, rfl⟩

end EmbeddingServer

open EmbeddingServer

variable {s : EmbeddingSettings} {texts : List String}

theorem Embedder.embedBatch_remote (transport : Transport) (hne : texts ≠ []) :
    (remote transport s).embedBatch texts = ofReply s texts (Http.post transport (request s texts)) := by
  have hempty : texts.isEmpty = false := by simpa using hne
  simp only [remote, hempty, Bool.false_eq_true, if_false]

/-- **Vectors are counted, places are not.**  A server that gives places is believed exactly if it gives as many vectors as
there are texts.  They come in the order of their places, whatever these are; and they stand at their places, each
place of a text once among them, exactly if the places are those of the texts.  For no texts it is not asked. -/
theorem Embedder.embedBatch_placed (transport : Transport) (hprovider : s.provider = .openAi) (hne : texts ≠ []) :
    (remote transport s).embedBatch [] = .ok [] ∧
    (∀ vectors, (remote transport s).embedBatch texts = .ok vectors ↔
      ∃ entries sorted, entriesIn? (Http.post transport (request s texts)) = some entries ∧
        entries.length = texts.length ∧ PlacedInOrder entries sorted ∧ vectors = sorted.map (·.vector)) ∧
    ∀ entries vectors, entriesIn? (Http.post transport (request s texts)) = some entries →
      (remote transport s).embedBatch texts = .ok vectors →
        (Aligned entries texts.length vectors ↔ (entries.map (·.place)).Perm (List.range texts.length)) := by
  rw [embedBatch_remote transport hne]
  set reply := Http.post transport (request s texts)
  refine ⟨rfl, ?_, ?_⟩
  · intro vectors
    constructor
    · intro hvectors
      rcases hentries : entriesIn? reply with _ | entries
      · obtain ⟨error, herror⟩ := exists_error_of_entriesIn? hprovider hentries
        rw [herror] at hvectors
        cases hvectors
      · rw [ofReply_of_entriesIn? hprovider hentries] at hvectors
        split at hvectors
        · next hlength =>
          exact ⟨entries, _, rfl, hlength, placedInOrder_mergeSort entries, (Except.ok.inj hvectors).symm⟩
        · cases hvectors
    · rintro ⟨entries, sorted, hentries, hlength, hsorted, rfl⟩
      rw [ofReply_of_entriesIn? hprovider hentries, if_pos hlength, inOrder, hsorted.eq_mergeSort]
  · intro entries vectors hentries hvectors
    rw [ofReply_of_entriesIn? hprovider hentries] at hvectors
    split at hvectors
    · next hlength =>
      obtain rfl := Except.ok.inj hvectors
      exact (placedInOrder_mergeSort entries).aligned_iff hlength
    · cases hvectors

namespace Sample

/-- A server that gives two vectors, the first for one place and the second for another. -/
def placing (first second : Nat) : Transport := fun _ =>
  .answered 200 (Json.toBytes (.obj [("data", .arr [
    .obj [("embedding", .arr [.nat 1]), ("index", .nat first)],
    .obj [("embedding", .arr [.nat 2]), ("index", .nat second)]])]))

def placedSettings : EmbeddingSettings := { EmbeddingSettings.default with provider := .openAi }

theorem places_placing :
    (entriesIn? (Http.post (placing 0 0) (request placedSettings ["a", "b"]))).map (·.map (·.place)) = some [0, 0] ∧
    (entriesIn? (Http.post (placing 1 0) (request placedSettings ["a", "b"]))).map (·.map (·.place)) = some [1, 0] := by
  decide +kernel

end Sample

/-- Two vectors for the first text and none for the second are taken; vectors in the other order than the texts find their places. -/
theorem Embedder.embedBatch_placed_twice :
    (∃ entries vectors, entriesIn? (Http.post (Sample.placing 0 0) (request Sample.placedSettings ["a", "b"])) = some entries ∧
      (remote (Sample.placing 0 0) Sample.placedSettings).embedBatch ["a", "b"] = .ok vectors ∧ ¬Aligned entries 2 vectors) ∧
    ∃ entries vectors, entriesIn? (Http.post (Sample.placing 1 0) (request Sample.placedSettings ["a", "b"])) = some entries ∧
      (remote (Sample.placing 1 0) Sample.placedSettings).embedBatch ["a", "b"] = .ok vectors ∧ Aligned entries 2 vectors := by
  obtain ⟨hfirst, hsecond⟩ := Sample.places_placing
  obtain ⟨twice, htwice, htwicePlaces⟩ := Option.map_eq_some_iff.1 hfirst
  obtain ⟨swapped, hswapped, hswappedPlaces⟩ := Option.map_eq_some_iff.1 hsecond
  have hlength {entries : List PlacedVector} {i j : Nat} (h : entries.map (·.place) = [i, j]) : entries.length = 2 := by
    simpa using congrArg List.length h
  have hprovider : Sample.placedSettings.provider = .openAi := rfl
  have htexts : ["a", "b"] ≠ [] := by decide
  constructor
  · obtain ⟨-, htaken, haligned⟩ := embedBatch_placed (Sample.placing 0 0) hprovider htexts
    have hvectors := (htaken _).2 ⟨twice, _, htwice, hlength htwicePlaces, placedInOrder_mergeSort twice, rfl⟩
    refine ⟨twice, _, htwice, hvectors, fun h => ?_⟩
    have hperm := (haligned twice _ htwice hvectors).1 h
    rw [htwicePlaces] at hperm
    exact absurd hperm (by decide)
  · obtain ⟨-, htaken, haligned⟩ := embedBatch_placed (Sample.placing 1 0) hprovider htexts
    have hvectors := (htaken _).2 ⟨swapped, _, hswapped, hlength hswappedPlaces, placedInOrder_mergeSort swapped, rfl⟩
    refine ⟨swapped, _, hswapped, hvectors, (haligned swapped _ hswapped hvectors).2 ?_⟩
    rw [hswappedPlaces]
    decide

end Consolidation
