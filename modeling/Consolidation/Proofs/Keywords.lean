/-
# `Proofs.Keywords` — keywords are the words of the highest rank

A word ranks ahead of another if it occurs more often, or as often and comes first in the alphabet.  The keywords of a
text are the words of the highest rank, as many as are asked for or as there are, in alphabetical order (`TopRanked`).
What that says of a list of words decides it (`TopRanked.eq`), and it speaks of nothing but how often each word occurs.
So the order of the words in a text does not matter (`topWords_eq_of_perm`), and asking for more keywords keeps those that
were found before (`TopRanked.subset_of_le`).

That the keywords are such a list is read off the table of counts: it has each word once, with the number of its
occurrences (`exists_foldl_countWord`), so that its rows in the order of their ranks are the words in the order of theirs.

## What is proved

For every limit and every text: the keywords are the words of the highest rank with a space between each two; a list of
words is `TopRanked` if and only if it is the list of these words; with a larger limit no word is lost; and texts with the
same words in any order have the same keywords, so that functions which differ in nothing else have the same keys.

`TopRanked` speaks of the list of occurrences: the words in it ascend, they are as many as the limit or as there are
different ones, they occur, and each outranks all that occur and are not among them.
-/
import Mathlib.Data.Finset.Card
import Mathlib.Data.List.Induction
import Consolidation.Cluster.Key
import Consolidation.Keywords
import Consolidation.Proofs.Collection.Sorting

namespace Consolidation

namespace Keywords

open Text

/-! ## Ranks -/

/-- Does a word occur more often among others than a second one, or as often and comes first in the alphabet? -/
def Outranks (found : List String) (w v : String) : Prop :=
  found.count v < found.count w ∨ found.count w = found.count v ∧ w < v

instance (found : List String) (w v : String) : Decidable (Outranks found w v) := inferInstanceAs (Decidable (_ ∨ _))

/-- Are some words the `limit` different words of the highest rank, or all if there are fewer, in alphabetical order? -/
structure TopRanked (found : List String) (limit : Nat) (ws : List String) : Prop where
  increasing : ws.Pairwise (· < ·)
  length_eq : ws.length = min limit found.toFinset.card
  subset : ws ⊆ found
  outranks : ∀ w ∈ ws, ∀ v ∈ found, v ∉ ws → Outranks found w v

variable {found found' ws ws' : List String} {limit limit' : Nat} {w v : String}

theorem Outranks.asymm (h : Outranks found w v) : ¬Outranks found v w := by
  rintro (hlt | ⟨heq, hvw⟩)
  · rcases h with h | ⟨h, -⟩ <;> omega
  · rcases h with h | ⟨-, hwv⟩
    · omega
    · exact String.lt_irrefl w (String.lt_trans hwv hvw)

theorem TopRanked.nodup (h : TopRanked found limit ws) : ws.Nodup := h.increasing.imp String.ne_of_lt

/-- Whoever asks for more keywords gets those that were found before. -/
theorem TopRanked.subset_of_le (hlimit : limit ≤ limit') (h : TopRanked found limit ws) (h' : TopRanked found limit' ws') :
    ws ⊆ ws' := by
  intro w hw
  by_contra hw'
  -- some word is only in the longer list, and both words outrank one another
  obtain ⟨v, hv', hv⟩ : ∃ v ∈ ws', v ∉ ws := by
    by_contra! hall
    have hsub : (w :: ws') ⊆ ws := List.cons_subset.2 ⟨hw, hall⟩
    have hlength := (List.subperm_of_subset (List.nodup_cons.2 ⟨hw', h'.nodup⟩) hsub).length_le
    rw [List.length_cons, h.length_eq, h'.length_eq] at hlength
    omega
  exact (h.outranks w hw v (h'.subset hv') hv).asymm (h'.outranks v hv' w (h.subset hw) hw')

theorem TopRanked.eq (h : TopRanked found limit ws) (h' : TopRanked found limit ws') : ws = ws' := by
  have hmem : ∀ w, w ∈ ws ↔ w ∈ ws' := fun w =>
    ⟨fun hw => h.subset_of_le le_rfl h' hw, fun hw => h'.subset_of_le le_rfl h hw⟩
  refine ((List.perm_ext_iff_of_nodup h.nodup h'.nodup).2 hmem).eq_of_pairwise ?_ h.increasing h'.increasing
  intro a b _ _ hab hba
  exact absurd (String.lt_trans hab hba) (String.lt_irrefl a)

theorem TopRanked.of_perm (hperm : found.Perm found') (h : TopRanked found limit ws) : TopRanked found' limit ws where
  increasing := h.increasing
  length_eq := by rw [h.length_eq, List.toFinset_eq_of_perm _ _ hperm]
  subset := fun _ hw => hperm.subset (h.subset hw)
  outranks := by
    intro w hw v hv hvw
    have houtranks := h.outranks w hw v (hperm.mem_iff.2 hv) hvw
    rwa [Outranks, hperm.count_eq, hperm.count_eq] at houtranks

/-! ## Counts -/

theorem countWord_of_mem {ds : List String} (hds : ds.Nodup) (hw : w ∈ ds) (count : String → Nat) :
    countWord w (ds.map fun d => (d, count d)) = ds.map fun d => (d, if d = w then count d + 1 else count d) := by
  induction ds with
  | nil => cases hw
  | cons d ds ih =>
    obtain ⟨hd, hds⟩ := List.nodup_cons.1 hds
    rw [List.map_cons, List.map_cons, countWord]
    split
    · next heq =>
      -- the word is not in the rest, where nothing changes
      subst heq
      refine congrArg _ (List.map_congr_left fun e he => ?_)
      have hne : e ≠ d := fun heq => hd (heq ▸ he)
      rw [if_neg hne]
    · next hne => rw [ih hds ((List.mem_cons.1 hw).resolve_left (Ne.symm hne))]

theorem countWord_of_not_mem {ds : List String} (hw : w ∉ ds) (count : String → Nat) :
    countWord w (ds.map fun d => (d, count d)) = (ds.map fun d => (d, count d)) ++ [(w, 1)] := by
  induction ds with
  | nil => rfl
  | cons d ds ih =>
    rw [List.mem_cons, not_or] at hw
    rw [List.map_cons, countWord, if_neg (Ne.symm hw.1), ih hw.2, List.cons_append]

/-- The table of counts has each word once, with the number of its occurrences. -/
theorem exists_foldl_countWord (found : List String) :
    ∃ ds : List String, ds.Nodup ∧ (∀ w, w ∈ ds ↔ w ∈ found) ∧
      found.foldl (fun acc word => countWord word acc) [] = ds.map fun w => (w, found.count w) := by
  induction found using List.reverseRecOn with
  | nil => exact ⟨[], List.nodup_nil, fun _ => .rfl, rfl⟩
  | append_singleton found w ih =>
    obtain ⟨ds, hds, hmem, hfold⟩ := ih
    have hcount (d : String) : (found ++ [w]).count d = if d = w then found.count d + 1 else found.count d := by
      rw [List.count_append, List.count_singleton]
      by_cases hd : d = w
      · rw [if_pos hd, if_pos (beq_iff_eq.2 hd.symm)]
      · rw [if_neg hd, if_neg (by simpa using Ne.symm hd), Nat.add_zero]
    simp only [List.foldl_concat, hfold, hcount]
    by_cases hw : w ∈ ds
    · refine ⟨ds, hds, fun d => ?_, countWord_of_mem hds hw _⟩
      rw [List.mem_append, ← hmem d, List.mem_singleton]
      exact ⟨.inl, fun h => h.elim id fun heq => heq ▸ hw⟩
    · refine ⟨ds ++ [w], ?_, fun d => by rw [List.mem_append, List.mem_append, hmem d], ?_⟩
      · exact List.nodup_append.2 ⟨hds, List.nodup_singleton w, fun d hd e he heq =>
          hw (List.mem_singleton.1 he ▸ heq ▸ hd)⟩
      · have hzero : found.count w = 0 := List.count_eq_zero.2 fun hin => hw ((hmem w).2 hin)
        rw [countWord_of_not_mem hw, List.map_append, List.map_singleton, if_pos rfl, hzero]
        refine congrArg (· ++ _) (List.map_congr_left fun d hd => ?_)
        have hne : d ≠ w := fun heq => hw (heq ▸ hd)
        rw [if_neg hne]

/-! ## The words of the highest rank -/

theorem ranksBefore_iff {a b : String × Nat} : ranksBefore a b = true ↔ b.2 < a.2 ∨ a.2 = b.2 ∧ a.1 ≤ b.1 := by
  simp [ranksBefore]

theorem ranksBefore_trans (a b c : String × Nat) (hab : ranksBefore a b = true) (hbc : ranksBefore b c = true) :
    ranksBefore a c = true := by
  rw [ranksBefore_iff] at *
  rcases hab with hab | ⟨hab, hle⟩
  · left
    rcases hbc with hbc | ⟨hbc, -⟩ <;> omega
  · rcases hbc with hbc | ⟨hbc, hle'⟩
    · left
      omega
    · exact .inr ⟨hab.trans hbc, String.le_trans hle hle'⟩

theorem ranksBefore_total (a b : String × Nat) : (ranksBefore a b || ranksBefore b a) = true := by
  rw [Bool.or_eq_true, ranksBefore_iff, ranksBefore_iff]
  rcases Nat.lt_trichotomy a.2 b.2 with hlt | heq | hgt
  · exact .inr (.inl hlt)
  · rcases String.le_total a.1 b.1 with hle | hle
    · exact .inl (.inr ⟨heq, hle⟩)
    · exact .inr (.inr ⟨heq.symm, hle⟩)
  · exact .inl (.inl hgt)

/-- Of the rows of two different words the one that ranks before is that of the word that outranks the other. -/
theorem outranks_of_ranksBefore (hne : w ≠ v) (h : ranksBefore (w, found.count w) (v, found.count v) = true) :
    Outranks found w v := by
  rcases ranksBefore_iff.1 h with hlt | ⟨heq, hle⟩
  · exact .inl hlt
  · exact .inr ⟨heq, String.not_le.1 fun hge => hne (String.le_antisymm hle hge)⟩

/-- The words of the highest rank are the start of all words in the order of their ranks. -/
theorem topRanked_topWords (limit : Nat) (source : List Char) :
    TopRanked (occurrences source) limit (topWords limit source) := by
  obtain ⟨ds, hds, hmem, hcounts⟩ := exists_foldl_countWord (occurrences source)
  rw [topWords, counts, hcounts]
  generalize occurrences source = found at *
  set rows := ds.map fun w => (w, found.count w) with hrows
  set ranked := rows.mergeSort ranksBefore with hranked
  have hperm : ranked.Perm rows := List.mergeSort_perm _ _
  have hsorted : ranked.Pairwise fun a b => ranksBefore a b = true :=
    List.pairwise_mergeSort ranksBefore_trans ranksBefore_total _
  have hwords : (ranked.map (·.1)).Perm ds := by
    have hmap : rows.map (·.1) = ds := by simp [hrows, Function.comp_def]
    exact hmap ▸ hperm.map (·.1)
  have hnodup : (ranked.map (·.1)).Nodup := hwords.nodup_iff.2 hds
  have htop : (((ranked.take limit).map (·.1)).mergeSort (· ≤ ·)).Perm ((ranked.take limit).map (·.1)) :=
    List.mergeSort_perm _ _
  have hrow {a : String × Nat} (ha : a ∈ ranked) : a = (a.1, found.count a.1) := by
    obtain ⟨w, -, rfl⟩ := List.mem_map.1 (hperm.subset ha)
    rfl
  refine ⟨?increasing, ?length_eq, ?subset, ?outranks⟩
  case increasing =>
    have hle : (((ranked.take limit).map (·.1)).mergeSort (· ≤ ·)).Pairwise (· ≤ ·) := pairwise_mergeSort_key id _
    have hdiffer := htop.nodup_iff.2 (hnodup.sublist ((List.take_sublist limit ranked).map _))
    exact hle.imp₂ (fun a b hab hne => String.not_le.1 fun hba => hne (String.le_antisymm hab hba)) hdiffer
  case length_eq =>
    have hcard : found.toFinset.card = ds.length := by
      rw [← List.toFinset_card_of_nodup hds]
      exact congrArg _ (by ext w; simp [hmem])
    have hlength : ranked.length = ds.length := by simpa using hwords.length_eq
    rw [htop.length_eq, List.length_map, List.length_take, hcard, hlength]
  case subset =>
    intro w hw
    have hw : w ∈ ranked.map (·.1) := ((List.take_sublist limit ranked).map _).subset (htop.subset hw)
    exact (hmem w).1 (hwords.subset hw)
  case outranks =>
    intro w hw v hv hvtop
    obtain ⟨a, ha, rfl⟩ := List.mem_map.1 (htop.subset hw)
    obtain ⟨b, hb, rfl⟩ := List.mem_map.1 (hwords.symm.subset ((hmem v).2 hv))
    -- the second word is not at the start of the ranked words, so it stands behind it
    have hvtop : b.1 ∉ (ranked.take limit).map (·.1) := fun hin => hvtop (htop.symm.subset hin)
    have hbehind : b ∈ ranked.drop limit := by
      rw [← List.take_append_drop limit ranked, List.mem_append] at hb
      exact hb.resolve_left fun hin => hvtop (List.mem_map.2 ⟨b, hin, rfl⟩)
    have hbefore : ranksBefore a b = true := by
      rw [← List.take_append_drop limit ranked, List.pairwise_append] at hsorted
      exact hsorted.2.2 a ha b hbehind
    rw [hrow (List.mem_of_mem_take ha), hrow hb] at hbefore
    exact outranks_of_ranksBefore (fun heq => hvtop (List.mem_map.2 ⟨a, ha, heq⟩)) hbefore

theorem topRanked_iff {source : List Char} : TopRanked (occurrences source) limit ws ↔ ws = topWords limit source :=
  ⟨fun h => h.eq (topRanked_topWords limit source), fun h => h ▸ topRanked_topWords limit source⟩

theorem occurrences_perm {s t : List Char} (h : (words s).Perm (words t)) : (occurrences s).Perm (occurrences t) :=
  ((h.flatMap_right identifierParts).filter keep).map String.ofList

theorem topWords_eq_of_perm {s t : List Char} (h : (words s).Perm (words t)) (limit : Nat) :
    topWords limit s = topWords limit t :=
  topRanked_iff.1 ((topRanked_topWords limit s).of_perm (occurrences_perm h))

end Keywords

open Keywords

/-- **Keywords are the words of the highest rank.**  They are the words of the highest rank in alphabetical order, with a
space between each two, and no other list of words is that.  Whoever asks for more gets those found before.  Texts of the
same words, in whatever order, have the same keywords, and functions that differ in that order only have the same keys. -/
theorem KeywordPolicy.extract_topRanked (limit : Nat) (source : List Char) :
    (atMost limit).extract source = String.intercalate " " (topWords limit source) ∧
    (∀ ws, TopRanked (occurrences source) limit ws ↔ ws = topWords limit source) ∧
    (∀ limit', limit ≤ limit' → topWords limit source ⊆ topWords limit' source) ∧
    ∀ other, (Text.words source).Perm (Text.words other) →
      (atMost limit).extract source = (atMost limit).extract other ∧
      (∀ f : FunctionRecord, structuralKey { f with contextKeywords := (atMost limit).extract source } =
        structuralKey { f with contextKeywords := (atMost limit).extract other }) ∧
      semanticKey ((atMost limit).extract source) = semanticKey ((atMost limit).extract other) := by
  refine ⟨rfl, fun _ => topRanked_iff, fun limit' hlimit => ?_, fun other hwords => ?_⟩
  · exact (topRanked_topWords limit source).subset_of_le hlimit (topRanked_topWords limit' source)
  · have hextract : (atMost limit).extract source = (atMost limit).extract other :=
      congrArg (String.intercalate " ") (topWords_eq_of_perm hwords limit)
    exact ⟨hextract, fun f => by rw [hextract], by rw [hextract]⟩

/-- One text in two orders.  A part of an identifier counts like a word, and of the words that occur once the alphabet tells
which are kept. -/
theorem KeywordPolicy.extract_topRanked_reordered :
    (Text.words "def loadPath(path): return parse(path)".toList).Perm
      (Text.words "return path + loadPath def (parse, path)".toList) ∧
    (atMost 2).extract "def loadPath(path): return parse(path)".toList = "load path" ∧
    (atMost 2).extract "return path + loadPath def (parse, path)".toList = "load path" ∧
    topWords 1 "def loadPath(path): return parse(path)".toList ⊆ ["load", "path"] := by
  have hwords : (Text.words "def loadPath(path): return parse(path)".toList).Perm
      (Text.words "return path + loadPath def (parse, path)".toList) := by decide +kernel
  obtain ⟨hextract, htop, -, hperm⟩ := extract_topRanked 2 "def loadPath(path): return parse(path)".toList
  obtain ⟨-, -, hmore, -⟩ := extract_topRanked 1 "def loadPath(path): return parse(path)".toList
  have htwo : ["load", "path"] = topWords 2 "def loadPath(path): return parse(path)".toList :=
    (htop _).1 ⟨by decide, by decide +kernel, by decide +kernel, by decide +kernel⟩
  rw [← htwo] at hextract
  have hmore := hmore 2 (by decide)
  rw [← htwo] at hmore
  exact ⟨hwords, hextract, (hperm _ hwords).1.symm.trans hextract, hmore⟩

end Consolidation
