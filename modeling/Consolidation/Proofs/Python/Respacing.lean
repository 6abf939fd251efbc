/-
# `Proofs.Python.Respacing` — the parameters of a header do not depend on its blanks

`Respaced` relates texts that differ in their blanks only: in how many stand in a place, in which ones, and behind a comma
also in whether there are any.  Headers that are related have the same parameters (`parameterNames_respaced`).

Every step in reading a header looks at characters that are no blanks and no commas, and so keeps the relation.  Where a
step gives up or stops, it does so on both sides; that is `Option.Rel`.  The groups of brackets vanish in rounds, and both
sides take equally many, because a round without effect is one that keeps all the characters but blanks
(`dropGroups_eq_self_iff`).

| step in reading a header | what is kept |
| :-- | :-- |
| a run of ink | the same run on both sides (`Respaced.span`) |
| emptying string literals | the relation, since quotes are ink |
| a round of dropping groups | the relation, and whether the round did anything (`dropGroups_eq_or_brackets_lt`) |
| splitting at commas | pieces that are related but for blanks at their fronts (`Respaced.splitOn`) |
| the name at the front of a piece | the same name, or none on both sides (`parameterName?_respaced`) |
-/
import Mathlib.Data.List.Forall2
import Mathlib.Data.List.TakeWhile
import Mathlib.Data.Option.Basic
import Consolidation.Proofs.Python.Tabs

namespace Consolidation.Python.Line

open Text

/-! ## The relation -/

def AllBlank (s : List Char) : Prop := ∀ c ∈ s, isBlank c = true

instance (s : List Char) : Decidable (AllBlank s) := inferInstanceAs (Decidable (∀ c ∈ s, isBlank c = true))

/-- Texts that differ only in their blanks. -/
inductive Respaced : List Char → List Char → Prop
  | nil : Respaced [] []
  | cons (c : Char) {s t : List Char} (h : Respaced s t) : Respaced (c :: s) (c :: t)
  | blanks {v w s t : List Char} (hv : AllBlank v) (hw : AllBlank w) (hv' : v ≠ []) (hw' : w ≠ [])
      (h : Respaced s t) : Respaced (v ++ s) (w ++ t)
  | comma {v w s t : List Char} (hv : AllBlank v) (hw : AllBlank w) (h : Respaced s t) :
      Respaced (',' :: (v ++ s)) (',' :: (w ++ t))

theorem Respaced.refl (s : List Char) : Respaced s s := by
  induction s with
  | nil => exact .nil
  | cons c s ih => exact .cons c ih

theorem Respaced.append_left {s t : List Char} (h : Respaced s t) (u : List Char) :
    Respaced (u ++ s) (u ++ t) := by
  induction u with
  | nil => exact h
  | cons c u ih => exact .cons c ih

/-- Does a class contain neither blanks nor commas? -/
def IsInk (p : Char → Bool) : Prop := ∀ c, p c = true → isBlank c = false ∧ c ≠ ','

section Steps

variable {s t : List Char}

/-! ## Runs of characters -/

theorem takeWhile_append_blanks {p : Char → Bool} (hp : IsInk p) {v : List Char} (hv : AllBlank v) (hne : v ≠ [])
    (s : List Char) : (v ++ s).takeWhile p = [] ∧ (v ++ s).dropWhile p = v ++ s := by
  cases v with
  | nil => exact absurd rfl hne
  | cons c v =>
    have hc : ¬p c = true := fun h => by
      have hblank := (hp c h).1
      rw [hv c List.mem_cons_self] at hblank
      cases hblank
    rw [List.cons_append, List.takeWhile_cons, List.dropWhile_cons, if_neg hc, if_neg hc]
    exact ⟨rfl, rfl⟩

theorem not_comma_of_isInk {p : Char → Bool} (hp : IsInk p) : ¬p ',' = true := fun h => (hp ',' h).2 rfl

/-- A run of characters that are no blanks and no commas is the same on both sides. -/
theorem Respaced.span {p : Char → Bool} (hp : IsInk p) (h : Respaced s t) :
    s.takeWhile p = t.takeWhile p ∧ Respaced (s.dropWhile p) (t.dropWhile p) := by
  induction h with
  | nil => exact ⟨rfl, .nil⟩
  | cons c h ih =>
    simp only [List.takeWhile_cons, List.dropWhile_cons]
    split
    · exact ⟨congrArg _ ih.1, ih.2⟩
    · exact ⟨rfl, .cons c h⟩
  | blanks hv hw hv' hw' h ih =>
    obtain ⟨htake, hdrop⟩ := takeWhile_append_blanks hp hv hv' _
    obtain ⟨htake', hdrop'⟩ := takeWhile_append_blanks hp hw hw' _
    rw [htake, hdrop, htake', hdrop']
    exact ⟨rfl, .blanks hv hw hv' hw' h⟩
  | comma hv hw h ih =>
    have hcomma := not_comma_of_isInk hp
    rw [List.takeWhile_cons_of_neg hcomma, List.takeWhile_cons_of_neg hcomma, List.dropWhile_cons_of_neg hcomma,
      List.dropWhile_cons_of_neg hcomma]
    exact ⟨rfl, .comma hv hw h⟩

theorem Respaced.takeWhile_not {p : Char → Bool} (hp : IsInk p) (h : Respaced s t) :
    Respaced (s.takeWhile (fun c => !p c)) (t.takeWhile (fun c => !p c)) := by
  have hblank {v : List Char} (hv : AllBlank v) (u : List Char) :
      (v ++ u).takeWhile (fun c => !p c) = v ++ u.takeWhile (fun c => !p c) := by
    refine List.takeWhile_append_of_pos fun c hc => ?_
    cases hpc : p c with
    | false => rfl
    | true =>
      have hnot := (hp c hpc).1
      rw [hv c hc] at hnot
      cases hnot
  induction h with
  | nil => exact .nil
  | cons c h ih =>
    simp only [List.takeWhile_cons]
    split
    · exact .cons c ih
    · exact .nil
  | blanks hv hw hv' hw' h ih =>
    rw [hblank hv, hblank hw]
    exact .blanks hv hw hv' hw' ih
  | comma hv hw h ih =>
    have hcomma : (!p ',') = true := by simpa using not_comma_of_isInk hp
    rw [List.takeWhile_cons, List.takeWhile_cons, if_pos hcomma, if_pos hcomma, hblank hv, hblank hw]
    exact .comma hv hw ih

theorem trimStart_append_blanks {v : List Char} (hv : AllBlank v) (s : List Char) :
    trimStart (v ++ s) = trimStart s :=
  List.dropWhile_append_of_pos hv

theorem Respaced.trimStart (h : Respaced s t) : Respaced (trimStart s) (trimStart t) := by
  induction h with
  | nil => exact .nil
  | cons c h ih =>
    simp only [Text.trimStart, List.dropWhile_cons]
    split
    · exact ih
    · exact .cons c h
  | blanks hv hw _ _ h ih =>
    rw [trimStart_append_blanks hv, trimStart_append_blanks hw]
    exact ih
  | comma hv hw h ih => exact .comma hv hw h

theorem Respaced.head?_eq (h : Respaced s t) {c : Char} (hc : isBlank c = false) :
    s.head? = some c ↔ t.head? = some c := by
  have hne {v u : List Char} (hv : AllBlank v) (hv' : v ≠ []) : (v ++ u).head? ≠ some c := by
    cases v with
    | nil => exact absurd rfl hv'
    | cons b v =>
      intro hb
      cases hb
      rw [hv c List.mem_cons_self] at hc
      cases hc
  cases h with
  | nil => exact Iff.rfl
  | cons d h => exact Iff.rfl
  | blanks hv hw hv' hw' h => exact iff_of_false (hne hv hv') (hne hw hw')
  | comma hv hw h => exact Iff.rfl

theorem not_blank_of_trimStart {c : Char} (h : (Text.trimStart s).head? = some c) : isBlank c = false := by
  obtain ⟨rest, hrest⟩ := List.head?_eq_some_iff.1 h
  have hnot := List.head?_dropWhile_not isBlank s
  rw [Text.trimStart] at hrest
  rw [hrest] at hnot
  exact hnot

theorem Respaced.head?_trimStart (h : Respaced (Text.trimStart s) (Text.trimStart t)) :
    (Text.trimStart s).head? = (Text.trimStart t).head? := by
  cases hs : (Text.trimStart s).head? with
  | some c => exact ((h.head?_eq (not_blank_of_trimStart hs)).1 hs).symm
  | none =>
    cases ht : (Text.trimStart t).head? with
    | none => rfl
    | some c =>
      rw [(h.head?_eq (not_blank_of_trimStart ht)).2 ht] at hs
      cases hs

/-! ## Strings -/

theorem afterQuote?_append {quote : Char} {v : List Char} (hv : quote ∉ v) (s : List Char) :
    afterQuote? quote (v ++ s) = afterQuote? quote s := by
  induction v with
  | nil => rfl
  | cons c v ih =>
    rw [List.mem_cons, not_or] at hv
    rw [List.cons_append, afterQuote?, if_neg (by simpa using Ne.symm hv.1), ih hv.2]

theorem not_mem_of_allBlank {c : Char} (hc : isBlank c = false) {v : List Char} (hv : AllBlank v) : c ∉ v :=
  fun h => by
    have hblank := hv c h
    rw [hc] at hblank
    cases hblank

theorem Respaced.afterQuote? {quote : Char} (hquote : isBlank quote = false) (hcomma : quote ≠ ',')
    (h : Respaced s t) : Option.Rel Respaced (afterQuote? quote s) (afterQuote? quote t) := by
  induction h with
  | nil => exact .none
  | cons c h ih =>
    rw [Line.afterQuote?, Line.afterQuote?]
    split
    · exact .some h
    · exact ih
  | blanks hv hw _ _ h ih =>
    rw [afterQuote?_append (not_mem_of_allBlank hquote hv), afterQuote?_append (not_mem_of_allBlank hquote hw)]
    exact ih
  | comma hv hw h ih =>
    have hne : ¬(',' == quote) = true := by simpa using hcomma.symm
    rw [Line.afterQuote?, Line.afterQuote?, if_neg hne, if_neg hne,
      afterQuote?_append (not_mem_of_allBlank hquote hv), afterQuote?_append (not_mem_of_allBlank hquote hw)]
    exact ih

/-- A text with its string literals made empty. -/
def emptied (s : List Char) : List Char := emptyStrings s.length s

theorem length_lt_of_afterQuote? {quote : Char} {rest : List Char} (h : Line.afterQuote? quote s = some rest) :
    rest.length < s.length := by
  induction s with
  | nil => cases h
  | cons c s ih =>
    rw [Line.afterQuote?] at h
    split at h
    · cases h
      exact Nat.lt_succ_self _
    · exact Nat.lt_succ_of_lt (ih h)

theorem emptyStrings_of_le {m n : Nat} (hm : s.length ≤ m) (hn : s.length ≤ n) :
    emptyStrings m s = emptyStrings n s := by
  induction m generalizing n s with
  | zero =>
    obtain rfl := List.length_eq_zero_iff.1 (Nat.le_zero.1 hm)
    cases n <;> rfl
  | succ m ih =>
    cases s with
    | nil => cases n <;> rfl
    | cons c s =>
      obtain ⟨n, rfl⟩ : ∃ k, n = k + 1 := ⟨n - 1, by rw [List.length_cons] at hn; omega⟩
      have hm' := Nat.le_of_succ_le_succ hm
      have hn' := Nat.le_of_succ_le_succ hn
      simp only [emptyStrings]
      split
      · next rest hrest =>
        have hlength : rest.length < s.length := by
          split at hrest
          · exact length_lt_of_afterQuote? hrest
          · cases hrest
        have hrest' : emptyStrings m rest = emptyStrings n rest := ih (by omega) (by omega)
        rw [hrest']
      · rw [ih hm' hn']

theorem emptied_cons (c : Char) (s : List Char) :
    emptied (c :: s) =
      match (if isQuote c then Line.afterQuote? c s else none) with
      | some rest => '"' :: '"' :: emptied rest
      | none => c :: emptied s := by
  rw [emptied, List.length_cons, emptyStrings]
  cases hrest : (if isQuote c then Line.afterQuote? c s else none) with
  | none => rfl
  | some rest =>
    have hlength : rest.length < s.length := by
      split at hrest
      · exact length_lt_of_afterQuote? hrest
      · cases hrest
    have hrest' : emptyStrings s.length rest = emptied rest :=
      emptyStrings_of_le (Nat.le_of_lt hlength) (Nat.le_refl _)
    simp only [hrest']

theorem emptied_cons_of_ne {c : Char} (hc : isQuote c = false) (s : List Char) :
    emptied (c :: s) = c :: emptied s := by
  rw [emptied_cons, hc, if_neg Bool.false_ne_true]

theorem isQuote_of_blank {c : Char} (hc : isBlank c = true) : isQuote c = false := by
  rw [isQuote, Bool.or_eq_false_iff, beq_eq_false_iff_ne, beq_eq_false_iff_ne]
  constructor
  · rintro rfl
    cases hc
  · rintro rfl
    cases hc

theorem emptied_append_blanks {v : List Char} (hv : AllBlank v) (s : List Char) :
    emptied (v ++ s) = v ++ emptied s := by
  induction v with
  | nil => rfl
  | cons c v ih =>
    obtain ⟨hc, hv⟩ := List.forall_mem_cons.1 hv
    rw [List.cons_append, emptied_cons_of_ne (isQuote_of_blank hc), ih hv, List.cons_append]

theorem quote_ink {c : Char} (hc : isQuote c = true) : isBlank c = false ∧ c ≠ ',' := by
  rw [isQuote, Bool.or_eq_true, beq_iff_eq, beq_iff_eq] at hc
  rcases hc with rfl | rfl
  · exact ⟨rfl, by decide⟩
  · exact ⟨rfl, by decide⟩

theorem Respaced.emptied (h : Respaced s t) : Respaced (emptied s) (emptied t) := by
  induction hn : s.length using Nat.strong_induction_on generalizing s t with
  | _ n ih =>
    subst hn
    cases h with
    | nil => exact .nil
    | @cons c s t h =>
      rw [emptied_cons, emptied_cons]
      cases hc : isQuote c with
      | false => exact .cons c (ih _ (Nat.lt_succ_self _) h rfl)
      | true =>
        have hrel := h.afterQuote? (quote_ink hc).1 (quote_ink hc).2
        simp only [if_true]
        cases hs : Line.afterQuote? c s with
        | none =>
          cases ht : Line.afterQuote? c t with
          | none => exact .cons c (ih _ (Nat.lt_succ_self _) h rfl)
          | some rest' =>
            rw [hs, ht] at hrel
            cases hrel
        | some rest =>
          cases ht : Line.afterQuote? c t with
          | none =>
            rw [hs, ht] at hrel
            cases hrel
          | some rest' =>
            rw [hs, ht] at hrel
            have hlength := Nat.lt_succ_of_lt (length_lt_of_afterQuote? hs)
            exact .cons '"' (.cons '"' (ih _ hlength (Option.rel_some_some.1 hrel) rfl))
    | @blanks v w s t hv hw hv' hw' h =>
      rw [emptied_append_blanks hv, emptied_append_blanks hw]
      refine .blanks hv hw hv' hw' (ih _ ?_ h rfl)
      have := List.length_pos_iff.2 hv'
      rw [List.length_append]
      omega
    | @comma v w s t hv hw h =>
      rw [emptied_cons_of_ne rfl, emptied_cons_of_ne rfl, emptied_append_blanks hv, emptied_append_blanks hw]
      refine .comma hv hw (ih _ ?_ h rfl)
      rw [List.length_cons, List.length_append]
      omega

/-! ## Groups of brackets -/

theorem isBracket_of_closer? {c close : Char} (h : closer? c = some close) :
    isBracket c = true ∧ isBracket close = true := by
  unfold closer? at h
  split at h
  · next hc =>
    obtain rfl := beq_iff_eq.1 hc
    cases h
    exact ⟨rfl, rfl⟩
  · split at h
    · next hc =>
      obtain rfl := beq_iff_eq.1 hc
      cases h
      exact ⟨rfl, rfl⟩
    · split at h
      · next hc =>
        obtain rfl := beq_iff_eq.1 hc
        cases h
        exact ⟨rfl, rfl⟩
      · cases h

theorem bracket_ink : IsInk isBracket := by
  intro c hc
  have hall : ∀ d ∈ ['(', ')', '[', ']', '\x7b', '\x7d'], isBlank d = false ∧ d ≠ ',' := by decide
  exact hall c (List.contains_iff_mem.1 hc)

theorem closer?_of_blank {c : Char} (hc : isBlank c = true) : closer? c = none := by
  cases h : closer? c with
  | none => rfl
  | some close =>
    have hblank := (bracket_ink c (isBracket_of_closer? h).1).1
    rw [hc] at hblank
    cases hblank

theorem afterGroup?_append_blanks {close : Char} (hclose : isBracket close = true) {v : List Char} (hv : AllBlank v)
    (s : List Char) : afterGroup? close (v ++ s) = afterGroup? close s := by
  induction v with
  | nil => rfl
  | cons c v ih =>
    obtain ⟨hc, hv⟩ := List.forall_mem_cons.1 hv
    have hbracket : isBracket c = false := by
      cases h : isBracket c with
      | false => rfl
      | true =>
        rw [(bracket_ink c h).1] at hc
        cases hc
    have hne : ¬(c == close) = true := by
      rw [beq_iff_eq]
      rintro rfl
      rw [hclose] at hbracket
      cases hbracket
    rw [List.cons_append, afterGroup?, if_neg hne, hbracket, if_neg Bool.false_ne_true, ih hv]

theorem Respaced.afterGroup? {close : Char} (hclose : isBracket close = true) (h : Respaced s t) :
    Option.Rel Respaced (afterGroup? close s) (afterGroup? close t) := by
  induction h with
  | nil => exact .none
  | cons c h ih =>
    rw [Line.afterGroup?, Line.afterGroup?]
    split
    · exact .some h
    · split
      · exact .none
      · exact ih
  | blanks hv hw _ _ h ih =>
    rw [afterGroup?_append_blanks hclose hv, afterGroup?_append_blanks hclose hw]
    exact ih
  | comma hv hw h ih =>
    have hne : ¬(',' == close) = true := by
      rw [beq_iff_eq]
      exact Ne.symm (bracket_ink close hclose).2
    have hbracket : ¬isBracket ',' = true := by decide
    rw [Line.afterGroup?, Line.afterGroup?, if_neg hne, if_neg hne, if_neg hbracket, if_neg hbracket,
      afterGroup?_append_blanks hclose hv, afterGroup?_append_blanks hclose hw]
    exact ih

theorem dropGroups_cons_of_none {c : Char} (h : dropGroup? (c :: s) = none) :
    dropGroups (c :: s) = c :: dropGroups s := by
  rw [dropGroups]
  split
  · next heq =>
    rw [h] at heq
    cases heq
  · rfl

theorem dropGroups_cons_of_some {c : Char} {rest : List Char} (h : dropGroup? (c :: s) = some rest) :
    dropGroups (c :: s) = dropGroups rest := by
  rw [dropGroups]
  split
  · next rest' heq =>
    rw [h] at heq
    cases heq
    rfl
  · next heq =>
    rw [h] at heq
    cases heq

theorem dropGroup?_of_closer?_none {c : Char} (h : closer? c = none) (s : List Char) :
    dropGroup? (c :: s) = none := by
  rw [dropGroup?, h]
  rfl

theorem dropGroups_append_blanks {v : List Char} (hv : AllBlank v) (s : List Char) :
    dropGroups (v ++ s) = v ++ dropGroups s := by
  induction v with
  | nil => rfl
  | cons c v ih =>
    obtain ⟨hc, hv⟩ := List.forall_mem_cons.1 hv
    rw [List.cons_append, dropGroups_cons_of_none (dropGroup?_of_closer?_none (closer?_of_blank hc) _), ih hv,
      List.cons_append]

theorem Respaced.dropGroups (h : Respaced s t) : Respaced (dropGroups s) (dropGroups t) := by
  induction hn : s.length using Nat.strong_induction_on generalizing s t with
  | _ n ih =>
    subst hn
    cases h with
    | nil =>
      rw [Line.dropGroups]
      exact .nil
    | @cons c s t h =>
      cases hclose : closer? c with
      | none =>
        rw [dropGroups_cons_of_none (dropGroup?_of_closer?_none hclose s),
          dropGroups_cons_of_none (dropGroup?_of_closer?_none hclose t)]
        exact .cons c (ih _ (Nat.lt_succ_self _) h rfl)
      | some close =>
        have hgroup (u : List Char) : dropGroup? (c :: u) = Line.afterGroup? close u := by
          rw [dropGroup?, hclose]
          rfl
        have hrel := h.afterGroup? (isBracket_of_closer? hclose).2
        cases hs : Line.afterGroup? close s with
        | none =>
          cases ht : Line.afterGroup? close t with
          | none =>
            rw [dropGroups_cons_of_none ((hgroup s).trans hs), dropGroups_cons_of_none ((hgroup t).trans ht)]
            exact .cons c (ih _ (Nat.lt_succ_self _) h rfl)
          | some rest' =>
            rw [hs, ht] at hrel
            cases hrel
        | some rest =>
          cases ht : Line.afterGroup? close t with
          | none =>
            rw [hs, ht] at hrel
            cases hrel
          | some rest' =>
            rw [hs, ht] at hrel
            rw [dropGroups_cons_of_some ((hgroup s).trans hs), dropGroups_cons_of_some ((hgroup t).trans ht)]
            exact ih _ (Nat.lt_succ_of_lt (length_afterGroup? hs)) (Option.rel_some_some.1 hrel) rfl
    | @blanks v w s t hv hw hv' hw' h =>
      rw [dropGroups_append_blanks hv, dropGroups_append_blanks hw]
      refine .blanks hv hw hv' hw' (ih _ ?_ h rfl)
      have := List.length_pos_iff.2 hv'
      rw [List.length_append]
      omega
    | @comma v w s t hv hw h =>
      rw [dropGroups_cons_of_none (dropGroup?_of_closer?_none rfl _),
        dropGroups_cons_of_none (dropGroup?_of_closer?_none rfl _), dropGroups_append_blanks hv,
        dropGroups_append_blanks hw]
      refine .comma hv hw (ih _ ?_ h rfl)
      rw [List.length_cons, List.length_append]
      omega

def brackets (s : List Char) : Nat := s.countP isBracket

theorem brackets_of_allBlank {v : List Char} (hv : AllBlank v) : brackets v = 0 := by
  rw [brackets, List.countP_eq_zero]
  intro c hc hbracket
  have hblank := (bracket_ink c hbracket).1
  rw [hv c hc] at hblank
  cases hblank

theorem brackets_append (u v : List Char) : brackets (u ++ v) = brackets u + brackets v :=
  List.countP_append

theorem brackets_cons (c : Char) (u : List Char) : brackets (c :: u) = brackets u + if isBracket c then 1 else 0 :=
  List.countP_cons

theorem Respaced.brackets_eq (h : Respaced s t) : brackets s = brackets t := by
  induction h with
  | nil => rfl
  | cons c h ih => rw [brackets_cons, brackets_cons, ih]
  | blanks hv hw _ _ h ih =>
    rw [brackets_append, brackets_append, brackets_of_allBlank hv, brackets_of_allBlank hw, ih]
  | comma hv hw h ih =>
    rw [brackets_cons, brackets_cons, brackets_append, brackets_append, brackets_of_allBlank hv,
      brackets_of_allBlank hw, ih]

theorem brackets_afterGroup?_le {close : Char} {rest : List Char} (h : Line.afterGroup? close s = some rest) :
    brackets rest ≤ brackets s := by
  induction s with
  | nil => cases h
  | cons c s ih =>
    have hle : brackets s ≤ brackets (c :: s) := (List.sublist_cons_self c s).countP_le
    rw [Line.afterGroup?] at h
    split at h
    · cases h
      exact hle
    · split at h
      · cases h
      · exact Nat.le_trans (ih h) hle

/-- A round leaves the text alone or takes brackets from it. -/
theorem dropGroups_eq_or_brackets_lt (s : List Char) :
    Line.dropGroups s = s ∨ brackets (Line.dropGroups s) < brackets s := by
  fun_induction Line.dropGroups s with
  | case1 => exact .inl rfl
  | case2 c rest rest' h hlt ih =>
    obtain ⟨close, hclose, hrest⟩ := Option.bind_eq_some_iff.1 h
    have hcons : brackets (c :: rest) = brackets rest + 1 :=
      List.countP_cons_of_pos (isBracket_of_closer? hclose).1
    have hle := brackets_afterGroup?_le hrest
    right
    rcases ih with ih | ih
    · rw [ih]
      omega
    · omega
  | case3 c rest h ih =>
    rcases ih with ih | ih
    · exact .inl (congrArg _ ih)
    · right
      rw [brackets_cons, brackets_cons]
      exact Nat.add_lt_add_right ih _

/-- A round has no effect exactly if it leaves all brackets. -/
theorem dropGroups_eq_self_iff : Line.dropGroups s = s ↔ brackets (Line.dropGroups s) = brackets s := by
  constructor
  · intro h
    rw [h]
  · intro h
    exact (dropGroups_eq_or_brackets_lt s).resolve_right (by omega)

theorem Respaced.flattenGroups (h : Respaced s t) : Respaced (flattenGroups s) (flattenGroups t) := by
  fun_induction Line.flattenGroups s generalizing t with
  | case1 s hs =>
    have ht : Line.dropGroups t = t := by
      rw [dropGroups_eq_self_iff] at hs ⊢
      rw [← h.dropGroups.brackets_eq, hs, h.brackets_eq]
    rw [Line.flattenGroups, dif_pos ht]
    exact h
  | case2 s hs hlt ih =>
    have ht : ¬Line.dropGroups t = t := by
      rw [dropGroups_eq_self_iff] at hs ⊢
      rw [← h.dropGroups.brackets_eq, ← h.brackets_eq]
      exact hs
    have hflat : Line.flattenGroups t = Line.flattenGroups (Line.dropGroups t) := by
      rw [Line.flattenGroups, dif_neg ht]
    rw [hflat]
    exact ih h.dropGroups

/-! ## Pieces -/

theorem splitOn_cons (sep c : Char) (s : List Char) :
    ∃ piece later, splitOn sep s = piece :: later ∧
      splitOn sep (c :: s) = if c = sep then [] :: piece :: later else (c :: piece) :: later := by
  have hne : ∃ piece later, splitOn sep s = piece :: later := by
    cases s with
    | nil => exact ⟨[], [], rfl⟩
    | cons d s =>
      rw [splitOn, splitWhere]
      split
      · exact ⟨_, _, rfl⟩
      · split
        · exact ⟨_, _, rfl⟩
        · exact ⟨_, _, rfl⟩
  obtain ⟨piece, later, hsplit⟩ := hne
  refine ⟨piece, later, hsplit, ?_⟩
  rw [splitOn] at hsplit
  rw [splitOn, splitWhere, hsplit]
  simp only [decide_eq_true_eq]

theorem splitOn_append {sep : Char} {v piece : List Char} {later : List (List Char)} (hv : sep ∉ v) {s : List Char}
    (h : splitOn sep s = piece :: later) : splitOn sep (v ++ s) = (v ++ piece) :: later := by
  induction v with
  | nil => exact h
  | cons c v ih =>
    rw [List.mem_cons, not_or] at hv
    obtain ⟨piece', later', hsplit, hcons⟩ := splitOn_cons sep c (v ++ s)
    rw [ih hv.2] at hsplit
    cases hsplit
    rw [List.cons_append, hcons, if_neg (Ne.symm hv.1)]
    rfl

theorem Respaced.splitOn (h : Respaced s t) :
    ∃ p ps q qs, splitOn ',' s = p :: ps ∧ splitOn ',' t = q :: qs ∧ Respaced p q ∧
      List.Forall₂ (fun a b => Respaced (Text.trimStart a) (Text.trimStart b)) ps qs := by
  have hcomma : isBlank ',' = false := rfl
  induction h with
  | nil => exact ⟨[], [], [], [], rfl, rfl, .nil, .nil⟩
  | @cons c s t h ih =>
    obtain ⟨p, ps, q, qs, hp, hq, hrel, hrels⟩ := ih
    obtain ⟨_, _, hs, hcs⟩ := splitOn_cons ',' c s
    obtain ⟨_, _, ht, hct⟩ := splitOn_cons ',' c t
    rw [hp] at hs
    rw [hq] at ht
    cases hs
    cases ht
    rw [hcs, hct]
    split
    · exact ⟨[], p :: ps, [], q :: qs, rfl, rfl, .nil, .cons hrel.trimStart hrels⟩
    · exact ⟨c :: p, ps, c :: q, qs, rfl, rfl, .cons c hrel, hrels⟩
  | @blanks v w s t hv hw hv' hw' h ih =>
    obtain ⟨p, ps, q, qs, hp, hq, hrel, hrels⟩ := ih
    exact ⟨v ++ p, ps, w ++ q, qs, splitOn_append (not_mem_of_allBlank hcomma hv) hp,
      splitOn_append (not_mem_of_allBlank hcomma hw) hq, .blanks hv hw hv' hw' hrel, hrels⟩
  | @comma v w s t hv hw h ih =>
    obtain ⟨p, ps, q, qs, hp, hq, hrel, hrels⟩ := ih
    obtain ⟨_, _, hs, hcs⟩ := splitOn_cons ',' ',' (v ++ s)
    obtain ⟨_, _, ht, hct⟩ := splitOn_cons ',' ',' (w ++ t)
    rw [splitOn_append (not_mem_of_allBlank hcomma hv) hp] at hs
    rw [splitOn_append (not_mem_of_allBlank hcomma hw) hq] at ht
    cases hs
    cases ht
    refine ⟨[], (v ++ p) :: ps, [], (w ++ q) :: qs, hcs, hct, .nil, .cons ?_ hrels⟩
    rw [trimStart_append_blanks hv, trimStart_append_blanks hw]
    exact hrel.trimStart

/-! ## Names -/

def blankCodes : List Nat :=
  [0x9, 0xA, 0xB, 0xC, 0xD, 0x20, 0x85, 0xA0, 0x1680, 0x2000, 0x2001, 0x2002, 0x2003, 0x2004, 0x2005, 0x2006, 0x2007,
    0x2008, 0x2009, 0x200A, 0x2028, 0x2029, 0x202F, 0x205F, 0x3000]

theorem toNat_mem_blankCodes {c : Char} (hc : isBlank c = true) : c.toNat ∈ blankCodes := by
  simp only [isBlank, Bool.or_eq_true, Bool.and_eq_true, decide_eq_true_eq, beq_iff_eq] at hc
  simp only [blankCodes, List.mem_cons, List.not_mem_nil, or_false]
  omega

theorem not_word_comma : isWordChar ',' = false := by decide +kernel

theorem word_ink : IsInk isWordChar := by
  intro c hc
  constructor
  · by_contra hblank
    have hall : ∀ n ∈ blankCodes, isWordChar (Char.ofNat n) = false := by decide +kernel
    have hword := hall _ (toNat_mem_blankCodes (by simpa using hblank))
    rw [Char.ofNat_toNat, hc] at hword
    cases hword
  · rintro rfl
    rw [not_word_comma] at hc
    cases hc

theorem leadingName?_cons (c : Char) (s : List Char) :
    leadingName? (c :: s) = if isWordChar c && !isDecimalDigit c then
      some ((c :: s).takeWhile isWordChar, (c :: s).dropWhile isWordChar) else none :=
  rfl

theorem leadingName?_of_not_word {c : Char} (hc : isWordChar c = false) (s : List Char) :
    leadingName? (c :: s) = none := by
  rw [leadingName?_cons, hc, Bool.false_and, if_neg Bool.false_ne_true]

theorem Respaced.leadingName? (h : Respaced s t) :
    Option.Rel (fun found found' => found.1 = found'.1 ∧ Respaced found.2 found'.2) (leadingName? s)
      (leadingName? t) := by
  have hblank {v : List Char} (hv : AllBlank v) (hv' : v ≠ []) (u : List Char) :
      Line.leadingName? (v ++ u) = none := by
    cases v with
    | nil => exact absurd rfl hv'
    | cons c v =>
      refine leadingName?_of_not_word ?_ (v ++ u)
      cases hc : isWordChar c with
      | false => rfl
      | true =>
        have hnot := (word_ink c hc).1
        rw [hv c List.mem_cons_self] at hnot
        cases hnot
  obtain ⟨htake, hdrop⟩ := h.span word_ink
  cases h with
  | nil => exact .none
  | cons c h =>
    rw [leadingName?_cons, leadingName?_cons, htake]
    revert hdrop
    generalize List.dropWhile isWordChar _ = rest, List.dropWhile isWordChar _ = rest',
      List.takeWhile isWordChar _ = name
    intro hdrop
    cases isWordChar c && !isDecimalDigit c with
    | true => exact .some ⟨rfl, hdrop⟩
    | false => exact .none
  | blanks hv hw hv' hw' h =>
    rw [hblank hv hv', hblank hw hw']
    exact .none
  | comma hv hw h =>
    rw [leadingName?_of_not_word not_word_comma, leadingName?_of_not_word not_word_comma]
    exact .none

theorem star_ink : IsInk (· == '*') := by
  intro c hc
  obtain rfl := beq_iff_eq.1 hc
  exact ⟨rfl, by decide⟩

theorem Respaced.drop_stars (h : Respaced s t) {n : Nat} (hn : n ≤ (s.takeWhile (· == '*')).length) :
    Respaced (s.drop n) (t.drop n) := by
  obtain ⟨htake, hdrop⟩ := h.span star_ink
  have hs := List.takeWhile_append_dropWhile (p := (· == '*')) (l := s)
  have ht := List.takeWhile_append_dropWhile (p := (· == '*')) (l := t)
  rw [← hs, ← ht, ← htake, List.drop_append_of_le_length hn, List.drop_append_of_le_length hn]
  exact hdrop.append_left _

theorem parameterName?_eq (piece : List Char) :
    parameterName? piece =
      let start := trimStart piece
      (leadingName? (trimStart (start.drop ((start.takeWhile (· == '*')).take 2).length))).bind fun found =>
        match trimStart found.2 with
        | [] => some found.1
        | c :: _ => if c == ':' || c == '=' then some found.1 else none :=
  rfl

theorem parameterName?_respaced {p q : List Char} (h : Respaced (trimStart p) (trimStart q)) :
    parameterName? p = parameterName? q := by
  rw [parameterName?_eq, parameterName?_eq]
  have hstars := (h.span star_ink).1
  simp only [← hstars]
  have hle : (((trimStart p).takeWhile (· == '*')).take 2).length ≤ ((trimStart p).takeWhile (· == '*')).length :=
    List.length_take_le' ..
  have hrel := (h.drop_stars hle).trimStart.leadingName?
  revert hrel
  generalize Line.leadingName? _ = found, Line.leadingName? _ = found'
  intro hrel
  cases hrel with
  | none => rfl
  | some hrel =>
    obtain ⟨hname, hrest⟩ := hrel
    have hfront := hrest.trimStart.head?_trimStart
    simp only [Option.bind_some, hname]
    split
    · next hnil =>
      rw [hnil, List.head?_nil, eq_comm, List.head?_eq_none_iff] at hfront
      rw [hfront]
    · next c behind hcons =>
      rw [hcons, List.head?_cons, eq_comm, List.head?_eq_some_iff] at hfront
      obtain ⟨behind', hcons'⟩ := hfront
      rw [hcons']

/-! ## Headers -/

theorem Respaced.stripStart? {p : List Char} (hp : ∀ c ∈ p, isBlank c = false ∧ c ≠ ',') (h : Respaced s t) :
    Option.Rel Respaced (stripStart? p s) (stripStart? p t) := by
  induction p generalizing s t with
  | nil => exact .some h
  | cons q p ih =>
    obtain ⟨⟨hq, hcomma⟩, hp⟩ := List.forall_mem_cons.1 hp
    have hblank {v : List Char} (hv : AllBlank v) (hv' : v ≠ []) (u : List Char) :
        Text.stripStart? (q :: p) (v ++ u) = none := by
      cases v with
      | nil => exact absurd rfl hv'
      | cons c v =>
        refine if_neg ?_
        rintro rfl
        rw [hv q List.mem_cons_self] at hq
        cases hq
    cases h with
    | nil => exact .none
    | cons c h =>
      rw [Text.stripStart?, Text.stripStart?]
      split
      · exact ih hp h
      · exact .none
    | blanks hv hw hv' hw' h =>
      rw [hblank hv hv', hblank hw hw']
      exact .none
    | comma hv hw h =>
      rw [Text.stripStart?, Text.stripStart?, if_neg hcomma, if_neg hcomma]
      exact .none

theorem dropBlanks?_cons (c : Char) (s : List Char) :
    Line.dropBlanks? (c :: s) = if isBlank c then some (Text.trimStart (c :: s)) else none :=
  rfl

theorem Respaced.dropBlanks? (h : Respaced s t) : Option.Rel Respaced (dropBlanks? s) (dropBlanks? t) := by
  have hblank {v : List Char} (hv : AllBlank v) (hv' : v ≠ []) (u : List Char) :
      Line.dropBlanks? (v ++ u) = some (Text.trimStart u) := by
    cases v with
    | nil => exact absurd rfl hv'
    | cons c v =>
      rw [List.cons_append, dropBlanks?_cons, if_pos (hv c List.mem_cons_self), ← List.cons_append,
        trimStart_append_blanks hv]
  have htrim := h.trimStart
  cases h with
  | nil => exact .none
  | cons c h =>
    rw [dropBlanks?_cons, dropBlanks?_cons]
    by_cases hc : isBlank c = true
    · rw [if_pos hc, if_pos hc]
      exact .some htrim
    · rw [if_neg hc, if_neg hc]
      exact .none
  | blanks hv hw hv' hw' h =>
    rw [hblank hv hv', hblank hw hw']
    exact .some h.trimStart
  | comma hv hw h => exact .none

theorem Respaced.afterAsync (h : Respaced s t) : Respaced (afterAsync s) (afterAsync t) := by
  have hword : ∀ c ∈ "async".toList, isBlank c = false ∧ c ≠ ',' := by decide
  have hstrip := h.stripStart? hword
  rw [Line.afterAsync, Line.afterAsync]
  revert hstrip
  generalize Text.stripStart? _ s = rest, Text.stripStart? _ t = rest'
  intro hstrip
  cases hstrip with
  | none => exact h
  | some hrest =>
    have hblanks := hrest.dropBlanks?
    simp only [Option.bind_some]
    revert hblanks
    generalize Line.dropBlanks? _ = after, Line.dropBlanks? _ = after'
    intro hblanks
    cases hblanks with
    | none => exact h
    | some hafter => exact hafter

theorem headerStart?_eq (line : Line) :
    headerStart? line =
      (stripStart? "def".toList (Line.afterAsync (line.dropWhile (fun c => c == ' ' || c == '\t')))).bind fun afterDef =>
        (Line.dropBlanks? afterDef).bind fun front => (Line.leadingName? front).bind fun found =>
          (stripStart? ['('] (trimStart found.2)).bind fun rest =>
            some ⟨(line.takeWhile (fun c => c == ' ' || c == '\t')).length, found.1, rest⟩ :=
  rfl

/-- What is read behind the indentation of a header. -/
theorem Respaced.headerStart? (h : Respaced s t) (hs : s.dropWhile (fun c => c == ' ' || c == '\t') = s)
    (ht : t.dropWhile (fun c => c == ' ' || c == '\t') = t) :
    Option.Rel (fun start start' => start.name = start'.name ∧ Respaced start.rest start'.rest)
      (headerStart? s) (headerStart? t) := by
  have hdef : ∀ c ∈ "def".toList, isBlank c = false ∧ c ≠ ',' := by decide
  have hopen : ∀ c ∈ ['('], isBlank c = false ∧ c ≠ ',' := by decide
  rw [headerStart?_eq, headerStart?_eq, hs, ht]
  have hafter := h.afterAsync.stripStart? hdef
  revert hafter
  generalize Text.stripStart? _ (Line.afterAsync s) = after, Text.stripStart? _ (Line.afterAsync t) = after'
  intro hafter
  cases hafter with
  | none => exact .none
  | some hafter =>
    have hblanks := hafter.dropBlanks?
    simp only [Option.bind_some]
    revert hblanks
    generalize Line.dropBlanks? _ = front, Line.dropBlanks? _ = front'
    intro hblanks
    cases hblanks with
    | none => exact .none
    | some hfront =>
      have hname := hfront.leadingName?
      simp only [Option.bind_some]
      revert hname
      generalize Line.leadingName? _ = found, Line.leadingName? _ = found'
      intro hname
      cases hname with
      | none => exact .none
      | some hfound =>
        obtain ⟨hname, hrest⟩ := hfound
        have hbracket := hrest.trimStart.stripStart? hopen
        simp only [Option.bind_some]
        revert hbracket
        generalize Text.stripStart? _ _ = rest, Text.stripStart? _ _ = rest'
        intro hbracket
        cases hbracket with
        | none => exact .none
        | some hrest => exact .some ⟨hname, hrest⟩

end Steps

/-- What stands behind the opening bracket decides the parameters. -/
def namesBehind (rest : List Char) : List (List Char) :=
  (splitOn ',' ((flattenGroups (emptied rest)).takeWhile (· != ')'))).filterMap parameterName?

theorem parameterNames_of_start {header : Line} {start : HeaderStart} (h : headerStart? header = some start) :
    parameterNames header = namesBehind start.rest := by
  rw [parameterNames, h]
  rfl

theorem close_ink : IsInk (· == ')') := by
  intro c hc
  obtain rfl := beq_iff_eq.1 hc
  exact ⟨rfl, by decide⟩

theorem namesBehind_respaced {s t : List Char} (h : Respaced s t) : namesBehind s = namesBehind t := by
  have hlist := h.emptied.flattenGroups.takeWhile_not close_ink
  obtain ⟨p, ps, q, qs, hs, ht, hfirst, hlater⟩ := hlist.splitOn
  have hbang : (fun c : Char => c != ')') = fun c => !(c == ')') := rfl
  rw [namesBehind, namesBehind, hbang, hs, ht]
  have hall : List.Forall₂ (fun a b => Respaced (trimStart a) (trimStart b)) (p :: ps) (q :: qs) :=
    .cons hfirst.trimStart hlater
  clear hs ht
  generalize p :: ps = pieces at hall ⊢
  generalize q :: qs = pieces' at hall ⊢
  induction hall with
  | nil => rfl
  | cons hpiece _ ih =>
    rw [List.filterMap_cons, List.filterMap_cons, parameterName?_respaced hpiece, ih]

/-- Blanks do not matter for the parameters of a header that has no indentation. -/
theorem parameterNames_respaced {s t : Line} (h : Respaced s t)
    (hs : s.dropWhile (fun c => c == ' ' || c == '\t') = s) (ht : t.dropWhile (fun c => c == ' ' || c == '\t') = t) :
    parameterNames s = parameterNames t := by
  have hstart := h.headerStart? hs ht
  cases hs' : Line.headerStart? s with
  | none =>
    cases ht' : Line.headerStart? t with
    | none => rw [parameterNames, parameterNames, hs', ht']
    | some start' =>
      rw [hs', ht'] at hstart
      cases hstart
  | some start =>
    cases ht' : Line.headerStart? t with
    | none =>
      rw [hs', ht'] at hstart
      cases hstart
    | some start' =>
      rw [hs', ht'] at hstart
      rw [parameterNames_of_start hs', parameterNames_of_start ht',
        namesBehind_respaced (Option.rel_some_some.1 hstart).2]

end Consolidation.Python.Line
