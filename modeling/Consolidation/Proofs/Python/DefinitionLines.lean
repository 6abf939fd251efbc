/-
# `Proofs.Python.DefinitionLines` — the lines on which function definitions start

Each function definition in a tree starts where a logical line does, and no two at the same one (`pairwise_definedAt`);
and behind the end of a logical line a lower row is reached (`row_lt_of_lineEnd`).  So the definitions in a tree come in
the order of the lines on which they start, which are all different (`definitions_pairwise`), as those do that the line
scanner finds (`scanLines_pairwise`).

That two definitions do not start on one line holds for the grammar as it is: a decorated definition starts at its own
word and not at the decorator, and behind the colon of a header a second header may stand only on a line of its own.
-/
import Consolidation.Proofs.Python.Agreement

namespace Consolidation.Python

open Lexer Grammar

variable {source : List Char} {tree : Tree}

/-- Of two function definitions that were read where logical lines start the later one starts on a lower row. -/
theorem row_lt_of_definedAt {f g : Tree} {m n : Nat} (hf : DefinedAt (tokens source) f m)
    (hg : DefinedAt (tokens source) g n) (hlt : n < m) : f.extent.start.row < g.extent.start.row := by
  obtain ⟨_, _, s, _, ⟨before, hall, -⟩, rfl, hrun⟩ := hf
  obtain ⟨_, _, s₁, _, ⟨before₁, hall₁, hline⟩, rfl, hrun₁⟩ := hg
  obtain ⟨t, rest, hrest, hedge, hstart⟩ := exists_firstToken hrun
  obtain ⟨u, rest₁, hrest₁, hedge₁, hstart₁⟩ := exists_firstToken hrun₁
  obtain ⟨between, rfl, hbetween⟩ : ∃ between, before₁ = before ++ between ∧ s.rest = between ++ s₁.rest := by
    rcases List.append_eq_append_iff.1 (hall.symm.trans hall₁) with h | ⟨more, -, h⟩
    · exact h
    · rw [h, List.length_append] at hlt
      omega
  -- the logical line of the earlier definition ends right before the later one
  obtain ⟨mid, e, rfl, he⟩ : ∃ mid e, between = t :: (mid ++ [e]) ∧ IsLineEnd e := by
    cases between with
    | nil =>
      rw [hbetween] at hlt
      exact absurd hlt (Nat.lt_irrefl _)
    | cons b more =>
      obtain rfl : t = b := (List.cons.inj (hrest.symm.trans hbetween)).1
      rcases List.eq_nil_or_concat more with rfl | ⟨mid, e, rfl⟩
      · have houtside := edge_of_lineEnd (hline t List.getLast?_concat)
        rw [hedge] at houtside
        cases houtside
      · rw [List.concat_eq_append] at hline ⊢
        exact ⟨mid, e, rfl, hline e (by rw [← List.cons_append, ← List.append_assoc, List.getLast?_concat]; rfl)⟩
  have htokens : tokens source = before ++ t :: (mid ++ e :: u :: rest₁) := by
    rw [hall, hbetween, hrest₁]
    simp only [List.cons_append, List.append_assoc, List.nil_append]
  have htext {w : Token} (hw : w ∈ tokens source) (hinside : w.edge = .inside) : w.text ≠ "" :=
    (spelled_tokens source).text_ne hw (by rw [hinside]; exact Edge.noConfusion)
  have hspelled := spelled_tokens source
  rw [htokens] at hspelled
  rw [hstart, hstart₁]
  exact hspelled.row_lt_of_lineEnd (htext (by simp [htokens]) hedge) he (htext (by simp [htokens]) hedge₁)

/-- The definitions in a tree come in the order of the lines on which they start. -/
theorem definitions_pairwise (hparse : parse source = .ok tree) :
    (tree.definitions source).Pairwise (fun a b => a.firstLine < b.firstLine) := by
  refine (List.pairwise_filter.1 (pairwise_definedAt hparse)).filterMap _ ?_
  intro f g hpair a ha b hb
  obtain ⟨hkind, _, -, -, -, hfirst, -⟩ := Tree.definition?_eq_some ha
  obtain ⟨hkind', _, -, -, -, hfirst', -⟩ := Tree.definition?_eq_some hb
  obtain ⟨m, n, hf, hg, hlt⟩ := hpair (beq_iff_eq.2 hkind) (beq_iff_eq.2 hkind')
  rw [hfirst, hfirst']
  exact Nat.succ_lt_succ (row_lt_of_definedAt hf hg hlt)

theorem definitions_le (hparse : parse source = .ok tree) {d : Definition} (hd : d ∈ tree.definitions source) :
    d.firstLine ≤ (Text.lines source).length := by
  obtain ⟨f, hf, hd⟩ := List.mem_filterMap.1 hd
  obtain ⟨hkind, _, -, -, -, hfirst, -⟩ := Tree.definition?_eq_some hd
  obtain ⟨lead, behind, hsource, hne, hstart⟩ := exists_lead hparse hf hkind
  rw [hfirst, hstart, Place.row_after, show Place.start.row = 0 from rfl, Nat.zero_add]
  exact count_lt_length_lines hsource hne

end Consolidation.Python
