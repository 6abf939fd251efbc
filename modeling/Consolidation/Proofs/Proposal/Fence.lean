/-
# `Proofs.Proposal.Fence` — the code between fences

An answer that is trimmed still has its fences, and what stands between them changes by blanks at its end only
(`behind_trimEnd`, `trimEnd_upTo_trimEnd`).  So the code in an answer is what stands behind the line of its first fence
and before the next one, whatever stands around them (`stripFences_of_fence`).

The code holds no fence, so a report can quote it, and it is found again in what the report says of a proposal
(`stripFences_outcome`).

## What is proved

For all prose without a fence in it that does not end in a backtick, every name of a language, every code without a fence
and whatever follows: from an answer of these, with or without a closing fence, the code is taken, less the blanks at its
end.  And what is taken of any answer at all has no fence in it and is found again in a report.

A fence is three backticks in a row, so a single backtick next to one makes it start earlier; that is why the prose must
not end in one (`not_infix_fence_append`).  The code may end in backticks, since a line feed stands between it and its
closing fence.
-/
import Consolidation.Proofs.Python.TrimmedLines
import Consolidation.Proofs.Text.Lines
import Consolidation.Report.Markdown

namespace Consolidation

open Text Python.Line

/-! ## Before and behind a separator -/

section Parts

variable {sep s before : List Char}

theorem upTo_append (h : ¬sep <:+: before ++ sep.dropLast) (after : List Char) :
    upTo sep (before ++ (sep ++ after)) = before := by
  have hne : sep ≠ [] := fun hnil => h (hnil ▸ List.nil_infix)
  rw [upTo, (splitOnce?_eq_some_iff hne).2 ⟨rfl, h⟩]

theorem upTo_eq_self (h : ¬sep <:+: s) : upTo sep s = s := by
  have hne : sep ≠ [] := fun hnil => h (hnil ▸ List.nil_infix)
  rw [upTo, (splitOnce?_eq_none_iff hne).2 h]

theorem not_infix_upTo (hne : sep ≠ []) (s : List Char) : ¬sep <:+: upTo sep s := by
  rw [upTo]
  split
  · next hsplit => exact not_infix_of_splitOnce? hne hsplit
  · next hsplit => exact (splitOnce?_eq_none_iff hne).1 hsplit

theorem behind_newline (h : '\n' ∉ before) (after : List Char) : behind ['\n'] (before ++ '\n' :: after) = after := by
  have hnot : ¬['\n'] <:+: before ++ ['\n'].dropLast := fun hin => h (by simpa using hin.subset List.mem_cons_self)
  have hsplit : splitOnce? ['\n'] (before ++ '\n' :: after) = some (before, after) :=
    (splitOnce?_eq_some_iff (List.cons_ne_nil _ _)).2 ⟨rfl, hnot⟩
  rw [behind, hsplit]

theorem behind_eq_nil (h : '\n' ∉ s) : behind ['\n'] s = [] := by
  have hnot : ¬['\n'] <:+: s := fun hin => h (hin.subset List.mem_cons_self)
  rw [behind, (splitOnce?_eq_none_iff (List.cons_ne_nil _ _)).2 hnot]

end Parts

/-! ## Blanks at the end -/

section Trim

theorem trimEnd_append_of_eq_nil {t : List Char} (h : trimEnd t = []) (s : List Char) : trimEnd (s ++ t) = trimEnd s := by
  have hall : t.reverse.dropWhile isBlank = [] := by simpa [trimEnd, dropEndWhile] using h
  exact trimEnd_append_blanks (fun c hc => List.dropWhile_eq_nil_iff.1 hall c (List.mem_reverse.2 hc)) s

theorem trimEnd_append_of_ne_nil {t : List Char} (h : trimEnd t ≠ []) (s : List Char) :
    trimEnd (s ++ t) = s ++ trimEnd t := by
  have hsome : t.reverse.dropWhile isBlank ≠ [] := by simpa [trimEnd, dropEndWhile] using h
  rw [trimEnd, dropEndWhile, List.reverse_append, List.dropWhile_append, if_neg (by simpa using hsome), List.reverse_append,
    List.reverse_reverse]
  rfl

theorem trimEnd_trimEnd (s : List Char) : trimEnd (trimEnd s) = trimEnd s := by
  rw [trimEnd, trimEnd, dropEndWhile, dropEndWhile, List.reverse_reverse, List.dropWhile_idempotent]

/-- Blanks at the end of a text are blanks at the end of what stands behind its first line. -/
theorem behind_trimEnd (s : List Char) : behind ['\n'] (trimEnd s) = trimEnd (behind ['\n'] s) := by
  by_cases hnewline : '\n' ∈ s
  · obtain ⟨line, rest, rfl, hline⟩ := List.eq_append_cons_of_mem hnewline
    have hend : trimEnd ['\n'] = [] := rfl
    rw [behind_newline hline]
    by_cases hrest : trimEnd rest = []
    · have hblank : trimEnd ('\n' :: rest) = [] := by
        rw [← List.singleton_append, trimEnd_append_of_eq_nil hrest, hend]
      rw [trimEnd_append_of_eq_nil hblank, hrest]
      exact behind_eq_nil fun hin => hline ((trimEnd_isPrefix line).subset hin)
    · have hink : trimEnd ('\n' :: rest) = '\n' :: trimEnd rest := trimEnd_append_of_ne_nil hrest ['\n']
      rw [trimEnd_append_of_ne_nil (by rw [hink]; exact List.cons_ne_nil _ _), hink, behind_newline hline]
  · rw [behind_eq_nil hnewline, behind_eq_nil fun hin => hnewline ((trimEnd_isPrefix s).subset hin)]
    rfl

end Trim

/-! ## Fences -/

section Fences

variable {p w c s : List Char}

theorem fence_ne_nil : fence ≠ [] := List.cons_ne_nil _ _

theorem isBlank_backtick : isBlank '\x60' = false := by decide

/-- A fence runs into a text only from a backtick at its end. -/
theorem not_infix_fence_append (h : ¬fence <:+: s) (hlast : s.getLast? ≠ some '\x60') :
    ¬fence <:+: s ++ fence.dropLast := by
  have hend {a b : List Char} (heq : a ++ '\x60' :: b = s ++ b) : False := by
    rw [← List.singleton_append, ← List.append_assoc, List.append_cancel_right_eq] at heq
    exact hlast (heq ▸ List.getLast?_concat)
  intro hin
  have hback : s ++ fence.dropLast = s ++ ['\x60'] ++ ['\x60'] := by rw [List.append_assoc]; rfl
  rw [hback] at hin
  rcases List.infix_concat_iff.1 hin with ⟨a, ha⟩ | hin
  · exact hend (b := ['\x60', '\x60']) (by rwa [List.append_assoc] at ha)
  · rcases List.infix_concat_iff.1 hin with ⟨a, ha⟩ | hin
    · refine hend (a := a ++ ['\x60']) (b := ['\x60']) ?_
      rw [← ha, List.append_assoc]
      rfl
    · exact h hin

theorem not_infix_fence_concat {x : Char} (hx : x ≠ '\x60') (h : ¬fence <:+: s) : ¬fence <:+: s ++ [x] := by
  intro hin
  rcases List.infix_concat_iff.1 hin with ⟨a, ha⟩ | hin
  · have hsplit : a ++ fence.dropLast ++ ['\x60'] = s ++ [x] := by rwa [List.append_assoc]
    exact hx (List.cons.inj (List.append_inj' hsplit rfl).2).1.symm
  · exact h hin

theorem trimEnd_append_fence (s rest : List Char) : trimEnd (s ++ (fence ++ rest)) = s ++ (fence ++ trimEnd rest) := by
  have h := trimEnd_append_cons isBlank_backtick (s ++ fence.dropLast) rest
  rwa [List.append_assoc, List.append_assoc] at h

theorem trim_append_fence (s rest : List Char) : trim (s ++ (fence ++ rest)) = trimStart s ++ (fence ++ trimEnd rest) := by
  have hstart : trimStart (s ++ (fence ++ rest)) = trimStart s ++ (fence ++ rest) :=
    trimStart_append_cons isBlank_backtick s _
  rw [trim, hstart, trimEnd_append_fence]

/-- Blanks at the end of a text stand behind its first fence, or at the end of what stands before it. -/
theorem trimEnd_upTo_trimEnd (s : List Char) : trimEnd (upTo fence (trimEnd s)) = trimEnd (upTo fence s) := by
  cases hsplit : splitOnce? fence s with
  | none =>
    have hnot := (splitOnce?_eq_none_iff fence_ne_nil).1 hsplit
    rw [upTo_eq_self hnot, upTo_eq_self fun hin => hnot (hin.trans (trimEnd_isPrefix s).isInfix), trimEnd_trimEnd]
  | some parts =>
    obtain ⟨rfl, hnot⟩ := (splitOnce?_eq_some_iff fence_ne_nil).1 hsplit
    rw [trimEnd_append_fence, upTo_append hnot, upTo_append hnot]

/-- The code in an answer with a fence, whatever stands around it. -/
theorem stripFences_of_fence (h : ¬fence <:+: p ++ fence.dropLast) (rest : List Char) :
    stripFences (p ++ (fence ++ rest)) = trimEnd (upTo fence (behind ['\n'] rest)) := by
  have hpart : trimStart p ++ fence.dropLast <:+ p ++ fence.dropLast := by
    obtain ⟨front, hfront⟩ := List.dropWhile_suffix isBlank (l := p)
    exact ⟨front, by rw [← List.append_assoc, trimStart, hfront]⟩
  have hsplit : splitOnce? fence (trim (p ++ (fence ++ rest))) = some (trimStart p, trimEnd rest) :=
    (splitOnce?_eq_some_iff fence_ne_nil).2 ⟨trim_append_fence p rest, fun hin => h (hin.trans hpart.isInfix)⟩
  rw [stripFences]
  simp only [hsplit]
  rw [behind_trimEnd, trimEnd_upTo_trimEnd]

theorem not_infix_stripFences (s : List Char) : ¬fence <:+: stripFences s := by
  rw [stripFences]
  split
  · next hsplit => exact (splitOnce?_eq_none_iff fence_ne_nil).1 hsplit
  · exact fun hin => not_infix_upTo fence_ne_nil _ (hin.trans (trimEnd_isPrefix _).isInfix)

theorem trimEnd_stripFences (s : List Char) : trimEnd (stripFences s) = stripFences s := by
  rw [stripFences]
  split
  · exact (trimmed_trim s).trimEnd_eq
  · exact trimEnd_trimEnd _

/-- The code between two fences, or behind an opening fence that nothing closes. -/
theorem stripFences_append (h : ¬fence <:+: p ++ fence.dropLast) (hw : '\n' ∉ w) (hc : ¬fence <:+: c) (tail : List Char) :
    stripFences (p ++ (fence ++ (w ++ '\n' :: (c ++ '\n' :: (fence ++ tail))))) = trimEnd c ∧
      stripFences (p ++ (fence ++ (w ++ '\n' :: c))) = trimEnd c := by
  have hclose : upTo fence (c ++ '\n' :: (fence ++ tail)) = c ++ ['\n'] := by
    have hnot := not_infix_fence_append (not_infix_fence_concat (x := '\n') (by decide) hc)
      (by rw [List.getLast?_concat]; decide)
    have hupTo := upTo_append hnot tail
    rwa [List.append_assoc] at hupTo
  constructor
  · rw [stripFences_of_fence h, behind_newline hw, hclose]
    exact trimEnd_append_blanks (List.forall_mem_singleton.2 rfl) c
  · rw [stripFences_of_fence h, behind_newline hw, upTo_eq_self hc]

/-- How a report introduces the code of a proposal. -/
def codeLead (linted : Bool) : String := "Status: consolidated" ++ (if linted then "" else " (not linted)") ++ "\n\n"

theorem toList_outcome (cluster : Cluster) (code : String) (linted : Bool) :
    (Report.outcome (some (.ofCode cluster code linted))).toList = (codeLead linted).toList ++
      (fence ++ ("python".toList ++ '\n' :: (trimEnd code.toList ++ '\n' :: (fence ++ "\n\n".toList)))) := by
  have houtcome : Report.outcome (some (.ofCode cluster code linted)) =
      codeLead linted ++ (Report.fenceLine ++ "python\n" ++ mapText trimEnd code ++ "\n" ++ Report.fenceLine ++ "\n\n") :=
    rfl
  have hopening : "python\n".toList = "python".toList ++ ['\n'] := rfl
  have hnewline : "\n".toList = ['\n'] := rfl
  simp only [houtcome, String.toList_append, Report.fenceLine, mapText, String.toList_ofList, hopening, hnewline,
    List.append_assoc, List.cons_append, List.nil_append]

/-- Code without fences is found again in what a report says of it. -/
theorem stripFences_outcome {code : String} (h : ¬fence <:+: code.toList) (cluster : Cluster) (linted : Bool) :
    stripFences (Report.outcome (some (.ofCode cluster code linted))).toList = trimEnd code.toList := by
  have hlead : ¬fence <:+: (codeLead linted).toList ++ fence.dropLast := by
    rw [← occursIn_iff_isInfix, Bool.not_eq_true]
    cases linted <;> decide
  have hlanguage : '\n' ∉ "python".toList := by decide
  have hcode : ¬fence <:+: trimEnd code.toList := fun hin => h (hin.trans (trimEnd_isPrefix _).isInfix)
  rw [toList_outcome, (stripFences_append hlead hlanguage hcode _).1, trimEnd_trimEnd]

/-- **Fences come off exactly.**  From prose, a fence with the name of a language behind it, a line with the code and a closing
fence the code is taken, without blanks at its end and with those at its start, whatever follows; and so it is if nothing closes
the code.  What is taken out of any answer has no fence in it, so a report can quote it: it is found again there. -/
theorem stripFences_fenced {prose : List Char} (hprose : ¬fence <:+: prose) (hlast : prose.getLast? ≠ some '\x60')
    {language : List Char} (hlanguage : '\n' ∉ language) {code : List Char} (hcode : ¬fence <:+: code) (tail : List Char) :
    stripFences (prose ++ fence ++ language ++ ['\n'] ++ code ++ ['\n'] ++ fence ++ tail) = trimEnd code ∧
    stripFences (prose ++ fence ++ language ++ ['\n'] ++ code ++ ['\n']) = trimEnd code ∧
    stripFences (prose ++ fence ++ language ++ ['\n'] ++ code) = trimEnd code ∧
    ∀ answer, ¬fence <:+: stripFences answer ∧ ∀ (cluster : Cluster) (linted : Bool),
      stripFences (Report.outcome (some (.ofCode cluster (String.ofList (stripFences answer)) linted))).toList =
        stripFences answer := by
  have hopen := not_infix_fence_append hprose hlast
  have hnewline := not_infix_fence_concat (x := '\n') (by decide) hcode
  simp only [List.append_assoc, List.cons_append, List.nil_append]
  refine ⟨(stripFences_append hopen hlanguage hcode tail).1, ?_, (stripFences_append hopen hlanguage hcode tail).2,
    fun answer => ⟨not_infix_stripFences answer, fun cluster linted => ?_⟩⟩
  · rw [(stripFences_append hopen hlanguage hnewline tail).2]
    exact trimEnd_append_blanks (List.forall_mem_singleton.2 rfl) code
  · have hanswer : ¬fence <:+: (String.ofList (stripFences answer)).toList := by
      rw [String.toList_ofList]
      exact not_infix_stripFences answer
    rw [stripFences_outcome hanswer, String.toList_ofList, trimEnd_stripFences]

/-- Prose with single backticks, a fourth backtick on the opening fence, indented code that ends in backticks and blanks, and
more fences behind it. -/
theorem stripFences_fenced_crowded :
    stripFences "Use `f`:\n\x60\x60\x60\x60 py\n  g(`x`)``\n \n\x60\x60\x60\x60 or\n\x60\x60\x60\nh\n\x60\x60\x60".toList =
      "  g(`x`)``".toList ∧
    stripFences "Use `f`:\n\x60\x60\x60\x60 py\n  g(`x`)``\n ".toList = "  g(`x`)``".toList := by
  have hprose : ¬fence <:+: "Use `f`:\n".toList := by decide
  have hcode : ¬fence <:+: "  g(`x`)``\n ".toList := by decide
  have hlanguage : '\n' ∉ "\x60 py".toList := by decide
  have h := stripFences_fenced hprose (by decide) hlanguage hcode
    "\x60 or\n\x60\x60\x60\nh\n\x60\x60\x60".toList
  exact ⟨h.1, h.2.2.1⟩

end Fences

end Consolidation
