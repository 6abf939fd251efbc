/-
# `Proofs.Proposal.Advisor` — code or one error

A generator is asked once about a cluster of several members, and never about a single one, however it is asked
(`proposeVia_eq`).  What comes of its answer is code without errors or one error without code, with one exception: a
formatter may succeed and give nothing back, and then there is neither code nor an error (`propose_codeOrError`).

## What is proved

For every advisor and every cluster, if the generator does not break down over its prompt: the generator is asked once if
the cluster has two members or more, and not at all otherwise; there is a result; it holds code and no errors, or no code
and one error, if and only if the formatter does not give nothing back with success; it says that it was formatted only if
the formatter succeeded on the code in the answer, and then the code is what that gave back; and code that was not
formatted is the code in the answer.

The case in which the formatter gives nothing back is one in which it is told by its exit code that all went well.  What a
generator that breaks down leads to is told in `Proofs.Run.Workers`.
-/
import Consolidation.Proposal.Advisor

namespace Consolidation

namespace ProposalResult

/-- Does a result hold code and no errors, or no code and one error? -/
def CodeOrError (r : ProposalResult) : Prop :=
  (∃ code, r.consolidatedSource = some code ∧ code ≠ "" ∧ r.errors = []) ∨
    (r.consolidatedSource = none ∧ ∃ error, r.errors = [error])

theorem codeOrError_failed (c : Cluster) (error : String) : (failed c error).CodeOrError := .inr ⟨rfl, error, rfl⟩

theorem codeOrError_ofCode_iff {c : Cluster} {code : String} {linted : Bool} :
    (ofCode c code linted).CodeOrError ↔ code ≠ "" := by
  constructor
  · rintro (⟨code', hcode, hne, -⟩ | ⟨hnone, -⟩)
    · rwa [Option.some.inj hcode]
    · cases hnone
  · exact fun hne => .inl ⟨code, rfl, hne, rfl⟩

end ProposalResult

namespace Advisor

def codeIn (answer : String) : String := String.ofList (stripFences answer.toList)

def attemptOf (a : Advisor) (c : Cluster) : GeneratorAnswer → Attempt
  | .text answer => .finished (a.resultOf c answer)
  | .failed reason => .finished (.failed c ("Generation failed: " ++ reason))
  | .brokeDown message => .brokeDown message

/-- However a generator is asked, it is asked once, with the prompt for the cluster, or not at all. -/
theorem proposeVia_eq {m : Type → Type} [Monad m] [LawfulMonad m] (ask : String → m GeneratorAnswer) (a : Advisor)
    (c : Cluster) :
    proposeVia ask a c =
      if c.size < 2 then pure (.finished (.failed c "cluster has a single member"))
      else a.attemptOf c <$> ask (a.prompt c) := by
  rw [proposeVia, map_eq_pure_bind]
  congr 2
  funext answer
  cases answer <;> rfl

theorem propose_eq (a : Advisor) (c : Cluster) :
    a.propose c =
      if c.size < 2 then .finished (.failed c "cluster has a single member")
      else a.attemptOf c (a.generator.generate (a.prompt c)) :=
  proposeVia_eq (m := Id) a.generator.generate a c

theorem promptsFor_eq (a : Advisor) (c : Cluster) : a.promptsFor c = if c.size < 2 then [] else [a.prompt c] := by
  rw [promptsFor, proposeVia_eq]
  split <;> rfl

/-! ## What comes of an answer -/

section Answer

variable (a : Advisor) (c : Cluster) (answer : String)

/-- Does the formatter succeed on the code in an answer, and give nothing back? -/
def Empties : Prop :=
  codeIn answer ≠ "" ∧ (a.formatter (codeIn answer)).success = true ∧ (a.formatter (codeIn answer)).output = ""

/-- The ways in which an answer results in something. -/
inductive Results : ProposalResult → Prop
  | noCode (hcode : codeIn answer = "") : Results (.failed c "generator returned no code")
  | formatted (hcode : codeIn answer ≠ "") (h : (a.formatter (codeIn answer)).success = true) :
    Results (.ofCode c (a.formatter (codeIn answer)).output true)
  | kept (hcode : codeIn answer ≠ "") (h : (a.formatter (codeIn answer)).success = false) :
    Results (.ofCode c (codeIn answer) false)

theorem results_resultOf : a.Results c answer (a.resultOf c answer) := by
  rw [resultOf]
  change a.Results c answer (if (codeIn answer).isEmpty then _ else _)
  split
  · next hempty => exact .noCode (String.isEmpty_iff.1 hempty)
  · next hempty =>
    have hcode : codeIn answer ≠ "" := fun h => hempty (String.isEmpty_iff.2 h)
    simp only
    split
    · next h => exact .formatted hcode h
    · next h => exact .kept hcode (Bool.eq_false_iff.2 h)

variable {a c answer} {r : ProposalResult}

theorem Results.codeOrError_iff (h : a.Results c answer r) : r.CodeOrError ↔ ¬a.Empties answer := by
  cases h with
  | noCode hcode => exact iff_of_true (ProposalResult.codeOrError_failed c _) fun hempties => hempties.1 hcode
  | formatted hcode h =>
    rw [ProposalResult.codeOrError_ofCode_iff, Empties, and_iff_right hcode, and_iff_right h]
  | kept hcode h =>
    refine iff_of_true (ProposalResult.codeOrError_ofCode_iff.2 hcode) fun hempties => ?_
    rw [hempties.2.1] at h
    cases h

theorem Results.of_linted (h : a.Results c answer r) (hlinted : r.linted = true) :
    (a.formatter (codeIn answer)).success = true ∧ r.consolidatedSource = some (a.formatter (codeIn answer)).output := by
  cases h with
  | noCode => cases hlinted
  | formatted hcode h => exact ⟨h, rfl⟩
  | kept => cases hlinted

theorem Results.of_not_linted (h : a.Results c answer r) (hlinted : r.linted = false) {code : String}
    (hcode : r.consolidatedSource = some code) : code = codeIn answer := by
  cases h with
  | noCode => cases hcode
  | formatted => cases hlinted
  | kept => exact (Option.some.inj hcode).symm

end Answer

/-! ## What comes of a cluster -/

/-- Does the formatter give nothing back for the code that is proposed for a cluster? -/
def Emptied (a : Advisor) (c : Cluster) : Prop :=
  2 ≤ c.size ∧ ∃ answer, a.generator.generate (Prompt.build a.source c) = .text answer ∧ a.Empties answer

/-- **Code or one error.**  The generator is asked once about a cluster of several members, with the prompt for it, and never
about a single one.  If it does not break down, there is a result, with code and no errors, or with one error and no code,
if and only if the formatter does not give nothing back with success.  Code counts as formatted only if the formatter succeeded;
else it is what the fences enclose in the answer. -/
theorem propose_codeOrError (a : Advisor) (c : Cluster)
    (hanswer : ∀ message, a.generator.generate (Prompt.build a.source c) ≠ .brokeDown message) :
    a.promptsFor c = (if 2 ≤ c.size then [Prompt.build a.source c] else []) ∧
    ∃ r, a.propose c = .finished r ∧ (r.CodeOrError ↔ ¬a.Emptied c) ∧
      (r.linted = true → ∃ answer, a.generator.generate (Prompt.build a.source c) = .text answer ∧
        (a.formatter (String.ofList (stripFences answer.toList))).success = true ∧
        r.consolidatedSource = some (a.formatter (String.ofList (stripFences answer.toList))).output) ∧
      ∀ code, r.consolidatedSource = some code → r.linted = false →
        ∃ answer, a.generator.generate (Prompt.build a.source c) = .text answer ∧
          code = String.ofList (stripFences answer.toList) := by
  rw [promptsFor_eq, propose_eq]
  by_cases hsize : c.size < 2
  · rw [if_pos hsize, if_pos hsize, if_neg (by omega)]
    refine ⟨rfl, _, rfl, iff_of_true (ProposalResult.codeOrError_failed c _) ?_, fun h => ?_, fun _ h => ?_⟩
    · rintro ⟨hmany, -⟩
      omega
    · cases h
    · cases h
  · rw [if_neg hsize, if_neg hsize, if_pos (by omega)]
    refine ⟨rfl, ?_⟩
    rw [prompt]
    cases hgiven : a.generator.generate (Prompt.build a.source c) with
    | text answer =>
      have hresults := a.results_resultOf c answer
      have hemptied : a.Emptied c ↔ a.Empties answer := by
        rw [Emptied, and_iff_right (by omega), hgiven]
        exact ⟨fun ⟨_, heq, h⟩ => GeneratorAnswer.text.inj heq ▸ h, fun h => ⟨answer, rfl, h⟩⟩
      rw [hemptied]
      exact ⟨_, rfl, hresults.codeOrError_iff, fun h => ⟨answer, rfl, hresults.of_linted h⟩,
        fun code hcode hlinted => ⟨answer, rfl, hresults.of_not_linted hlinted hcode⟩⟩
    | failed reason =>
      refine ⟨_, rfl, iff_of_true (ProposalResult.codeOrError_failed c _) ?_, fun h => ?_, fun _ h => ?_⟩
      · rintro ⟨-, answer, heq, -⟩
        rw [hgiven] at heq
        cases heq
      · cases h
      · cases h
    | brokeDown message => exact absurd hgiven (hanswer message)

namespace Sample

def twice : Cluster :=
  let here : FunctionRecord := { (default : FunctionRecord) with id := "a.py::load", filePath := "a.py" }
  let there : FunctionRecord := { (default : FunctionRecord) with id := "b.py::load", filePath := "b.py" }
  ⟨"k", [here, there], here⟩

/-- An advisor whose formatter looks at the code and writes nothing, as one that only checks it does. -/
def checked : Advisor where
  generator := ⟨"scripted", fun _ => .text "\x60\x60\x60python\ndef load(p):\n    pass\n\x60\x60\x60"⟩
  formatter _ := ⟨"", true, none⟩
  source _ := none

end Sample

/-- With a formatter that writes nothing a proposal ends with neither code nor an error. -/
theorem propose_codeOrError_checked :
    (∀ message, Sample.checked.generator.generate (Prompt.build Sample.checked.source Sample.twice) ≠ .brokeDown message) ∧
      Sample.checked.promptsFor Sample.twice = [Prompt.build Sample.checked.source Sample.twice] ∧
      ∃ r, Sample.checked.propose Sample.twice = .finished r ∧ ¬r.CodeOrError := by
  have hanswer : ∀ message,
      Sample.checked.generator.generate (Prompt.build Sample.checked.source Sample.twice) ≠ .brokeDown message :=
    fun _ h => GeneratorAnswer.noConfusion h
  have hemptied : Sample.checked.Emptied Sample.twice := ⟨by decide, _, rfl, by decide, rfl, rfl⟩
  obtain ⟨hprompts, r, hr, hiff, -⟩ := propose_codeOrError Sample.checked Sample.twice hanswer
  exact ⟨hanswer, hprompts, r, hr, fun h => hiff.1 h hemptied⟩

end Advisor

end Consolidation
