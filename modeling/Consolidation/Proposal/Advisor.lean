/-
# `Proposal.Advisor` — one common version for a cluster

An advisor asks its generator once for a cluster of several members, takes the code out of the answer and has it
formatted.  The result holds code, formatted or not, or one error.
-/
import Consolidation.Proposal.Formatter
import Consolidation.Proposal.Generator
import Consolidation.Proposal.Prompt

namespace Consolidation

/-- What came of a cluster. -/
structure ProposalResult where
  clusterKey : String
  consolidatedSource : Option String
  /-- Was the code formatted? -/
  linted : Bool
  errors : List String
  canonicalId : String
  memberCount : Nat
deriving DecidableEq, Repr

namespace ProposalResult

def failed (c : Cluster) (error : String) : ProposalResult :=
  ⟨c.key, none, false, [error], c.canonical.id, c.size⟩

def ofCode (c : Cluster) (code : String) (linted : Bool) : ProposalResult :=
  ⟨c.key, some code, linted, [], c.canonical.id, c.size⟩

def isSuccess (r : ProposalResult) : Bool := r.errors.isEmpty && r.consolidatedSource.isSome

end ProposalResult

/-- How an attempt at a proposal ends. -/
inductive Attempt where
  | finished (result : ProposalResult)
  /-- The generator broke down. -/
  | brokeDown (message : String)
deriving DecidableEq, Repr

structure Advisor where
  generator : Generator
  formatter : Formatter
  source : SourceReader

namespace Advisor

def prompt (a : Advisor) (c : Cluster) : String := Prompt.build a.source c

/-- What an answer comes to. -/
def resultOf (a : Advisor) (c : Cluster) (answer : String) : ProposalResult :=
  let code := String.ofList (stripFences answer.toList)
  if code.isEmpty then .failed c "generator returned no code"
  else
    let formatted := a.formatter code
    if formatted.success then .ofCode c formatted.output true else .ofCode c code false

/-- Asks for a common version of a cluster through `ask`, which takes a prompt to the generator. -/
def proposeVia {m : Type → Type} [Monad m] (ask : String → m GeneratorAnswer) (a : Advisor)
    (c : Cluster) : m Attempt :=
  if c.size < 2 then pure (.finished (.failed c "cluster has a single member"))
  else do
    match ← ask (a.prompt c) with
    | .text answer => pure (.finished (a.resultOf c answer))
    | .failed reason => pure (.finished (.failed c ("Generation failed: " ++ reason)))
    | .brokeDown message => pure (.brokeDown message)

/-- Asks for a common version of a cluster. -/
def propose (a : Advisor) (c : Cluster) : Attempt :=
  proposeVia (m := Id) a.generator.generate a c

/-- The prompts that a proposal sends to the generator, in order. -/
def promptsFor (a : Advisor) (c : Cluster) : List String :=
  let ask (prompt : String) : StateM (List String) GeneratorAnswer := do
    modify (· ++ [prompt])
    pure (a.generator.generate prompt)
  ((proposeVia ask a c).run []).2

end Advisor

end Consolidation
