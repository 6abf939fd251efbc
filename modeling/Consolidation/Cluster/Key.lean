/-
# `Cluster.Key` — the keys of groups of functions

A structural key is made of what a function looks like: its name, the number of its
parameters, its complexity in steps of five and a fingerprint of its keywords.  A semantic key is
made of the keywords alone.
-/
import Consolidation.Digest.Sha256
import Consolidation.FunctionRecord

namespace Consolidation

/-- Complexity counts in steps of this size. -/
def complexityStep : Nat := 5

/-- Digits of the fingerprint in a structural key. -/
def structuralDigits : Nat := 8

/-- Digits of the fingerprint in a semantic key. -/
def semanticDigits : Nat := 16

/-- The key of functions that look alike. -/
def structuralKey (f : FunctionRecord) : String :=
  "struct:" ++ f.name ++ ":" ++ toString f.argCount ++ ":" ++
    toString (f.complexity / complexityStep) ++ ":" ++
    Digest.fingerprint f.contextKeywords structuralDigits

/-- The key of functions about the same things. -/
def semanticKey (contextKeywords : String) : String :=
  "sem:" ++ Digest.fingerprint contextKeywords semanticDigits

end Consolidation
