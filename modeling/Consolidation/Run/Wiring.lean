/-
# `Run.Wiring` — a run as the settings say

The settings name the servers that are asked and the command that formats; transport and runner carry requests to
servers and run commands.
-/
import Consolidation.Run.Basic

namespace Consolidation

/-- What is outside a run: servers and programs. -/
structure Surroundings where
  transport : Transport
  runner : Runner

namespace Settings

def embedder (s : Settings) (outside : Surroundings) : Embedder := .ofSettings outside.transport s.embedding

def codeFormatter (s : Settings) (outside : Surroundings) : Formatter :=
  if s.formatter.enabled then .ofCommand outside.runner s.formatter.command s.formatter.timeout
  else .absent

def proposer (s : Settings) (outside : Surroundings) : Option Proposer :=
  if s.model.enabled then some ⟨.remote outside.transport s.model, s.codeFormatter outside⟩ else none

end Settings

namespace RunSetup

/-- The setup that settings ask for in a project. -/
def ofSettings (s : Settings) (outside : Surroundings) (folder : Files.Path) (root : String)
    (fresh : Bool) : RunSetup DocumentStore where
  folder := folder
  root := root
  settings := s
  index := .ofStore (s.embedder outside) (.ofText folder (s.indexPath root))
  proposer := s.proposer outside
  fresh := fresh

/-- The world in which such a run starts. -/
def openWorld (s : Settings) (outside : Surroundings) (folder : Files.Path) (root : String)
    (fresh : Bool) (files : Files.Entry) : World DocumentStore :=
  ⟨files, SimilarityIndex.storeAt (s.embedder outside) (.ofText folder (s.indexPath root)) fresh files⟩

/-- One run as the settings say. -/
def runWith (s : Settings) (outside : Surroundings) (folder : Files.Path) (root : String)
    (fresh : Bool) (files : Files.Entry) : Except RunFault (RunResult DocumentStore) :=
  (ofSettings s outside folder root fresh).run (openWorld s outside folder root fresh files)

end RunSetup

end Consolidation
