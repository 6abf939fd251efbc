/-
# `Settings.Check` — do settings make sense?

The check names the first thing that is wrong.
-/
import Consolidation.Settings.Basic
import Consolidation.Settings.Fault

namespace Consolidation.Settings

open Number

/-- Is a threshold one that a cosine of similar texts can have? -/
def isThreshold (x : Single) : Bool := Single.zero.le x && x.le Single.one

/-- Is a text nothing but blanks? -/
def isBlankText (text : String) : Bool := (Text.trim text.toList).isEmpty

/-- What is wrong, in the order in which it is looked for, each with whether it is. -/
def suspicions (s : Settings) : List (Bool × SettingsFault) := [
  (s.run.workers == 0, .noWorkers),
  (s.run.batchSize == 0, .noBatch),
  (!isThreshold s.clustering.threshold, .threshold s.clustering.threshold),
  (s.clustering.neighbours == 0, .noNeighbours),
  (s.scan.patterns.all isBlankText, .noPatterns),
  (s.scan.limit == some 0, .noFiles),
  (s.formatter.enabled && s.formatter.command.isEmpty, .noCommand)]

/-- The first thing that is wrong, if there is one. -/
def fault? (s : Settings) : Option SettingsFault := (s.suspicions.find? (·.1)).map (·.2)

end Consolidation.Settings
