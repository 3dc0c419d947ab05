import SourceAtlas.Record.Set
import SourceAtlas.Settings.Basic
import SourceAtlas.Text.Lowercase
import SourceAtlas.Text.Part

/-!
Files by importance.

* `importance`: the score of a file. It grows with what the file declares, and never exceeds the
  largest word of 32 bits.
* `rank`: all files, the highest score first.
* `keyFiles`: the first few of them.
-/

namespace SourceAtlas

structure KeyFile where
  path : String
  score : UInt32
deriving DecidableEq, Repr

namespace Score

/-- The largest score. -/
def largest : Nat := UInt32.size - 1

/-- The score of a number, cut at the largest one. -/
def ofNat (n : Nat) : UInt32 := UInt32.ofNat (min n largest)

/-- The sum of two scores, cut at the largest one. -/
def add (a b : UInt32) : UInt32 := ofNat (a.toNat + b.toNat)

/-- So many times a weight, cut at the largest score. -/
def times (count : Nat) (weight : UInt32) : UInt32 := ofNat ((ofNat count).toNat * weight.toNat)

end Score

/-- The name of the file hints at the place where a program starts. -/
def isEntryPoint (settings : ScoringSettings) (r : Record) : Bool :=
  let name := (Text.lower r.fileName).toList
  settings.entryHints.any fun hint => Text.occursIn (Text.lower hint).toList name

/-- The file is neither too short nor too long. -/
def isInWindow (settings : ScoringSettings) (r : Record) : Bool :=
  settings.windowMin < r.metadata.lineCount && r.metadata.lineCount < settings.windowMax

/-- The score of a file. -/
def importance (settings : ScoringSettings) (r : Record) : UInt32 :=
  let entry := if isEntryPoint settings r then settings.entryBonus else 0
  let size := if isInWindow settings r then settings.sizeBonus else 0
  let functions := Score.times r.metadata.functionNames.size settings.functionWeight
  let classes := Score.times r.metadata.classNames.size settings.classWeight
  let imports := min (Score.times r.metadata.importNames.size settings.importWeight)
    settings.importCap
  Score.add (Score.add (Score.add (Score.add entry size) functions) classes) imports

/-- All files with their scores, the highest score first. Files with equal scores keep their
order. -/
def rank (settings : ScoringSettings) (set : RecordSet) : List KeyFile :=
  (set.toList.map fun r => (⟨r.path, importance settings r⟩ : KeyFile)).mergeSort
    fun a b => decide (b.score ≤ a.score)

/-- The files with the highest scores. -/
def keyFiles (settings : ScoringSettings) (set : RecordSet) : List KeyFile :=
  (rank settings set).take settings.keyFileLimit

end SourceAtlas
