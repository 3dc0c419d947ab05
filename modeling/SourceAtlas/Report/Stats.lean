import SourceAtlas.Record.Set

/-!
Files, functions and classes by language.

* `totalOf`: the sum over a list. `LanguageStats`: the totals of one language.
* `languageStats`: the totals of all languages in a set of records, most files first.
-/

namespace SourceAtlas

/-- The sum of what `f` counts in each element of a list. -/
def totalOf {α : Type} (f : α → Nat) : List α → Nat
  | [] => 0
  | a :: rest => f a + totalOf f rest

structure LanguageStats where
  language : Language
  count : Nat
  functionTotal : Nat
  classTotal : Nat
deriving DecidableEq, Repr

namespace LanguageStats

def zero (language : Language) : LanguageStats := ⟨language, 0, 0, 0⟩

/-- Counts one more file. -/
def add (s : LanguageStats) (r : Record) : LanguageStats where
  language := s.language
  count := s.count + 1
  functionTotal := s.functionTotal + r.metadata.functionNames.size
  classTotal := s.classTotal + r.metadata.classNames.size

/-- Counts a record among the totals so far; a new language comes last. -/
def tally (r : Record) : List LanguageStats → List LanguageStats
  | [] => [(zero r.language).add r]
  | s :: rest => if s.language = r.language then s.add r :: rest else s :: tally r rest

end LanguageStats

/-- The totals of all languages, most files first. Languages with equally many files are in the
order in which they appear. -/
def languageStats (set : RecordSet) : List LanguageStats :=
  (set.toList.foldl (fun stats r => LanguageStats.tally r stats) []).mergeSort
    fun a b => decide (b.count ≤ a.count)

end SourceAtlas
