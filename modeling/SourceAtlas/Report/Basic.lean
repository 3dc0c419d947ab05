import SourceAtlas.DirectoryTree.View
import SourceAtlas.Report.Insight
import SourceAtlas.Report.Ranking
import SourceAtlas.Report.Stats

/-!
Reports on the files of a directory.

* `Report`: records, totals by language, key files, the tree of paths, its drawing, and remarks.
* `Report.ofRecords`: the report on a set of records.
* `Report.enterGroup`: one more record in the groups by language.
* `Report.filesByLanguage`, `Report.keyFileRecords`: views of a report.
-/

namespace SourceAtlas

structure Report where
  files : RecordSet
  languageStats : List LanguageStats
  keyFiles : List KeyFile
  tree : DirectoryTree
  treeView : String
  insights : List String

namespace Report

/-- The report on a set of records. -/
def ofRecords (settings : Settings) (files : RecordSet) : Report :=
  let paths := (files.toList.map Record.path).mergeSort fun a b => decide (a ≤ b)
  let tree := DirectoryTree.ofPaths paths
  { files := files
    languageStats := SourceAtlas.languageStats files
    keyFiles := SourceAtlas.keyFiles settings.scoring files
    tree := tree
    treeView := tree.render
    insights := (SourceAtlas.insights settings.insights files).map Insight.text }

def totalFunctions (r : Report) : Nat := totalOf LanguageStats.functionTotal r.languageStats

def totalClasses (r : Report) : Nat := totalOf LanguageStats.classTotal r.languageStats

/-- Puts a record at the end of the group of its language. A new group takes its place in the order
of the languages. -/
def enterGroup (record : Record) : List (Language × Array Record) → List (Language × Array Record)
  | [] => [(record.language, #[record])]
  | (language, group) :: rest =>
    if record.language = language then (language, group.push record) :: rest
    else if record.language.position < language.position then
      (record.language, #[record]) :: (language, group) :: rest
    else (language, group) :: enterGroup record rest

/-- The records of each language that occurs, in the order of the languages. -/
def filesByLanguage (r : Report) : List (Language × List Record) :=
  (r.files.toList.foldl (fun groups record => enterGroup record groups) []).map
    fun group => (group.1, group.2.toList)

/-- The key files with their records. -/
def keyFileRecords (r : Report) : List (KeyFile × Record) :=
  r.keyFiles.filterMap fun key => (r.files.find? key.path).map fun record => (key, record)

end Report

end SourceAtlas
