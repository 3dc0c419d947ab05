import SourceAtlas.DirectoryTree.Json
import SourceAtlas.Record.Json
import SourceAtlas.Report.Basic
import SourceAtlas.Settings.Json

/-!
Reports as JSON values. All fields are required; as in records, an array may hold them in their
fixed order.
-/

namespace SourceAtlas

open Json

namespace LanguageStats

def toJson (s : LanguageStats) : Json :=
  obj [("language", str s.language.id), ("count", natural s.count),
    ("function_total", natural s.functionTotal), ("class_total", natural s.classTotal)]

def fieldNames : List String := ["language", "count", "function_total", "class_total"]

def ofJson? (v : Json) : Option LanguageStats := do
  let v ← v.byPosition fieldNames
  return {
    language := ← v.required "language" Language.ofJson?
    count := ← v.required "count" nat?
    functionTotal := ← v.required "function_total" nat?
    classTotal := ← v.required "class_total" nat? }

end LanguageStats

namespace KeyFile

def toJson (k : KeyFile) : Json := obj [("path", str k.path), ("score", ofWord k.score)]

def fieldNames : List String := ["path", "score"]

def ofJson? (v : Json) : Option KeyFile := do
  let v ← v.byPosition fieldNames
  return { path := ← v.required "path" str?, score := ← v.required "score" word32? }

end KeyFile

namespace Report

def toJson (r : Report) : Json :=
  obj [("files", r.files.toJson),
    ("language_stats", arr (r.languageStats.map LanguageStats.toJson)),
    ("key_files", arr (r.keyFiles.map KeyFile.toJson)), ("tree", r.tree.toJson),
    ("tree_view", str r.treeView), ("insights", strings r.insights)]

def fieldNames : List String :=
  ["files", "language_stats", "key_files", "tree", "tree_view", "insights"]

def ofJson? (v : Json) : Option Report := do
  let v ← v.byPosition fieldNames
  return {
    files := ← v.required "files" RecordSet.ofJson?
    languageStats := ← v.required "language_stats" (listOf LanguageStats.ofJson?)
    keyFiles := ← v.required "key_files" (listOf KeyFile.ofJson?)
    tree := ← v.required "tree" DirectoryTree.ofJson?
    treeView := ← v.required "tree_view" str?
    insights := ← v.required "insights" texts? }

end Report

end SourceAtlas
