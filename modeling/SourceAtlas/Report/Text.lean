import SourceAtlas.Console
import SourceAtlas.Json.Printer
import SourceAtlas.Report.Json

/-!
Reports as text.

* `Report.page`: a report as a page for a terminal, in detail if wanted.
* `Format`: text or JSON. `Report.render`: a report in a format.
-/

namespace SourceAtlas

open Console

/-- Names with commas between them. After the first few of them, only the number of the others is
given. -/
def nameList (names : NameSet) (limit : Nat) : String :=
  if names.isEmpty then "None"
  else
    ", ".intercalate (names.toList.take limit) ++
      (if limit < names.size then " (and " ++ toString (names.size - limit) ++ " more)" else "")

/-- All names with commas between them. -/
def allNames (names : NameSet) : String := nameList names names.size

namespace Report

/-- The number of imports that are shown of a key file. -/
def keyFileImports : Nat := 5

/-- The number of imports that are shown of any other file. -/
def fileImports : Nat := 3

def summaryLines (r : Report) : Page :=
  [.header "Repository Guide",
    .plain (toString r.files.size ++ " analyzable files across " ++
      toString r.languageStats.length ++ " languages (" ++ toString r.totalFunctions ++
      " functions, " ++ toString r.totalClasses ++ " classes)")]

def languageLines (r : Report) : Page :=
  .heading "Languages" :: r.languageStats.map fun s =>
    .plain ("  " ++ s.language.displayName ++ ": " ++ toString s.count ++ " files (" ++
      toString s.functionTotal ++ " functions, " ++ toString s.classTotal ++ " classes)")

def structureLines (r : Report) : Page :=
  [.heading "Structure", .plain (Text.trimmedEnd r.treeView)]

def keyFileLines (key : KeyFile) (record : Record) : Page :=
  [.text [⟨.plain, "  "⟩, ⟨.bold, key.path⟩, ⟨.plain, " "⟩,
      ⟨.dim, "(score " ++ toString key.score.toNat ++ ")"⟩],
    .item "Language" record.language.displayName,
    .item "Lines" (toString record.metadata.lineCount),
    .item "Functions" (allNames record.metadata.functionNames),
    .item "Classes" (allNames record.metadata.classNames),
    .item "Imports" (nameList record.metadata.importNames keyFileImports)]

/-- The names of a kind, if there are any. -/
def nameLines (label : String) (names : NameSet) (limit : Nat) : Page :=
  if names.isEmpty then [] else [.item label (nameList names limit)]

def recordLines (record : Record) : Page :=
  let m := record.metadata
  .plain ("    " ++ record.path) ::
    match record.error with
    | some message => [.error message]
    | none =>
      .item "Size" (toString m.byteSize ++ " bytes (" ++ toString m.lineCount ++ " lines, " ++
          (record.strategy.map Strategy.text).getD "-" ++ ")") ::
        (nameLines "Functions" m.functionNames m.functionNames.size ++
          nameLines "Classes" m.classNames m.classNames.size ++
          nameLines "Dependencies" m.importNames fileImports)

def detailLines (r : Report) : Page :=
  .heading "Files by Language" :: r.filesByLanguage.flatMap fun group =>
    .text [⟨.plain, "  "⟩, ⟨.bold, group.1.displayName⟩] :: group.2.flatMap recordLines

def insightLines (r : Report) : Page :=
  if r.insights.isEmpty then []
  else .heading "Architecture Insights" :: r.insights.map fun text => .plain ("  - " ++ text)

/-- A report as a page. -/
def page (detailed : Bool) (r : Report) : Page :=
  r.summaryLines ++ r.languageLines ++ r.structureLines ++
    .heading "Key Files" :: r.keyFileRecords.flatMap (fun entry => keyFileLines entry.1 entry.2) ++
    (if detailed then r.detailLines else []) ++ r.insightLines

end Report

inductive Format where
  | text
  | json
deriving DecidableEq, Repr

/-- A report in a format. -/
def Report.render (format : Format) (detailed color : Bool) (r : Report) : String :=
  match format with
  | .text => Page.render color (r.page detailed)
  | .json => r.toJson.pretty

end SourceAtlas
