import SourceAtlas.Language
import SourceAtlas.Ordered.NameSet

/-!
The settings of a run.

* `Settings`: what is walked, how a file is analysed, how files are ranked, and what is remarked on.
* `Settings.standard`: the settings of a run for which nothing is set.
* `AnalysisSettings.languageOf?`: the language of a file by its extension.
-/

namespace SourceAtlas

/-- Which parts of a directory are visited. -/
structure WalkSettings where
  /-- Directories of these names are not entered. -/
  excludedNames : NameSet
  /-- Whether files that an ignore file names are left out. -/
  respectIgnoreFiles : Bool
  followLinks : Bool
  /-- Whether files may be analysed side by side; the records are the same either way. -/
  parallel : Bool

structure InterpreterSettings where
  enabled : Bool
  command : String
  /-- How long a run may take. -/
  seconds : Nat

structure AnalysisSettings where
  /-- The language of each extension, which is written with its dot. -/
  extensions : Table Language
  interpreter : InterpreterSettings
  /-- The number of characters of a source line that a unit keeps. -/
  snippetWidth : Nat
  maxFileBytes : Nat
  maxTreeDepth : Nat

/-- The weights by which files are ranked. -/
structure ScoringSettings where
  /-- Parts of file names that mark the place where a program starts. -/
  entryHints : List String
  entryBonus : UInt32
  /-- The numbers of lines between which, both excluded, a file earns the size bonus. -/
  windowMin : Nat
  windowMax : Nat
  sizeBonus : UInt32
  functionWeight : UInt32
  classWeight : UInt32
  importWeight : UInt32
  /-- The most that imports may count. -/
  importCap : UInt32
  keyFileLimit : Nat

/-- The thresholds and words behind the remarks on a directory. -/
structure InsightSettings where
  manyLanguages : Nat
  classRatio : Float
  functionRatio : Float
  componentExtensions : List String
  statePathWords : List String
  stateImportWords : List String
  routingImportWords : List String
  servicePathWords : List String
  /-- A part of function names, in any case. -/
  serviceFunctionWord : String
  testPathWords : List String
  configFileWords : List String
  stylingWords : List String
  stylesheetExtensions : List String
  featurePathWords : List String

structure Settings where
  walk : WalkSettings
  analysis : AnalysisSettings
  scoring : ScoringSettings
  insights : InsightSettings

/-! ## what holds when nothing is set -/

def WalkSettings.standard : WalkSettings where
  excludedNames := .ofList [".git", "node_modules", "dist", "build", "__pycache__"]
  respectIgnoreFiles := false
  followLinks := false
  parallel := true

def InterpreterSettings.standard : InterpreterSettings where
  enabled := true
  command := "python3"
  seconds := 10

def AnalysisSettings.standard : AnalysisSettings where
  extensions := Language.extensionTable
  interpreter := .standard
  snippetWidth := 80
  maxFileBytes := 5 * 1024 * 1024
  maxTreeDepth := 512

def ScoringSettings.standard : ScoringSettings where
  entryHints := ["index", "main", "app", "server"]
  entryBonus := 50
  windowMin := 50
  windowMax := 500
  sizeBonus := 20
  functionWeight := 5
  classWeight := 10
  importWeight := 2
  importCap := 20
  keyFileLimit := 10

def InsightSettings.standard : InsightSettings where
  manyLanguages := 3
  classRatio := 0.5
  functionRatio := 3.0
  componentExtensions := [".jsx", ".tsx"]
  statePathWords := ["slice", "store"]
  stateImportWords := ["redux"]
  routingImportWords := ["router"]
  servicePathWords := ["api", "service"]
  serviceFunctionWord := "fetch"
  testPathWords := ["test", "spec"]
  configFileWords := ["package.json", "requirements.txt", "Cargo.toml", "pom.xml", "vite.config",
    "tailwind.config"]
  stylingWords := ["tailwind"]
  stylesheetExtensions := [".css", ".scss"]
  featurePathWords := ["features"]

def Settings.standard : Settings := ⟨.standard, .standard, .standard, .standard⟩

/-! ## look-up -/

/-- The language of an extension, which is written with its dot and in small letters. -/
def AnalysisSettings.languageFor? (s : AnalysisSettings) (extension : String) : Option Language :=
  s.extensions.find? extension

/-- The language of a file, if its extension is listed. -/
def AnalysisSettings.languageOf? (s : AnalysisSettings) (path : OsText) : Option Language :=
  (dottedExtension? path).bind s.languageFor?

end SourceAtlas
