import SourceAtlas.Record.Json
import SourceAtlas.Settings.Basic

/-!
Settings as JSON values.

* `Settings.toJson`: an object with a section for each group of settings.
* `Settings.ofJson?`: the settings that such an object describes. What it leaves out keeps its
  standard value, and names that mean nothing are passed over; an empty array stands for an empty
  object.
-/

namespace SourceAtlas

namespace Json

variable {α : Type}

/-- The fields of a group of settings. -/
def group? : Json → Option (List (String × Json))
  | obj fields => some fields
  | arr [] => some []
  | _ => none

/-- The value of a setting, or its standard value if it is not set. -/
def setting (fields : List (String × Json)) (name : String) (standard : α)
    (decode : Json → Option α) : Option α :=
  match fields.lookup name with
  | none => some standard
  | some v => decode v

/-- The value of a setting with two names, of which at most one may be used. -/
def renamedSetting (fields : List (String × Json)) (name other : String) (standard : α)
    (decode : Json → Option α) : Option α :=
  match fields.lookup name, fields.lookup other with
  | none, none => some standard
  | some v, none | none, some v => decode v
  | some _, some _ => none

/-- A number that fits into a word of 32 bits. -/
def word32? (v : Json) : Option UInt32 :=
  v.nat?.bind fun n => if n < UInt32.size then some (.ofNat n) else none

/-- A number, whole or not. -/
def ratio? : Json → Option Float
  | float x => some x
  | int n => some (.ofInt n)
  | _ => none

def texts? (v : Json) : Option (List String) := listOf str? v

def ofWord (w : UInt32) : Json := natural w.toNat

end Json

open Json

/-- The name by which files may also call the excluded directories. -/
def excludedNamesAlias : String := "excludedDirectoryNames"

/-- The name by which files may also call the table of extensions. -/
def extensionsAlias : String := "supportedExtensions"

namespace WalkSettings

def toJson (s : WalkSettings) : Json :=
  obj [("excluded_directory_names", strings s.excludedNames.toList),
    ("respect_gitignore", bool s.respectIgnoreFiles), ("follow_links", bool s.followLinks),
    ("parallel", bool s.parallel)]

def ofJson? (v : Json) : Option WalkSettings := do
  let fields ← v.group?
  return {
    excludedNames := ← renamedSetting fields "excluded_directory_names" excludedNamesAlias
      standard.excludedNames Metadata.namesOfJson?
    respectIgnoreFiles := ← setting fields "respect_gitignore" standard.respectIgnoreFiles bool?
    followLinks := ← setting fields "follow_links" standard.followLinks bool?
    parallel := ← setting fields "parallel" standard.parallel bool? }

end WalkSettings

namespace InterpreterSettings

def toJson (s : InterpreterSettings) : Json :=
  obj [("enabled", bool s.enabled), ("python", str s.command), ("timeout_secs", natural s.seconds)]

def ofJson? (v : Json) : Option InterpreterSettings := do
  let fields ← v.group?
  return {
    enabled := ← setting fields "enabled" standard.enabled bool?
    command := ← setting fields "python" standard.command str?
    seconds := ← setting fields "timeout_secs" standard.seconds nat? }

end InterpreterSettings

namespace AnalysisSettings

def extensionsJson (t : Table Language) : Json := obj (t.entries.map fun e => (e.1, str e.2.id))

def extensionsOfJson? : Json → Option (Table Language)
  | obj fields =>
    (fields.mapM fun e => (Language.ofJson? e.2).map fun l => (e.1, l)).map Table.ofList
  | _ => none

def toJson (s : AnalysisSettings) : Json :=
  obj [("supported_extensions", extensionsJson s.extensions),
    ("interpreter", s.interpreter.toJson), ("snippet_max_chars", natural s.snippetWidth),
    ("max_file_bytes", natural s.maxFileBytes), ("max_tree_depth", natural s.maxTreeDepth)]

def ofJson? (v : Json) : Option AnalysisSettings := do
  let fields ← v.group?
  return {
    extensions := ← renamedSetting fields "supported_extensions" extensionsAlias
      standard.extensions extensionsOfJson?
    interpreter := ← setting fields "interpreter" standard.interpreter InterpreterSettings.ofJson?
    snippetWidth := ← setting fields "snippet_max_chars" standard.snippetWidth nat?
    maxFileBytes := ← setting fields "max_file_bytes" standard.maxFileBytes nat?
    maxTreeDepth := ← setting fields "max_tree_depth" standard.maxTreeDepth nat? }

end AnalysisSettings

namespace ScoringSettings

def toJson (s : ScoringSettings) : Json :=
  obj [("entry_point_hints", strings s.entryHints), ("entry_point_bonus", ofWord s.entryBonus),
    ("size_window_min", natural s.windowMin), ("size_window_max", natural s.windowMax),
    ("size_bonus", ofWord s.sizeBonus), ("function_weight", ofWord s.functionWeight),
    ("class_weight", ofWord s.classWeight), ("import_weight", ofWord s.importWeight),
    ("import_cap", ofWord s.importCap), ("key_file_limit", natural s.keyFileLimit)]

def ofJson? (v : Json) : Option ScoringSettings := do
  let fields ← v.group?
  return {
    entryHints := ← setting fields "entry_point_hints" standard.entryHints texts?
    entryBonus := ← setting fields "entry_point_bonus" standard.entryBonus word32?
    windowMin := ← setting fields "size_window_min" standard.windowMin nat?
    windowMax := ← setting fields "size_window_max" standard.windowMax nat?
    sizeBonus := ← setting fields "size_bonus" standard.sizeBonus word32?
    functionWeight := ← setting fields "function_weight" standard.functionWeight word32?
    classWeight := ← setting fields "class_weight" standard.classWeight word32?
    importWeight := ← setting fields "import_weight" standard.importWeight word32?
    importCap := ← setting fields "import_cap" standard.importCap word32?
    keyFileLimit := ← setting fields "key_file_limit" standard.keyFileLimit nat? }

end ScoringSettings

namespace InsightSettings

def toJson (s : InsightSettings) : Json :=
  obj [("multi_language_threshold", natural s.manyLanguages), ("oo_ratio", float s.classRatio),
    ("functional_ratio", float s.functionRatio),
    ("component_extensions", strings s.componentExtensions),
    ("state_path_tokens", strings s.statePathWords),
    ("state_import_tokens", strings s.stateImportWords),
    ("routing_import_tokens", strings s.routingImportWords),
    ("api_path_tokens", strings s.servicePathWords),
    ("api_function_token", str s.serviceFunctionWord),
    ("test_path_tokens", strings s.testPathWords),
    ("config_file_tokens", strings s.configFileWords),
    ("css_framework_tokens", strings s.stylingWords),
    ("stylesheet_extensions", strings s.stylesheetExtensions),
    ("feature_path_tokens", strings s.featurePathWords)]

def ofJson? (v : Json) : Option InsightSettings := do
  let fields ← v.group?
  return {
    manyLanguages := ← setting fields "multi_language_threshold" standard.manyLanguages nat?
    classRatio := ← setting fields "oo_ratio" standard.classRatio ratio?
    functionRatio := ← setting fields "functional_ratio" standard.functionRatio ratio?
    componentExtensions :=
      ← setting fields "component_extensions" standard.componentExtensions texts?
    statePathWords := ← setting fields "state_path_tokens" standard.statePathWords texts?
    stateImportWords := ← setting fields "state_import_tokens" standard.stateImportWords texts?
    routingImportWords :=
      ← setting fields "routing_import_tokens" standard.routingImportWords texts?
    servicePathWords := ← setting fields "api_path_tokens" standard.servicePathWords texts?
    serviceFunctionWord :=
      ← setting fields "api_function_token" standard.serviceFunctionWord str?
    testPathWords := ← setting fields "test_path_tokens" standard.testPathWords texts?
    configFileWords := ← setting fields "config_file_tokens" standard.configFileWords texts?
    stylingWords := ← setting fields "css_framework_tokens" standard.stylingWords texts?
    stylesheetExtensions :=
      ← setting fields "stylesheet_extensions" standard.stylesheetExtensions texts?
    featurePathWords := ← setting fields "feature_path_tokens" standard.featurePathWords texts? }

end InsightSettings

namespace Settings

def toJson (s : Settings) : Json :=
  obj [("walk", s.walk.toJson), ("analysis", s.analysis.toJson), ("scoring", s.scoring.toJson),
    ("insights", s.insights.toJson)]

def ofJson? (v : Json) : Option Settings := do
  let fields ← v.group?
  return {
    walk := ← setting fields "walk" .standard WalkSettings.ofJson?
    analysis := ← setting fields "analysis" .standard AnalysisSettings.ofJson?
    scoring := ← setting fields "scoring" .standard ScoringSettings.ofJson?
    insights := ← setting fields "insights" .standard InsightSettings.ofJson? }

end Settings

end SourceAtlas
