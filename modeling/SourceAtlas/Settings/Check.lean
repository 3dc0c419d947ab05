import SourceAtlas.Decimal.Written
import SourceAtlas.Settings.Basic
import SourceAtlas.Text.Quoted

/-!
Whether settings make sense.

* `SettingsFault`: what may be wrong with settings or with the files they come from.
* `Settings.check`: the first thing that is wrong with settings.
-/

namespace SourceAtlas

inductive SettingsFault where
  | noExtensions
  | badExtension (extension : String)
  | noInterpreterTime
  | noSnippetWidth
  | noTreeDepth
  | emptyWindow (low high : Nat)
  | noKeyFiles
  | badRatios (classRatio functionRatio : Float)
  /-- A settings file that was asked for is not there. -/
  | missingFile (path : String)
  /-- A source of settings cannot be read, or a value is not of the kind that is needed. -/
  | unreadable

/-- Ratios are written out in full, without an exponent and without a point if they are whole. -/
def ratioLayout : Decimal.Layout := ⟨fun _ => true, false, 1⟩

def SettingsFault.message : SettingsFault → String
  | noExtensions => "analysis.supported_extensions must not be empty"
  | badExtension extension =>
    "Extension keys must start with '.', got " ++ Text.quoted extension
  | noInterpreterTime => "Interpreter timeout_secs must be greater than 0"
  | noSnippetWidth => "analysis.snippet_max_chars must be greater than 0"
  | noTreeDepth => "analysis.max_tree_depth must be greater than 0"
  | emptyWindow low high =>
    "Scoring size window is empty: (" ++ toString low ++ ", " ++ toString high ++ ")"
  | noKeyFiles => "scoring.key_file_limit must be greater than 0"
  | badRatios classRatio functionRatio =>
    "Insight ratios must be positive, got oo_ratio=" ++ ratioLayout.write classRatio ++
      " functional_ratio=" ++ ratioLayout.write functionRatio
  | missingFile path => "Config file not found: " ++ path
  | unreadable => "Configuration error"

/-- An extension is a dot and something after it. -/
def isExtension (s : String) : Bool :=
  match s.toList with
  | '.' :: _ :: _ => true
  | _ => false

namespace Settings

/-- What is wrong with the way files are analysed. -/
def analysisFault? (s : AnalysisSettings) : Option SettingsFault :=
  if s.extensions.isEmpty then some .noExtensions
  else
    match s.extensions.entries.find? fun e => !isExtension e.1 with
    | some e => some (.badExtension e.1)
    | none =>
      if s.interpreter.seconds = 0 then some .noInterpreterTime
      else if s.snippetWidth = 0 then some .noSnippetWidth
      else if s.maxTreeDepth = 0 then some .noTreeDepth
      else none

/-- What is wrong with the way files are ranked. -/
def scoringFault? (s : ScoringSettings) : Option SettingsFault :=
  if s.windowMax ≤ s.windowMin then some (.emptyWindow s.windowMin s.windowMax)
  else if s.keyFileLimit = 0 then some .noKeyFiles
  else none

/-- What is wrong with the thresholds of remarks. -/
def insightFault? (s : InsightSettings) : Option SettingsFault :=
  if s.classRatio ≤ 0 ∨ s.functionRatio ≤ 0 then some (.badRatios s.classRatio s.functionRatio)
  else none

/-- The first thing that is wrong with settings. -/
def fault? (s : Settings) : Option SettingsFault :=
  (analysisFault? s.analysis).or ((scoringFault? s.scoring).or (insightFault? s.insights))

/-- The settings, if nothing is wrong with them. -/
def check (s : Settings) : Except SettingsFault Settings :=
  match s.fault? with
  | some fault => .error fault
  | none => .ok s

end Settings

end SourceAtlas
