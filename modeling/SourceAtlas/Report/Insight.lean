import SourceAtlas.Report.Stats
import SourceAtlas.Settings.Basic
import SourceAtlas.Text.Lowercase
import SourceAtlas.Text.Part

/-!
Remarks on the files of a directory as a whole.

* `Insight`: a remark. `Insight.text`: its wording.
* `insights`: the remarks on a set of records, in a fixed order.
-/

namespace SourceAtlas

inductive Insight where
  | multiLanguage (languages : Nat)
  | componentOriented (files : Nat)
  | stateManagement
  | clientRouting
  | apiIntegration
  | objectOriented
  | functional
  | testing
  | configuration
  | utilityStyling
  | traditionalStyling
  | featureModules
deriving DecidableEq, Repr

def Insight.text : Insight → String
  | multiLanguage languages =>
    "Multi-language project with " ++ toString languages ++ " different programming languages"
  | componentOriented files =>
    "React application with " ++ toString files ++ " component files"
  | stateManagement => "Uses Redux for state management"
  | clientRouting => "Implements client-side routing"
  | apiIntegration => "Includes API integration and data fetching"
  | objectOriented => "Object-oriented architecture with significant use of classes"
  | functional => "Functional programming approach with emphasis on functions"
  | testing => "Includes test files - good testing practices"
  | configuration => "Well-structured project with proper configuration files"
  | utilityStyling => "Uses Tailwind CSS for utility-first styling"
  | traditionalStyling => "Uses traditional CSS/SCSS for styling"
  | featureModules => "Organized by features - good modular architecture"

namespace Insight

/-! ## what a single record shows -/

/-- One of the words is a part of the text. -/
def mentions (words : List String) (text : String) : Bool :=
  words.any fun word => Text.occursIn word.toList text.toList

def pathMentions (words : List String) (r : Record) : Bool := mentions words r.path

def pathEndsWith (endings : List String) (r : Record) : Bool :=
  endings.any fun ending => Text.endsWith r.path.toList ending.toList

def importsMention (words : List String) (r : Record) : Bool :=
  r.metadata.importNames.toList.any (mentions words)

/-- A function name contains the word, in whatever case. -/
def functionMentions (word : String) (r : Record) : Bool :=
  r.metadata.functionNames.toList.any fun name =>
    Text.occursIn (Text.lower word).toList (Text.lower name).toList

/-- A function has a name that begins with a capital letter. -/
def hasCapitalFunction (r : Record) : Bool :=
  r.metadata.functionNames.toList.any fun name => name.toList.head?.any Char.isUpper

def isComponent (s : InsightSettings) (r : Record) : Bool :=
  hasCapitalFunction r || pathEndsWith s.componentExtensions r

def isStateful (s : InsightSettings) (r : Record) : Bool :=
  pathMentions s.statePathWords r || importsMention s.stateImportWords r

def isService (s : InsightSettings) (r : Record) : Bool :=
  pathMentions s.servicePathWords r || functionMentions s.serviceFunctionWord r

/-! ## what all records show -/

/-- The number of languages, not counting unknown ones. -/
def languageCount (records : List Record) : Nat :=
  Language.known.countP fun l => records.any fun r => r.language == l

def functionTotal (records : List Record) : Nat :=
  totalOf (fun r => r.metadata.functionNames.size) records

def classTotal (records : List Record) : Nat :=
  totalOf (fun r => r.metadata.classNames.size) records

def onLanguages (s : InsightSettings) (records : List Record) : Option Insight :=
  if s.manyLanguages < languageCount records then some (multiLanguage (languageCount records))
  else none

def onComponents (s : InsightSettings) (records : List Record) : Option Insight :=
  let files := records.countP (isComponent s)
  if 0 < files then some (componentOriented files) else none

/-- A remark that a single record calls for. -/
def onAny (remark : Insight) (test : Record → Bool) (records : List Record) : Option Insight :=
  if records.any test then some remark else none

/-- Which of classes and functions prevail. -/
def onStyle (s : InsightSettings) (records : List Record) : Option Insight :=
  let functions := Float.ofNat (functionTotal records)
  let classes := Float.ofNat (classTotal records)
  if functions * s.classRatio < classes then some objectOriented
  else if classes * s.functionRatio < functions then some functional
  else none

def onStyling (s : InsightSettings) (records : List Record) : Option Insight :=
  (onAny utilityStyling (pathMentions s.stylingWords) records).or
    (onAny traditionalStyling (pathEndsWith s.stylesheetExtensions) records)

end Insight

open Insight in
/-- The remarks on a set of records. -/
def insights (s : InsightSettings) (set : RecordSet) : List Insight :=
  let records := set.toList
  [onLanguages s records, onComponents s records,
    onAny .stateManagement (isStateful s) records,
    onAny .clientRouting (importsMention s.routingImportWords) records,
    onAny .apiIntegration (isService s) records, onStyle s records,
    onAny .testing (pathMentions s.testPathWords) records,
    onAny .configuration (pathMentions s.configFileWords) records, onStyling s records,
    onAny .featureModules (pathMentions s.featurePathWords) records].filterMap id

end SourceAtlas
