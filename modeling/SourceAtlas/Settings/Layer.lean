import SourceAtlas.Settings.Check
import SourceAtlas.Settings.Json
import SourceAtlas.Settings.Variable
import SourceAtlas.Text.Utf8
import SourceAtlas.Toml.Reader
import SourceAtlas.FileSystem

/-!
Settings in layers.

* `Settings.fileLayer`: the layer of a file. `Settings.variableLayer`: that of the environment.
* `Settings.ofLayers`: the settings that several layers make.
* `Settings.load`: the settings of a run.
-/

namespace SourceAtlas

namespace Json

/-- Fields with one renamed inside the object in a given field. -/
def renameIn (group old new : String) (fields : List (String × Json)) : List (String × Json) :=
  fields.map fun field =>
    match field with
    | (name, obj inner) =>
      if name = group then (name, obj (Entries.rename old new inner)) else (name, obj inner)
    | _ => field

end Json

namespace Settings

/-- The name of the settings file of a project. -/
def projectFile : String := ".repoguide.toml"

/-- A layer with the other names of settings replaced by the usual ones. -/
def usualNames : Json → Json
  | .obj fields =>
    .obj (Json.renameIn "analysis" extensionsAlias "supported_extensions"
      (Json.renameIn "walk" excludedNamesAlias "excluded_directory_names" fields))
  | v => v

/-- The places of a directory and of those around it, from the inside out. -/
def outward (place : Place) : List Place :=
  (List.range (place.length + 1)).map fun n => place.take (place.length - n)

/-- The file at a path as seen from a directory: its bytes, unless it may not be read. -/
def fileFrom? (fs : FileSystem) (here : Place) (path : String) : Option (Option (List UInt8)) :=
  match fs.resolve here (Text.bytes path) with
  | .error _ => none
  | .ok place =>
    match fs.top.at? place with
    | some (.file readable bytes) => some (if readable then some bytes else none)
    | _ => none

/-- A settings file. A relative path is looked for in the current directory and in those around
it. -/
def settingsFile? (fs : FileSystem) (path : String) : Option (Option (List UInt8)) :=
  (outward fs.current).findSome? fun here => fileFrom? fs here path

/-- The layer of a settings file; one that is nowhere to be found is empty. -/
def fileLayer (fs : FileSystem) (path : String) : Except SettingsFault Value :=
  match settingsFile? fs path with
  | none => .ok (.table [])
  | some bytes =>
    match (bytes.bind Text.Utf8.decode?).bind Toml.read with
    | some v => .ok (.ofJson (usualNames v))
    | none => .error .unreadable

/-- The layer of the environment, given as names and texts of variables. -/
def variableLayer (environment : List (String × String)) : Value :=
  environment.foldl (fun layer entry =>
    match Variable.path? entry.1 with
    | some path => layer.merge (Variable.nested (Variable.value entry.2) path)
    | none => layer) (.table [])

/-- Whether a character stands where the name of a language is wanted. -/
def hasMisnamedLanguage (layers : Value) : Bool :=
  match layers.getAt? ["analysis", "supported_extensions"] with
  | some (.table fields) => fields.any fun field => field.2.isCharacter
  | _ => false

/-- The settings that layers make, each one over those before it and all over the standard. -/
def ofLayers (layers : List Value) : Except SettingsFault Settings :=
  let merged := layers.foldl Value.merge (.ofJson standard.toJson)
  if hasMisnamedLanguage merged then .error .unreadable
  else
    match ofJson? merged.toJson with
    | some settings => settings.check
    | none => .error .unreadable

/-- The layer of the project file, if there is one. -/
def projectLayer (fs : FileSystem) (path : String) : Except SettingsFault Value :=
  if fs.contains (Text.bytes path) then fileLayer fs path else .ok (.table [])

/-- The layer of a file that was asked for. -/
def explicitLayer (fs : FileSystem) : Option String → Except SettingsFault Value
  | none => .ok (.table [])
  | some path =>
    if fs.contains (Text.bytes path) then fileLayer fs path else .error (.missingFile path)

/-- The settings from a project file, from a file that was asked for, and from the environment. Each
of them outranks those before it. -/
def loadFrom (fs : FileSystem) (environment : List (String × String)) (project : String)
    (explicit : Option String) : Except SettingsFault Settings :=
  match projectLayer fs project with
  | .error fault => .error fault
  | .ok projectLayer =>
    match explicitLayer fs explicit with
    | .error fault => .error fault
    | .ok explicitLayer => ofLayers [projectLayer, explicitLayer, variableLayer environment]

/-- The settings of a run in the current directory. -/
def load (fs : FileSystem) (environment : List (String × String)) (explicit : Option String) :
    Except SettingsFault Settings :=
  loadFrom fs environment projectFile explicit

/-- The settings from a single file. -/
def loadFile (fs : FileSystem) (path : String) : Except SettingsFault Settings :=
  match fileLayer fs path with
  | .error fault => .error fault
  | .ok layer => ofLayers [layer]

end Settings

end SourceAtlas
