import Mathlib
import SourceAtlas.Proofs.Places
import SourceAtlas.Proofs.RecordJson
import SourceAtlas.Proofs.SettingsJson

/-!
Which layer decides a setting.

* `Settings.sources`, `Settings.decisive?`: what the layers say, and the highest one that says
  anything.
* `Settings.covers_foldl_merge`: layers over the standard settings leave no setting out.
* `Settings.highest_layer_decides`: every leaf of loaded settings is decided by the highest layer
  that says something at its path.
-/

namespace SourceAtlas.Settings

/-! ## layers and settings -/

theorem sound_strings (texts : List String) : (Json.strings texts).Sound := by
  refine Json.sound_arr fun v hv => ?_
  obtain ⟨text, -, rfl⟩ := List.mem_map.1 hv
  exact Json.sound_of_isScalar rfl

theorem sound_extensionsJson (t : Table Language) : (AnalysisSettings.extensionsJson t).Sound := by
  refine Json.sound_obj_iff.2 ⟨?_, fun field hfield => ?_⟩
  · rw [List.map_map]
    exact t.nodup_keys
  · obtain ⟨entry, -, rfl⟩ := List.mem_map.1 hfield
    exact Json.sound_of_isScalar rfl

theorem sound_toJson (s : Settings) : s.toJson.Sound := by
  have hbool : ∀ b, (Json.bool b).Sound := fun _ => Json.sound_of_isScalar rfl
  have hstr : ∀ text, (Json.str text).Sound := fun _ => Json.sound_of_isScalar rfl
  have hint : ∀ n, (Json.int n).Sound := fun _ => Json.sound_of_isScalar rfl
  have hfloat : ∀ x, (Json.float x).Sound := fun _ => Json.sound_of_isScalar rfl
  simp [toJson, WalkSettings.toJson, AnalysisSettings.toJson, InterpreterSettings.toJson,
    ScoringSettings.toJson, InsightSettings.toJson, Json.IsSound, Json.ofWord, Json.natural,
    sound_strings, sound_extensionsJson, hbool, hstr, hint, hfloat]

theorem sound_layer (s : Settings) : s.layer.Sound := Value.sound_ofJson s.sound_toJson

/-- What the two files and the environment say, from the lowest layer to the highest. -/
def sources (environment : List (String × String)) (projectFile explicitFile : Value) :
    List (List String → Option Value) :=
  [fileGives? projectFile, fileGives? explicitFile, (variableLayer environment).getAt?]

/-- What the highest of all layers says that says anything at a path. The standard settings are the
lowest layer. -/
def decisive? (environment : List (String × String)) (projectFile explicitFile : Value)
    (path : List String) : Option Value :=
  Value.highest? (standard.layer.getAt? :: sources environment projectFile explicitFile) path

theorem covers_foldl_merge {base : Value} {layers : List Value}
    (hlayers : ∀ layer ∈ layers, layer.Sound)
    (hfits : ∀ layer ∈ layers, Value.Fits base layer.getAt?) :
    Covers base (layers.foldl Value.merge base) := by
  intro path b hb
  cases hleaf : b.isTable with
  | true =>
    obtain ⟨fields, rfl⟩ := Value.isTable_iff.1 hleaf
    obtain ⟨merged, hmerged⟩ := Value.exists_table_getAt?_foldl hlayers hfits hb
    exact ⟨.table merged, hmerged, fun _ => rfl⟩
  | false =>
    have hsome : (base.getAt? path).isSome = true := by simp [hb]
    obtain ⟨w, hw⟩ := Option.isSome_iff_exists.1
      (Value.isSome_getAt?_foldl_of_base hlayers hfits hsome)
    exact ⟨w, hw, by simp⟩

/-- Settings that layers make are read from the merged layers. -/
theorem ofJson?_of_ofLayers {layers : List Value} {s : Settings} (h : ofLayers layers = .ok s) :
    ofJson? (layers.foldl Value.merge standard.layer).toJson = some s := by
  unfold ofLayers at h
  simp only at h
  split at h
  · cases h
  · split at h
    · rename_i read hread
      unfold check at h
      split at h
      · cases h
      · cases h
        exact hread
    · cases h

/-- Only a leaf decides a leaf. -/
theorem Decides.isTable_eq_false {path : List String} {v w : Value} (hw : w.Sound)
    (hleaf : w.isTable = false) (h : Decides path v.toJson w.toJson) : v.isTable = false := by
  cases v with
  | table fields =>
    rw [Value.toJson] at h
    generalize hkept : w.toJson = kept at h
    cases h
    cases w with
    | plain j =>
      have hscalar : j.isScalar = true := hw.self
      rw [Value.toJson] at hkept
      rw [hkept] at hscalar
      cases hscalar
    | character _ | list _ => cases hkept
    | table _ => cases hleaf
  | plain _ | character _ | list _ => rfl

/-- The layer of settings names the language of every extension. -/
theorem getAt?_layer_extensions (s : Settings) (key : String) :
    s.layer.getAt? (extensionsPath ++ [key]) =
      (s.analysis.languageFor? key).map fun l => .plain (.str l.id) := by
  have htable : s.layer.getAt? extensionsPath =
      some (.ofJson (AnalysisSettings.extensionsJson s.analysis.extensions)) := rfl
  rw [Value.getAt?_append, htable, Option.bind_some]
  show ((Value.ofFields _).lookup key).bind _ = _
  rw [Value.lookup_ofFields, Entries.lookup_map (fun _ l => Json.str (Language.id l))]
  cases hlookup : s.analysis.extensions.entries.lookup key with
  | none => simp [AnalysisSettings.languageFor?, Table.find?, hlookup]
  | some l => simp [AnalysisSettings.languageFor?, Table.find?, hlookup, Value.ofJson]

section Merged

variable {layers : List Value} {gives : List (List String → Option Value)} {s : Settings}
  (hlayers : ∀ layer ∈ layers, layer.Sound) (htells : List.Forall₂ Value.Tells gives layers)
  (hfits : ∀ given ∈ gives, Value.Fits standard.layer given) (h : ofLayers layers = .ok s)

include hlayers htells hfits h

/-- What takes effect is decided by the highest layer that says anything. -/
theorem exists_highest_of_getAt? {path : List String} {w : Value}
    (hw : s.layer.getAt? path = some w) (hleaf : w.isTable = false) :
    ∃ v, Value.highest? (standard.layer.getAt? :: gives) path = some v ∧
      Decides path v.toJson w.toJson := by
  have hcovers := covers_foldl_merge hlayers (Value.fits_of_tells htells hfits)
  have hsound := standard.sound_layer.foldl_merge hlayers
  have hread := encodes_settings _ s hsound hcovers (ofJson?_of_ofLayers h)
  obtain ⟨v, hv, hdecides⟩ := hread path w hw hleaf
  -- `v` is what the merged layers have; as a leaf it is what the highest layer says
  have hleaf' := Decides.isTable_eq_false (s.sound_layer.getAt? hw) hleaf hdecides
  refine ⟨v, ?_, hdecides⟩
  exact Value.highest?_of_tells (.cons (Value.tells_getAt? _) htells)
    (Value.highest?_of_getAt?_foldl hlayers hv hleaf') hleaf'

/-- The extensions are read from a table in the merged layers. -/
theorem exists_extensions :
    ∃ fields, (Value.table fields).Sound ∧
      (∀ key, (layers.foldl Value.merge standard.layer).getAt? (extensionsPath ++ [key]) =
        fields.lookup key) ∧
      AnalysisSettings.extensionsOfJson? (Value.table fields).toJson =
        some s.analysis.extensions := by
  have hcovers := covers_foldl_merge hlayers (Value.fits_of_tells htells hfits)
  obtain ⟨fields, hfields, hread⟩ := extensions_of_ofJson? hcovers (ofJson?_of_ofLayers h)
  refine ⟨fields, (standard.sound_layer.foldl_merge hlayers).getAt? hfields, fun key => ?_, hread⟩
  rw [Value.getAt?_append, hfields]
  simp

/-- The table of extensions is the union of the tables of all layers, and higher ones win. -/
theorem languageFor?_eq_highest (key : String) :
    s.analysis.languageFor? key =
      (Value.highest? (standard.layer.getAt? :: gives) (extensionsPath ++ [key])).bind
        fun v => Language.ofJson? v.toJson := by
  obtain ⟨fields, hsound, hmerged, hread⟩ := exists_extensions hlayers htells hfits h
  have htells' : List.Forall₂ Value.Tells (standard.layer.getAt? :: gives)
      (standard.layer :: layers) := .cons (Value.tells_getAt? _) htells
  rw [AnalysisSettings.languageFor?, find?_of_extensionsOfJson? hread hsound.nodup]
  cases hlookup : fields.lookup key with
  | some v =>
    -- a language is named by a text, so that the value is a leaf
    obtain ⟨l, hl⟩ := exists_language_of_extensionsOfJson? hread hlookup
    have hleaf := isTable_of_ofJson? (hsound.of_lookup hlookup) hl
    have hhigh := Value.highest?_of_getAt?_foldl hlayers ((hmerged key).trans hlookup) hleaf
    rw [Value.highest?_of_tells htells' hhigh hleaf]
  | none =>
    -- no layer cuts the table of extensions, so that what is missing in the end was never given
    have hsome := Value.isSome_getAt?_foldl_concat_iff hlayers (Value.fits_of_tells htells hfits)
      (show standard.layer.getAt? extensionsPath = some (.table _) from rfl) key
    rw [← Value.isSome_highest?_of_tells htells', hmerged, hlookup] at hsome
    cases hhigh : Value.highest? (standard.layer.getAt? :: gives) (extensionsPath ++ [key]) with
    | none => rfl
    | some v => simp [hhigh] at hsome

/-- No extension that is known from the beginning gets lost. -/
theorem isSome_languageFor?_of_standard {key : String}
    (hkey : (standard.analysis.languageFor? key).isSome = true) :
    (s.analysis.languageFor? key).isSome = true := by
  obtain ⟨fields, hsound, hmerged, hread⟩ := exists_extensions hlayers htells hfits h
  have hbase : (standard.layer.getAt? (extensionsPath ++ [key])).isSome = true := by
    rwa [getAt?_layer_extensions, Option.isSome_map]
  have hsome := Value.isSome_getAt?_foldl_of_base hlayers (Value.fits_of_tells htells hfits) hbase
  rw [hmerged] at hsome
  obtain ⟨v, hv⟩ := Option.isSome_iff_exists.1 hsome
  obtain ⟨l, hl⟩ := exists_language_of_extensionsOfJson? hread hv
  rw [AnalysisSettings.languageFor?, find?_of_extensionsOfJson? hread hsound.nodup, hv,
    Option.bind_some, hl, Option.isSome_some]

/-- The excluded names are those of one layer. -/
theorem exists_excludedNames :
    ∃ names, (Value.highest? (standard.layer.getAt? :: gives) excludedPath).map Value.toJson =
      some (.strings names) ∧ s.walk.excludedNames = .ofList names := by
  have heffective : s.layer.getAt? excludedPath =
      some (.ofJson (.strings s.walk.excludedNames.toList)) := rfl
  obtain ⟨v, hv, hdecides⟩ := exists_highest_of_getAt? hlayers htells hfits h heffective rfl
  rw [Value.toJson_ofJson] at hdecides
  rw [hv, Option.map_some]
  generalize v.toJson = given, hkept : Json.strings s.walk.excludedNames.toList = kept at hdecides
  cases hdecides with
  | same =>
    exact ⟨s.walk.excludedNames.toList, by rw [hkept], (NameSet.ofList_toList _).symm⟩
  | ratio n => cases hkept
  | names _ names =>
    refine ⟨names, rfl, NameSet.eq_of_toList ?_⟩
    exact List.map_injective_iff.2 (fun _ _ => Json.str.inj) (Json.arr.inj hkept)

end Merged

/-- **Layers of settings.**  When settings are loaded from a project file, from a file that was
asked for and from the environment, and all of these have tables where the standard settings have
tables, then
* every leaf that takes effect is decided by the highest layer that says something at its path,
  where a file says of a setting what stands under its other name, if the file has that name;
* the language of an extension is the one that the highest layer with this extension names, and no
  extension that is known from the beginning gets lost;
* the excluded names are all those, and only those, that the highest layer with such a list has. -/
theorem highest_layer_decides {fs : FileSystem} {environment : List (String × String)}
    {project : String} {explicit : Option String} {s : Settings} {projectFile explicitFile : Value}
    (hs : loadFrom fs environment project explicit = .ok s)
    (hproject : projectTable? fs project = some projectFile)
    (hexplicit : explicitTable? fs explicit = some explicitFile)
    (hfits : ∀ gives ∈ sources environment projectFile explicitFile,
      Value.Fits standard.layer gives) :
    (∀ path w, s.layer.getAt? path = some w → w.isTable = false →
      ∃ v, decisive? environment projectFile explicitFile path = some v ∧
        Decides path v.toJson w.toJson) ∧
    (∀ key, s.analysis.languageFor? key =
      (decisive? environment projectFile explicitFile (extensionsPath ++ [key])).bind
        fun v => Language.ofJson? v.toJson) ∧
    (∀ key, (standard.analysis.languageFor? key).isSome = true →
      (s.analysis.languageFor? key).isSome = true) ∧
    ∃ names, (decisive? environment projectFile explicitFile excludedPath).map Value.toJson =
      some (.strings names) ∧ s.walk.excludedNames = .ofList names := by
  unfold loadFrom at hs
  split at hs
  · cases hs
  · rename_i projectLayer hprojectLayer
    split at hs
    · cases hs
    · rename_i explicitLayer hexplicitLayer
      have hp := isLayerOf_projectLayer hprojectLayer hproject
      have he := isLayerOf_explicitLayer hexplicitLayer hexplicit
      have htells : List.Forall₂ Value.Tells (sources environment projectFile explicitFile)
          [projectLayer, explicitLayer, variableLayer environment] :=
        .cons hp.tells (.cons he.tells (.cons (Value.tells_getAt? _) .nil))
      have hlayers : ∀ layer ∈ [projectLayer, explicitLayer, variableLayer environment],
          layer.Sound := by
        simp only [List.mem_cons, List.not_mem_nil, or_false, forall_eq_or_imp, forall_eq]
        exact ⟨hp.sound, he.sound, sound_variableLayer environment⟩
      refine ⟨fun path w hw hleaf => ?_, fun key => ?_, fun key hkey => ?_, ?_⟩
      · exact exists_highest_of_getAt? hlayers htells hfits hs hw hleaf
      · exact languageFor?_eq_highest hlayers htells hfits hs key
      · exact isSome_languageFor?_of_standard hlayers htells hfits hs hkey
      · exact exists_excludedNames hlayers htells hfits hs

/-! ## an example -/

/-- A project file that uses the other name of a setting, and a file to ask for. -/
def workshopTexts : List (String × String) :=
  [(".repoguide.toml", "walk.excludedDirectoryNames=[]"), ("custom.toml", "scoring.import_cap=7")]

def workshop : FileSystem where
  top := .folder (workshopTexts.map fun file => (file.1, .file true (Text.bytes file.2)))
  current := []

/-- A variable that outranks the second file. -/
def workshopEnvironment : List (String × String) := [("REPOGUIDE_SCORING__IMPORT_CAP", "9")]

/-- The table that a text describes. -/
def tableOf (text : String) : Value := ((Toml.read text).map Value.ofJson).getD (.table [])

theorem workshop_file {name text : String} (h : (name, text) ∈ workshopTexts) :
    workshop.contains (Text.bytes name) = true ∧
      settingsFile? workshop name = some (some (Text.bytes text)) ∧
      fileTable? workshop name = some (tableOf text) := by
  have hread : ∀ file ∈ workshopTexts, (Toml.read file.2).isSome = true := by decide +kernel
  have hfile : workshop.contains (Text.bytes name) = true ∧
      settingsFile? workshop name = some (some (Text.bytes text)) := by
    rcases List.mem_pair.1 h with heq | heq <;> cases heq
    · exact ⟨by cbv, by cbv⟩
    · exact ⟨by cbv, by cbv⟩
  refine ⟨hfile.1, hfile.2, ?_⟩
  obtain ⟨v, hv⟩ := Option.isSome_iff_exists.1 (hread _ h)
  rw [fileTable?, hfile.2, tableOf]
  dsimp only at hv ⊢
  rw [Option.bind_some, Text.Utf8.decode?_bytes, Option.bind_some, hv]
  rfl

def workshopProject : Value := tableOf "walk.excludedDirectoryNames=[]"

def workshopExplicit : Value := tableOf "scoring.import_cap=7"

theorem highest_layer_decides_workshop :
    ∃ s, loadFrom workshop workshopEnvironment ".repoguide.toml" (some "custom.toml") = .ok s ∧
      projectTable? workshop ".repoguide.toml" = some workshopProject ∧
      explicitTable? workshop (some "custom.toml") = some workshopExplicit ∧
      (∀ gives ∈ sources workshopEnvironment workshopProject workshopExplicit,
        Value.Fits standard.layer gives) ∧
      (∃ v, decisive? workshopEnvironment workshopProject workshopExplicit
          ["scoring", "import_cap"] = some v ∧
        Decides ["scoring", "import_cap"] v.toJson (Json.ofWord s.scoring.importCap)) ∧
      ∃ names, (decisive? workshopEnvironment workshopProject workshopExplicit excludedPath).map
        Value.toJson = some (.strings names) ∧ s.walk.excludedNames = .ofList names := by
  obtain ⟨hcontains, hbytes, htable⟩ := workshop_file List.mem_cons_self
  obtain ⟨hcontains', hbytes', htable'⟩ := workshop_file (List.mem_cons_of_mem _ List.mem_cons_self)
  have hproject : projectTable? workshop ".repoguide.toml" = some workshopProject := by
    rw [projectTable?, if_pos hcontains, htable, workshopProject]
  have hexplicit : explicitTable? workshop (some "custom.toml") = some workshopExplicit := by
    rw [explicitTable?, if_pos hcontains', htable', workshopExplicit]
  have hfits : ∀ gives ∈ sources workshopEnvironment workshopProject workshopExplicit,
      Value.Fits standard.layer gives := by
    unfold sources
    decide +kernel
  have hok : (loadFrom workshop workshopEnvironment ".repoguide.toml"
      (some "custom.toml")).toBool = true := by
    rw [loadFrom, projectLayer, if_pos hcontains, fileLayer, hbytes, explicitLayer,
      if_pos hcontains', fileLayer, hbytes']
    decide +kernel
  cases hs : loadFrom workshop workshopEnvironment ".repoguide.toml" (some "custom.toml") with
  | error fault =>
    rw [hs] at hok
    cases hok
  | ok s =>
    obtain ⟨hleaves, -, -, hexcluded⟩ := highest_layer_decides hs hproject hexplicit hfits
    refine ⟨s, rfl, hproject, hexplicit, hfits, ?_, hexcluded⟩
    exact hleaves ["scoring", "import_cap"] (.ofJson (Json.ofWord s.scoring.importCap)) rfl rfl

end SourceAtlas.Settings
