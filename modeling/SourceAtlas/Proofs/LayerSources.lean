import SourceAtlas.Proofs.LayerMerge
import SourceAtlas.Proofs.TomlValues
import SourceAtlas.Settings.Layer

/-!
The layers that files and variables make.

* `Value.sound_ofJson`: the layer of a sound value is sound.
* `Settings.sound_variableLayer`: so is the layer of the environment.
* `Settings.aliases`, `Settings.fileGives?`: what a file says at a path, if other names count.
* `Settings.tells_fileGives?`: the layer of a file says the same.
* `Settings.IsLayerOf`: how a layer and the table of its file belong together.
-/

namespace SourceAtlas

/-! ## JSON values as layers -/

namespace Value

theorem ofFields_eq_map (fields : List (String × Json)) :
    ofFields fields = fields.map fun field => (field.1, ofJson field.2) := by
  induction fields with
  | nil => rfl
  | cons field rest ih => rw [ofFields, ofField, ih, List.map_cons]

theorem lookup_ofFields (fields : List (String × Json)) (name : String) :
    (ofFields fields).lookup name = (fields.lookup name).map ofJson := by
  rw [ofFields_eq_map]
  exact Entries.lookup_map (fun _ => ofJson) fields name

theorem isSound_ofJson {v : Json} (h : v.Sound) : (ofJson v).IsSound := by
  cases v with
  | obj fields =>
    show ((ofFields fields).map Prod.fst).Nodup
    rw [ofFields_eq_map, List.map_map]
    exact (Json.sound_obj_iff.1 h).1
  | null => exact h.elim
  | bool _ | int _ | float _ | str _ => rfl
  | arr _ => trivial

theorem sound_ofJson {v : Json} (h : v.Sound) : (ofJson v).Sound := by
  intro path w hw
  induction path generalizing v with
  | nil =>
    cases hw
    exact isSound_ofJson h
  | cons name rest ih =>
    cases v with
    | obj fields =>
      have hlookup : ((fields.lookup name).map ofJson).bind (fun below => below.getAt? rest) =
          some w := by
        rw [← lookup_ofFields]
        exact hw
      obtain ⟨below, hbelow, hrest⟩ := Option.bind_eq_some_iff.1 hlookup
      obtain ⟨inner, hinner, rfl⟩ := Option.map_eq_some_iff.1 hbelow
      exact ih ((Json.sound_obj_iff.1 h).2 (name, inner) (Entries.mem_of_lookup hinner)) hrest
    | null | bool _ | int _ | float _ | str _ | arr _ => cases hw

theorem sound_put {fields : List (String × Value)} (h : (table fields).Sound) (name : String)
    {v : Value} (hv : v.Sound) : (table (Entries.put name v fields)).Sound := by
  refine everywhere_table_iff.2 ⟨Entries.nodup_put h.nodup name v, fun other w hw => ?_⟩
  rw [Entries.lookup_put] at hw
  split at hw
  · cases hw
    exact hv
  · exact h.of_lookup hw

theorem sound_table_nil : (table []).Sound := by
  refine everywhere_table_iff.2 ⟨List.nodup_nil, fun name w hw => ?_⟩
  cases hw

theorem sound_plain {v : Json} (h : v.isScalar = true) : (plain v).Sound :=
  everywhere_of_not_isTable rfl h

end Value

/-! ## variables -/

namespace Variable

theorem isScalar_of_whole? {cs : List Char} {v : Json} (h : whole? cs = some v) :
    v.isScalar = true := by
  unfold whole? at h
  simp only at h
  repeat' split at h
  all_goals cases h
  all_goals rfl

theorem isScalar_wordValue (cs : List Char) : (wordValue cs).isScalar = true := by
  unfold wordValue
  simp only
  split
  · cases hnumber : Decimal.ofText? cs with
    | some x => rfl
    | none =>
      cases hwhole : whole? cs with
      | some v => simpa using isScalar_of_whole? hwhole
      | none => rfl
  · cases hwhole : whole? cs with
    | some v => simpa using isScalar_of_whole? hwhole
    | none => rfl

/-- What is read with some fuel is sound. -/
structure SoundReads (fuel : Nat) : Prop where
  value {cs rest : List Char} {v : Value} (h : readValue fuel cs = some (v, rest)) : v.Sound
  pairs {cs rest : List Char} {fields found : List (String × Value)}
    (hfields : (Value.table fields).Sound) (h : readPairs fuel fields cs = some (found, rest)) :
    (Value.table found).Sound

theorem SoundReads.readValue_succ {fuel : Nat} (ih : SoundReads fuel) {cs rest : List Char}
    {v : Value} (h : readValue (fuel + 1) cs = some (v, rest)) : v.Sound := by
  rw [readValue] at h
  simp only at h
  obtain ⟨found, hfound, heq⟩ := Option.map_eq_some_iff.1 h
  cases heq
  split at hfound
  · cases hfound
    exact Value.sound_plain rfl
  · cases hfound
    exact Value.sound_plain rfl
  · -- a table: its pairs are put into the empty one
    obtain ⟨fields, hfields, rfl⟩ := Option.map_eq_some_iff.1 hfound
    exact ih.pairs Value.sound_table_nil hfields
  · obtain ⟨items, -, rfl⟩ := Option.map_eq_some_iff.1 hfound
    exact Value.everywhere_of_not_isTable rfl trivial
  · obtain ⟨text, -, rfl⟩ := Option.map_eq_some_iff.1 hfound
    exact Value.sound_plain rfl
  · cases hfound
    exact Value.everywhere_of_not_isTable rfl trivial
  · cases hfound
  · cases hfound
    exact Value.sound_plain (isScalar_wordValue _)

theorem SoundReads.readPairs_succ {fuel : Nat} (ih : SoundReads fuel) {cs rest : List Char}
    {fields found : List (String × Value)} (hfields : (Value.table fields).Sound)
    (h : readPairs (fuel + 1) fields cs = some (found, rest)) : (Value.table found).Sound := by
  rw [readPairs.eq_def] at h
  simp only at h
  split at h
  · cases h
    exact hfields
  · split at h
    · split at h
      · rename_i hv
        exact ih.pairs (Value.sound_put hfields _ (ih.value hv)) h
      · rename_i hv
        cases h
        exact Value.sound_put hfields _ (ih.value hv)
      · cases h
    · cases h

theorem soundReads (fuel : Nat) : SoundReads fuel := by
  induction fuel with
  | zero => exact ⟨fun h => by simp [readValue] at h, fun _ h => by simp [readPairs] at h⟩
  | succ fuel ih => exact ⟨ih.readValue_succ, ih.readPairs_succ⟩

theorem sound_value (text : String) : (value text).Sound := by
  unfold value
  simp only
  split
  · rename_i h
    exact (soundReads _).value h
  · exact Value.sound_plain rfl

theorem sound_nested {v : Value} (hv : v.Sound) (path : List String) : (nested v path).Sound := by
  induction path with
  | nil => exact hv
  | cons key rest ih => exact Value.sound_put Value.sound_table_nil key ih

end Variable

namespace Settings

theorem sound_variableLayer (environment : List (String × String)) :
    (variableLayer environment).Sound := by
  unfold variableLayer
  -- each variable puts a sound value over a sound layer
  refine List.foldlRecOn (motive := Value.Sound) environment _ Value.sound_table_nil
    fun layer h entry _ => ?_
  split
  · exact h.merge (Variable.sound_nested (Variable.sound_value _) _)
  · exact h

end Settings

/-! ## other names in files -/

namespace Value

/-- A table with a field renamed; other values stay as they are. -/
def rename (old new : String) : Value → Value
  | table fields => table (Entries.rename old new fields)
  | v => v

theorem sound_rename (old new : String) {v : Value} (h : v.Sound) : (v.rename old new).Sound := by
  cases v with
  | table fields =>
    show (table (Entries.rename old new fields)).Sound
    unfold Entries.rename
    split
    · exact h
    · rename_i w hw
      refine sound_put (everywhere_table_iff.2 ⟨?_, fun name x hx => ?_⟩) new (h.of_lookup hw)
      · exact h.nodup.sublist (List.filter_sublist.map Prod.fst)
      · rw [Entries.lookup_filter_ne] at hx
        split at hx
        · cases hx
        · exact h.of_lookup hx
  | plain _ | character _ | list _ => exact h

theorem rename_of_not_isTable {v : Value} (h : v.isTable = false) (old new : String) :
    v.rename old new = v := by
  cases v with
  | table fields => cases h
  | plain _ | character _ | list _ => rfl

theorem leaf?_rename (old new : String) (v : Value) : (v.rename old new).leaf? = v.leaf? := by
  cases v <;> rfl

theorem ofFields_rename (old new : String) (fields : List (String × Json)) :
    ofFields (Entries.rename old new fields) = Entries.rename old new (ofFields fields) := by
  rw [ofFields_eq_map, ofFields_eq_map]
  exact Entries.map_rename ofJson old new fields

theorem ofFields_renameIn (group old new : String) (fields : List (String × Json)) :
    ofFields (Json.renameIn group old new fields) = (ofFields fields).map fun field =>
      (field.1, if field.1 = group then field.2.rename old new else field.2) := by
  rw [Json.renameIn, ofFields_eq_map, ofFields_eq_map, List.map_map, List.map_map]
  refine List.map_congr_left fun field _ => ?_
  obtain ⟨name, v⟩ := field
  cases v with
  | obj inner =>
    by_cases hname : name = group
    · have hrename := ofFields_rename old new inner
      simp [hname, ofJson, rename, hrename]
    · simp [hname]
  | null | bool _ | int _ | float _ | str _ | arr _ => simp [ofJson, rename]

end Value

namespace Settings

/-- Another name of a setting, which files may use. -/
structure Alias where
  group : String
  other : String
  name : String

def aliases : List Alias :=
  [⟨"walk", excludedNamesAlias, "excluded_directory_names"⟩,
    ⟨"analysis", extensionsAlias, "supported_extensions"⟩]

/-- The other name that a setting of a group has. -/
def aliasIn? (group : String) : Option Alias := aliases.find? fun a => a.group == group

theorem other_ne_name {group : String} {a : Alias} (h : aliasIn? group = some a) :
    a.other ≠ a.name := by
  have hall : ∀ a ∈ aliases, a.other ≠ a.name := by
    simp [aliases, excludedNamesAlias, extensionsAlias]
  exact hall a (List.mem_of_find?_eq_some h)

/-- What a file says at a path. The other name of a setting, if the file has it, stands for the
setting, and for nothing else. -/
def fileGives? (file : Value) (path : List String) : Option Value :=
  match path with
  | group :: name :: rest =>
    match aliasIn? group with
    | none => file.getAt? (group :: name :: rest)
    | some a =>
      if name = a.other then none
      else if name = a.name ∧ (file.getAt? [group, a.other]).isSome = true then
        file.getAt? (group :: a.other :: rest)
      else file.getAt? (group :: name :: rest)
  | _ => file.getAt? path

/-- A group of settings with the usual names. -/
def usualGroup (group : String) (v : Value) : Value :=
  match aliasIn? group with
  | none => v
  | some a => v.rename a.other a.name

theorem ofJson_usualNames (fields : List (String × Json)) :
    Value.ofJson (usualNames (.obj fields)) =
      .table ((Value.ofFields fields).map fun field => (field.1, usualGroup field.1 field.2)) := by
  show Value.table (Value.ofFields _) = _
  rw [Value.ofFields_renameIn, Value.ofFields_renameIn, List.map_map]
  congr 1
  refine List.map_congr_left fun field _ => ?_
  obtain ⟨name, v⟩ := field
  unfold usualGroup aliasIn? aliases
  by_cases hwalk : name = "walk"
  · subst hwalk
    simp
  · by_cases hanalysis : name = "analysis"
    · subst hanalysis
      simp
    · simp [hwalk, hanalysis, Ne.symm hwalk, Ne.symm hanalysis]

theorem sound_usualNames {fields : List (String × Json)} (h : (Json.obj fields).Sound) :
    (Value.ofJson (usualNames (.obj fields))).Sound := by
  have hfile : (Value.table (Value.ofFields fields)).Sound := Value.sound_ofJson h
  rw [ofJson_usualNames]
  refine Value.everywhere_table_iff.2 ⟨?_, fun name w hw => ?_⟩
  · show (((Value.ofFields fields).map _).map Prod.fst).Nodup
    rw [List.map_map]
    exact hfile.nodup
  · rw [Entries.lookup_map usualGroup] at hw
    obtain ⟨v, hv, rfl⟩ := Option.map_eq_some_iff.1 hw
    unfold usualGroup
    split
    · exact hfile.of_lookup hv
    · exact Value.sound_rename _ _ (hfile.of_lookup hv)

theorem leaf?_usualGroup (group : String) (v : Value) : (usualGroup group v).leaf? = v.leaf? := by
  unfold usualGroup
  split
  · rfl
  · exact Value.leaf?_rename _ _ v

/-- Inside a group, the usual names lead to what the file says. -/
theorem getAt?_usualGroup (fields : List (String × Value)) (group name : String)
    (rest : List String) :
    ((fields.lookup group).bind fun v => (usualGroup group v).getAt? (name :: rest)) =
      fileGives? (.table fields) (group :: name :: rest) := by
  rw [fileGives?]
  unfold usualGroup
  cases hgroup : fields.lookup group with
  | none => cases aliasIn? group <;> simp [hgroup]
  | some v =>
    cases halias : aliasIn? group with
    | none => simp [hgroup]
    | some a =>
      cases htable : v.isTable with
      | false =>
        simp [hgroup, Value.rename_of_not_isTable htable, Value.getAt?_cons_of_not_isTable htable]
      | true =>
        obtain ⟨inner, rfl⟩ := Value.isTable_iff.1 htable
        have hne := other_ne_name halias
        simp only [Value.rename, Option.bind_some, Value.getAt?_table_cons, hgroup,
          Entries.lookup_rename, Value.getAt?_nil]
        -- nothing is left under the other name, so that it is asked for first
        by_cases hother : name = a.other
        · subst hother
          cases hlookup : inner.lookup a.other <;> simp [hne]
        · cases hlookup : inner.lookup a.other with
          | none => simp [hother]
          | some w => by_cases hname : name = a.name <;> simp [hother, hname, hne.symm]

/-- The layer of a file says what the file says. -/
theorem tells_fileGives? (fields : List (String × Json)) :
    Value.Tells (fileGives? (.ofJson (.obj fields))) (.ofJson (usualNames (.obj fields))) := by
  intro path
  rw [ofJson_usualNames]
  show (fileGives? (.table (Value.ofFields fields)) path).map _ = _
  match path with
  | [] => rfl
  | [name] =>
    show ((Value.table (Value.ofFields fields)).getAt? [name]).map Value.leaf? = _
    rw [Value.getAt?_table_cons, Value.getAt?_table_cons, Entries.lookup_map usualGroup]
    cases (Value.ofFields fields).lookup name with
    | none => rfl
    | some v => simp [leaf?_usualGroup]
  | group :: name :: rest =>
    rw [← getAt?_usualGroup, Value.getAt?_table_cons, Entries.lookup_map usualGroup,
      Option.bind_map]
    rfl

/-! ## files -/

/-- The table in a settings file, as it stands there; one that is nowhere to be found is empty. -/
def fileTable? (fs : FileSystem) (path : String) : Option Value :=
  match settingsFile? fs path with
  | none => some (.table [])
  | some bytes => ((bytes.bind Text.Utf8.decode?).bind Toml.read).map Value.ofJson

/-- The table in the project file, if there is one. -/
def projectTable? (fs : FileSystem) (path : String) : Option Value :=
  if fs.contains (Text.bytes path) then fileTable? fs path else some (.table [])

/-- The table in a file that was asked for. -/
def explicitTable? (fs : FileSystem) : Option String → Option Value
  | none => some (.table [])
  | some path => if fs.contains (Text.bytes path) then fileTable? fs path else none

/-- A layer that is sound and says what the table of a file says. -/
structure IsLayerOf (layer file : Value) : Prop where
  sound : layer.Sound
  tells : Value.Tells (fileGives? file) layer

theorem isLayerOf_nil : IsLayerOf (.table []) (.table []) :=
  ⟨Value.sound_table_nil, tells_fileGives? []⟩

theorem isLayerOf_fileLayer {fs : FileSystem} {path : String} {layer file : Value}
    (h : fileLayer fs path = .ok layer) (hfile : fileTable? fs path = some file) :
    IsLayerOf layer file := by
  unfold fileLayer at h
  unfold fileTable? at hfile
  split at h
  · rename_i hbytes
    rw [hbytes] at hfile
    cases h
    cases hfile
    exact isLayerOf_nil
  · rename_i bytes hbytes
    rw [hbytes] at hfile
    dsimp only at hfile
    split at h
    · rename_i v hv
      rw [hv] at hfile
      cases h
      cases hfile
      obtain ⟨text, -, hread⟩ := Option.bind_eq_some_iff.1 hv
      obtain ⟨fields, rfl, hsound⟩ := Toml.sound_read hread
      exact ⟨sound_usualNames hsound, tells_fileGives? fields⟩
    · cases h

theorem isLayerOf_projectLayer {fs : FileSystem} {path : String} {layer file : Value}
    (h : projectLayer fs path = .ok layer) (hfile : projectTable? fs path = some file) :
    IsLayerOf layer file := by
  unfold projectLayer at h
  unfold projectTable? at hfile
  split at h
  · rename_i hpath
    rw [if_pos hpath] at hfile
    exact isLayerOf_fileLayer h hfile
  · rename_i hpath
    rw [if_neg hpath] at hfile
    cases h
    cases hfile
    exact isLayerOf_nil

theorem isLayerOf_explicitLayer {fs : FileSystem} {path : Option String} {layer file : Value}
    (h : explicitLayer fs path = .ok layer) (hfile : explicitTable? fs path = some file) :
    IsLayerOf layer file := by
  cases path with
  | none =>
    cases h
    cases hfile
    exact isLayerOf_nil
  | some path =>
    rw [explicitLayer] at h
    rw [explicitTable?] at hfile
    split at h
    · rename_i hpath
      rw [if_pos hpath] at hfile
      exact isLayerOf_fileLayer h hfile
    · cases h

end Settings

end SourceAtlas
