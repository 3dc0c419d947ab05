import SourceAtlas.Proofs.LayerSources

/-!
How settings are read from a value.

* `Settings.layer`: the layer that sets everything as given settings have it.
* `Settings.Decides`: what is given and what takes effect. They are the same, except that a ratio
  may be given as a whole number and that excluded names become a set.
* `Settings.Encodes`: what a decoder makes of a value is decided by that value. There is one lemma
  for each decoder and one for each group of settings.
* `Settings.encodes_settings`: every leaf of settings that were read is decided by the value they
  were read from.
-/

namespace SourceAtlas

/-! ## values and JSON -/

namespace Value

theorem itemsJson_eq_map (items : List Value) : itemsJson items = items.map toJson := by
  induction items with
  | nil => rfl
  | cons v rest ih => rw [itemsJson, ih, List.map_cons]

theorem ofItems_eq_map (items : List Json) : ofItems items = items.map ofJson := by
  induction items with
  | nil => rfl
  | cons v rest ih => rw [ofItems, ih, List.map_cons]

theorem fieldsJson_eq_map (fields : List (String × Value)) :
    fieldsJson fields = fields.map fun field => (field.1, toJson field.2) := by
  induction fields with
  | nil => rfl
  | cons field rest ih => rw [fieldsJson, fieldJson, ih, List.map_cons]

theorem lookup_fieldsJson (fields : List (String × Value)) (name : String) :
    (fieldsJson fields).lookup name = (fields.lookup name).map toJson := by
  rw [fieldsJson_eq_map]
  exact Entries.lookup_map (fun _ => toJson) fields name

@[simp]
theorem toJson_ofJson (v : Json) : (ofJson v).toJson = v := by
  induction v using Json.ind with
  | arr items ih =>
    rw [ofJson, toJson, ofItems_eq_map, itemsJson_eq_map, List.map_map]
    exact congrArg Json.arr ((List.map_congr_left ih).trans (List.map_id items))
  | obj fields ih =>
    rw [ofJson, toJson, ofFields_eq_map, fieldsJson_eq_map, List.map_map]
    refine congrArg Json.obj (Eq.trans (List.map_congr_left fun field hfield => ?_)
      (List.map_id fields))
    exact Prod.ext rfl (ih field hfield)
  | null | bool _ | int _ | float _ | str _ => rfl

end Value

/-! ## what is decoded -/

namespace Json

theorem eq_of_bool? {v : Json} {b : Bool} (h : v.bool? = some b) : v = .bool b := by
  cases v <;> cases h
  rfl

theorem eq_of_str? {v : Json} {s : String} (h : v.str? = some s) : v = .str s := by
  cases v <;> cases h
  rfl

theorem eq_of_nat? {v : Json} {n : Nat} (h : v.nat? = some n) : v = natural n := by
  cases v with
  | int value =>
    cases value with
    | ofNat m =>
      cases h
      rfl
    | negSucc m => cases h
  | null | bool _ | float _ | str _ | arr _ | obj _ => cases h

theorem eq_of_word32? {v : Json} {w : UInt32} (h : v.word32? = some w) : v = ofWord w := by
  obtain ⟨n, hn, hw⟩ := Option.bind_eq_some_iff.1 h
  split at hw
  · rename_i hlt
    cases hw
    rw [eq_of_nat? hn, ofWord, UInt32.toNat_ofNat_of_lt' hlt]
  · cases hw

theorem eq_or_eq_of_ratio? {v : Json} {x : Float} (h : v.ratio? = some x) :
    v = .float x ∨ ∃ n, v = .int n ∧ x = .ofInt n := by
  cases v with
  | float y =>
    cases h
    exact Or.inl rfl
  | int n =>
    cases h
    exact Or.inr ⟨n, rfl, rfl⟩
  | null | bool _ | str _ | arr _ | obj _ => cases h

theorem eq_of_mapM_str? {items : List Json} {texts : List String}
    (h : items.mapM str? = some texts) : items = texts.map .str := by
  induction items generalizing texts with
  | nil =>
    cases h
    rfl
  | cons v rest ih =>
    simp only [List.mapM_cons, Option.bind_eq_bind, Option.bind_eq_some_iff, Option.pure_def] at h
    obtain ⟨text, htext, others, hothers, heq⟩ := h
    cases heq
    rw [List.map_cons, eq_of_str? htext, ih hothers]

theorem eq_of_texts? {v : Json} {texts : List String} (h : v.texts? = some texts) :
    v = strings texts := by
  obtain ⟨items, hitems, htexts⟩ := Option.bind_eq_some_iff.1 h
  cases v <;> cases hitems
  rw [eq_of_mapM_str? htexts, strings]

end Json

namespace Settings

/-! ## what is set and what takes effect -/

/-- The layer that sets everything as it is in `s`. -/
def layer (s : Settings) : Value := .ofJson s.toJson

/-- The path of the names of directories that are left out. -/
def excludedPath : List String := ["walk", "excluded_directory_names"]

/-- The path of the table of extensions. -/
def extensionsPath : List String := ["analysis", "supported_extensions"]

/-- What is given at a path decides what takes effect there. A ratio may be given as a whole number,
and excluded names are put in order. -/
inductive Decides (path : List String) : Json → Json → Prop where
  | same (v : Json) : Decides path v v
  | ratio (n : Int) : Decides path (.int n) (.float (.ofInt n))
  | names (h : path = excludedPath) (given : List String) :
    Decides path (.strings given) (.strings (NameSet.ofList given).toList)

/-- All leaves of `kept`, which is at the path `front`, are decided by `given`. -/
def Reads (front : List String) (given kept : Value) : Prop :=
  ∀ path w, kept.getAt? path = some w → w.isTable = false →
    ∃ v, given.getAt? path = some v ∧ Decides (front ++ path) v.toJson w.toJson

theorem reads_obj {front : List String} {given : List (String × Value)}
    {fields : List (String × Json)}
    (h : ∀ field ∈ fields, ∃ v, given.lookup field.1 = some v ∧
      Reads (front ++ [field.1]) v (.ofJson field.2)) :
    Reads front (.table given) (.ofJson (.obj fields)) := by
  intro path w hw hleaf
  cases path with
  | nil =>
    cases hw
    cases hleaf
  | cons name rest =>
    obtain ⟨below, hbelow, hrest⟩ := Option.bind_eq_some_iff.1 hw
    rw [Value.lookup_ofFields] at hbelow
    obtain ⟨j, hj, rfl⟩ := Option.map_eq_some_iff.1 hbelow
    obtain ⟨v, hv, hreads⟩ := h (name, j) (Entries.mem_of_lookup hj)
    obtain ⟨x, hx, hdecides⟩ := hreads rest w hrest hleaf
    refine ⟨x, by simp [hv, hx], ?_⟩
    rwa [List.append_assoc] at hdecides

theorem reads_leaf {front : List String} {v : Value} {j : Json}
    (h : Decides front v.toJson j) (hleaf : (Value.ofJson j).isTable = false) :
    Reads front v (.ofJson j) := by
  intro path w hw _
  cases path with
  | nil =>
    cases hw
    exact ⟨v, Value.getAt?_nil v, by simpa using h⟩
  | cons name rest =>
    rw [Value.getAt?_cons_of_not_isTable hleaf] at hw
    cases hw

/-- `v` has something wherever `base` has, and a table where `base` has one. -/
def Covers (base v : Value) : Prop :=
  ∀ path b, base.getAt? path = some b → ∃ w, v.getAt? path = some w ∧ (b.isTable → w.isTable)

theorem Covers.exists_table {fields : List (String × Json)} {v : Value}
    (h : Covers (.ofJson (.obj fields)) v) : ∃ given, v = .table given := by
  obtain ⟨w, hw, htable⟩ := h [] _ rfl
  cases hw
  exact Value.isTable_iff.1 (htable rfl)

theorem Covers.exists_lookup {fields : List (String × Json)} {given : List (String × Value)}
    (h : Covers (.ofJson (.obj fields)) (.table given)) (name : String) {j : Json}
    (hj : fields.lookup name = some j) :
    ∃ v, given.lookup name = some v ∧ Covers (.ofJson j) v := by
  have hbase : ∀ path, (Value.ofJson (.obj fields)).getAt? (name :: path) =
      (Value.ofJson j).getAt? path := by
    intro path
    show ((Value.ofFields fields).lookup name).bind _ = _
    rw [Value.lookup_ofFields, hj]
    rfl
  obtain ⟨v, hv, -⟩ := h [name] _ (hbase [])
  have hlookup : given.lookup name = some v := by simpa using hv
  refine ⟨v, hlookup, fun path b hb => ?_⟩
  obtain ⟨w, hw, htable⟩ := h (name :: path) b ((hbase path).trans hb)
  exact ⟨w, by simpa [hlookup] using hw, htable⟩

/-! ## single settings -/

/-- What is decoded at the path `front`, from a value that covers the standard one, is decided by
that value. -/
def Encodes {α : Type} (front : List String) (standard : Json) (decode : Json → Option α)
    (encode : α → Json) : Prop :=
  ∀ v x, v.Sound → Covers (.ofJson standard) v → decode v.toJson = some x →
    Reads front v (.ofJson (encode x))

section Leaves

variable (front : List String) (standard : Json)

theorem encodes_of_eq {α : Type} {decode : Json → Option α} {encode : α → Json}
    (h : ∀ {v x}, decode v = some x → v = encode x)
    (hleaf : ∀ x, (Value.ofJson (encode x)).isTable = false) :
    Encodes front standard decode encode := by
  intro v x _ _ hx
  refine reads_leaf ?_ (hleaf x)
  rw [h hx]
  exact .same _

theorem encodes_bool : Encodes front standard Json.bool? .bool :=
  encodes_of_eq front standard Json.eq_of_bool? fun _ => rfl

theorem encodes_str : Encodes front standard Json.str? .str :=
  encodes_of_eq front standard Json.eq_of_str? fun _ => rfl

theorem encodes_nat : Encodes front standard Json.nat? .natural :=
  encodes_of_eq front standard Json.eq_of_nat? fun _ => rfl

theorem encodes_word32 : Encodes front standard Json.word32? Json.ofWord :=
  encodes_of_eq front standard Json.eq_of_word32? fun _ => rfl

theorem encodes_texts : Encodes front standard Json.texts? .strings :=
  encodes_of_eq front standard Json.eq_of_texts? fun _ => rfl

theorem encodes_ratio : Encodes front standard Json.ratio? .float := by
  intro v x _ _ hx
  refine reads_leaf ?_ rfl
  rcases Json.eq_or_eq_of_ratio? hx with hv | ⟨n, hv, rfl⟩
  · rw [hv]
    exact .same _
  · rw [hv]
    exact .ratio n

theorem encodes_excludedNames : Encodes (["walk"] ++ ["excluded_directory_names"]) standard
    Metadata.namesOfJson? fun names => .strings names.toList := by
  intro v x _ _ hx
  obtain ⟨given, hgiven, rfl⟩ := Option.map_eq_some_iff.1 hx
  refine reads_leaf ?_ rfl
  rw [Json.eq_of_texts? hgiven]
  exact .names rfl given

end Leaves

section Fields

variable {α : Type} {name other : String} {decode : Json → Option α}
  {given : List (String × Value)} {standard x : α}

theorem decode_of_setting {v : Value} (hv : given.lookup name = some v)
    (hx : Json.setting (Value.fieldsJson given) name standard decode = some x) :
    decode v.toJson = some x := by
  rw [Json.setting, Value.lookup_fieldsJson, hv] at hx
  exact hx

theorem decode_of_renamedSetting {v : Value} (hv : given.lookup name = some v)
    (hx : Json.renamedSetting (Value.fieldsJson given) name other standard decode = some x) :
    decode v.toJson = some x := by
  rw [Json.renamedSetting, Value.lookup_fieldsJson, hv] at hx
  split at hx
  · rename_i hnone _
    cases hnone
  · rename_i w hw _
    cases hw
    exact hx
  · rename_i hnone _
    cases hnone
  · cases hx

variable (front : List String) {j : Json} {encode : α → Json} {fields : List (String × Json)}
  (h : Encodes (front ++ [name]) j decode encode) (hgiven : (Value.table given).Sound)
  (hcovers : Covers (.ofJson (.obj fields)) (.table given)) (hj : fields.lookup name = some j)

include h hgiven hcovers hj

theorem Encodes.setting
    (hx : Json.setting (Value.fieldsJson given) name standard decode = some x) :
    ∃ v, given.lookup name = some v ∧ Reads (front ++ [name]) v (.ofJson (encode x)) := by
  obtain ⟨v, hv, hbelow⟩ := hcovers.exists_lookup name hj
  exact ⟨v, hv, h v x (hgiven.of_lookup hv) hbelow (decode_of_setting hv hx)⟩

theorem Encodes.renamedSetting
    (hx : Json.renamedSetting (Value.fieldsJson given) name other standard decode = some x) :
    ∃ v, given.lookup name = some v ∧ Reads (front ++ [name]) v (.ofJson (encode x)) := by
  obtain ⟨v, hv, hbelow⟩ := hcovers.exists_lookup name hj
  exact ⟨v, hv, h v x (hgiven.of_lookup hv) hbelow (decode_of_renamedSetting hv hx)⟩

end Fields

/-! ## extensions -/

theorem eq_id_of_ofId? {name : String} {l : Language} (h : Language.ofId? name = some l) :
    name = l.id := by
  have hid : l.id = name := by simpa using List.find?_some h
  exact hid.symm

/-- In a sound value, only a text names a language. -/
theorem toJson_eq_id_of_ofJson? {v : Value} (hv : v.Sound) {l : Language}
    (h : Language.ofJson? v.toJson = some l) : v.toJson = .str l.id := by
  obtain ⟨name, hname, hl⟩ := Option.bind_eq_some_iff.1 h
  rw [← eq_id_of_ofId? hl]
  cases v with
  | plain j =>
    have hscalar : j.isScalar = true := hv.self
    cases j with
    | str s =>
      cases hname
      rfl
    | bool _ | int _ | float _ => cases hname
    | null | arr _ | obj _ => cases hscalar
  | character c =>
    cases hname
    rfl
  | list items => cases hname
  | table fields =>
    -- the object would have a null in it
    rw [Value.toJson] at hname
    unfold Json.choice? at hname
    split at hname
    · rename_i heq
      cases heq
    · rename_i key heq
      have hlookup := Value.lookup_fieldsJson fields key
      rw [Json.obj.inj heq, List.lookup_cons_self] at hlookup
      obtain ⟨w, hw, hnull⟩ := Option.map_eq_some_iff.1 hlookup.symm
      have hsound := (hv.of_lookup hw).self
      cases w with
      | plain j =>
        cases hnull
        cases hsound
      | character _ | list _ | table _ => cases hnull
    · cases hname

theorem isTable_of_ofJson? {v : Value} (hv : v.Sound) {l : Language}
    (h : Language.ofJson? v.toJson = some l) : v.isTable = false := by
  have htext := toJson_eq_id_of_ofJson? hv h
  cases v with
  | table _ => cases htext
  | plain _ | character _ | list _ => rfl

theorem lookup_of_mapM {fields : List (String × Json)} {entries : List (String × Language)}
    (h : (fields.mapM fun e => (Language.ofJson? e.2).map fun l => (e.1, l)) = some entries) :
    entries.map Prod.fst = fields.map Prod.fst ∧
      (∀ key, entries.lookup key = (fields.lookup key).bind Language.ofJson?) ∧
      ∀ field ∈ fields, (Language.ofJson? field.2).isSome = true := by
  induction fields generalizing entries with
  | nil =>
    cases h
    exact ⟨rfl, fun _ => rfl, by simp⟩
  | cons field rest ih =>
    obtain ⟨name, v⟩ := field
    simp only [List.mapM_cons, Option.bind_eq_bind, Option.bind_eq_some_iff, Option.pure_def,
      Option.some.injEq, Option.map_eq_some_iff] at h
    obtain ⟨entry, ⟨l, hl, rfl⟩, others, hothers, rfl⟩ := h
    obtain ⟨hnames, hlookup, hsome⟩ := ih hothers
    refine ⟨by simp [hnames], fun key => ?_, ?_⟩
    · by_cases hkey : key = name
      · simp [hkey, hl]
      · rw [Entries.lookup_cons_of_ne hkey, Entries.lookup_cons_of_ne hkey, hlookup]
    · intro field hfield
      rcases List.mem_cons.1 hfield with rfl | hfield
      · simp [hl]
      · exact hsome field hfield

section Extensions

variable {given : List (String × Value)} {t : Table Language}
  (h : AnalysisSettings.extensionsOfJson? (Value.table given).toJson = some t)

include h

/-- The table of extensions has the languages that its value names. -/
theorem find?_of_extensionsOfJson? (hgiven : (given.map Prod.fst).Nodup) (key : String) :
    t.find? key = (given.lookup key).bind fun v => Language.ofJson? v.toJson := by
  rw [Value.toJson] at h
  obtain ⟨entries, hentries, rfl⟩ := Option.map_eq_some_iff.1 h
  obtain ⟨hnames, hlookup, -⟩ := lookup_of_mapM hentries
  have hnodup : (entries.map Prod.fst).Nodup := by
    rw [hnames, Value.fieldsJson_eq_map, List.map_map]
    exact hgiven
  rw [Table.find?_ofList, Entries.lookup_reverse hnodup, hlookup, Value.lookup_fieldsJson,
    Option.bind_map]
  rfl

theorem exists_language_of_extensionsOfJson? {key : String} {v : Value}
    (hv : given.lookup key = some v) : ∃ l, Language.ofJson? v.toJson = some l := by
  rw [Value.toJson] at h
  obtain ⟨entries, hentries, -⟩ := Option.map_eq_some_iff.1 h
  obtain ⟨-, -, hsome⟩ := lookup_of_mapM hentries
  have hlookup : (Value.fieldsJson given).lookup key = some v.toJson := by
    rw [Value.lookup_fieldsJson, hv, Option.map_some]
  exact Option.isSome_iff_exists.1 (hsome _ (Entries.mem_of_lookup hlookup))

end Extensions

theorem encodes_extensions (front : List String) :
    Encodes front (AnalysisSettings.extensionsJson Language.extensionTable)
      AnalysisSettings.extensionsOfJson? AnalysisSettings.extensionsJson := by
  intro v t hv hcovers h
  obtain ⟨given, rfl⟩ := hcovers.exists_table
  refine reads_obj fun field hfield => ?_
  obtain ⟨⟨key, l⟩, hentry, rfl⟩ := List.mem_map.1 hfield
  have hfind := Table.find?_eq_some_iff.2 hentry
  rw [find?_of_extensionsOfJson? h hv.nodup] at hfind
  obtain ⟨w, hw, hl⟩ := Option.bind_eq_some_iff.1 hfind
  refine ⟨w, hw, reads_leaf ?_ rfl⟩
  rw [toJson_eq_id_of_ofJson? (hv.of_lookup hw) hl]
  exact .same _

/-! ## groups of settings -/

theorem encodes_walk :
    Encodes ["walk"] WalkSettings.standard.toJson WalkSettings.ofJson? WalkSettings.toJson := by
  intro v s hv hcovers h
  obtain ⟨given, rfl⟩ := hcovers.exists_table
  obtain ⟨names, hnames, h⟩ := Option.bind_eq_some_iff.1 h
  obtain ⟨ignore, hignore, h⟩ := Option.bind_eq_some_iff.1 h
  obtain ⟨links, hlinks, h⟩ := Option.bind_eq_some_iff.1 h
  obtain ⟨parallel, hparallel, h⟩ := Option.bind_eq_some_iff.1 h
  cases h
  refine reads_obj ?_
  simp only [List.mem_cons, List.not_mem_nil, or_false, forall_eq_or_imp, forall_eq]
  exact ⟨(encodes_excludedNames _).renamedSetting _ hv hcovers rfl hnames,
    (encodes_bool _ _).setting _ hv hcovers rfl hignore,
    (encodes_bool _ _).setting _ hv hcovers rfl hlinks,
    (encodes_bool _ _).setting _ hv hcovers rfl hparallel⟩

theorem encodes_interpreter (front : List String) :
    Encodes front InterpreterSettings.standard.toJson InterpreterSettings.ofJson?
      InterpreterSettings.toJson := by
  intro v s hv hcovers h
  obtain ⟨given, rfl⟩ := hcovers.exists_table
  obtain ⟨enabled, henabled, h⟩ := Option.bind_eq_some_iff.1 h
  obtain ⟨command, hcommand, h⟩ := Option.bind_eq_some_iff.1 h
  obtain ⟨seconds, hseconds, h⟩ := Option.bind_eq_some_iff.1 h
  cases h
  refine reads_obj ?_
  simp only [List.mem_cons, List.not_mem_nil, or_false, forall_eq_or_imp, forall_eq]
  exact ⟨(encodes_bool _ _).setting _ hv hcovers rfl henabled,
    (encodes_str _ _).setting _ hv hcovers rfl hcommand,
    (encodes_nat _ _).setting _ hv hcovers rfl hseconds⟩

theorem encodes_analysis :
    Encodes ["analysis"] AnalysisSettings.standard.toJson AnalysisSettings.ofJson?
      AnalysisSettings.toJson := by
  intro v s hv hcovers h
  obtain ⟨given, rfl⟩ := hcovers.exists_table
  obtain ⟨extensions, hextensions, h⟩ := Option.bind_eq_some_iff.1 h
  obtain ⟨interpreter, hinterpreter, h⟩ := Option.bind_eq_some_iff.1 h
  obtain ⟨width, hwidth, h⟩ := Option.bind_eq_some_iff.1 h
  obtain ⟨bytes, hbytes, h⟩ := Option.bind_eq_some_iff.1 h
  obtain ⟨depth, hdepth, h⟩ := Option.bind_eq_some_iff.1 h
  cases h
  refine reads_obj ?_
  simp only [List.mem_cons, List.not_mem_nil, or_false, forall_eq_or_imp, forall_eq]
  exact ⟨(encodes_extensions _).renamedSetting _ hv hcovers rfl hextensions,
    (encodes_interpreter _).setting _ hv hcovers rfl hinterpreter,
    (encodes_nat _ _).setting _ hv hcovers rfl hwidth,
    (encodes_nat _ _).setting _ hv hcovers rfl hbytes,
    (encodes_nat _ _).setting _ hv hcovers rfl hdepth⟩

theorem encodes_scoring :
    Encodes ["scoring"] ScoringSettings.standard.toJson ScoringSettings.ofJson?
      ScoringSettings.toJson := by
  intro v s hv hcovers h
  obtain ⟨given, rfl⟩ := hcovers.exists_table
  obtain ⟨hints, hhints, h⟩ := Option.bind_eq_some_iff.1 h
  obtain ⟨entry, hentry, h⟩ := Option.bind_eq_some_iff.1 h
  obtain ⟨low, hlow, h⟩ := Option.bind_eq_some_iff.1 h
  obtain ⟨high, hhigh, h⟩ := Option.bind_eq_some_iff.1 h
  obtain ⟨size, hsize, h⟩ := Option.bind_eq_some_iff.1 h
  obtain ⟨functions, hfunctions, h⟩ := Option.bind_eq_some_iff.1 h
  obtain ⟨classes, hclasses, h⟩ := Option.bind_eq_some_iff.1 h
  obtain ⟨imports, himports, h⟩ := Option.bind_eq_some_iff.1 h
  obtain ⟨cap, hcap, h⟩ := Option.bind_eq_some_iff.1 h
  obtain ⟨limit, hlimit, h⟩ := Option.bind_eq_some_iff.1 h
  cases h
  refine reads_obj ?_
  simp only [List.mem_cons, List.not_mem_nil, or_false, forall_eq_or_imp, forall_eq]
  exact ⟨(encodes_texts _ _).setting _ hv hcovers rfl hhints,
    (encodes_word32 _ _).setting _ hv hcovers rfl hentry,
    (encodes_nat _ _).setting _ hv hcovers rfl hlow,
    (encodes_nat _ _).setting _ hv hcovers rfl hhigh,
    (encodes_word32 _ _).setting _ hv hcovers rfl hsize,
    (encodes_word32 _ _).setting _ hv hcovers rfl hfunctions,
    (encodes_word32 _ _).setting _ hv hcovers rfl hclasses,
    (encodes_word32 _ _).setting _ hv hcovers rfl himports,
    (encodes_word32 _ _).setting _ hv hcovers rfl hcap,
    (encodes_nat _ _).setting _ hv hcovers rfl hlimit⟩

theorem encodes_insights :
    Encodes ["insights"] InsightSettings.standard.toJson InsightSettings.ofJson?
      InsightSettings.toJson := by
  intro v s hv hcovers h
  obtain ⟨given, rfl⟩ := hcovers.exists_table
  obtain ⟨many, hmany, h⟩ := Option.bind_eq_some_iff.1 h
  obtain ⟨classes, hclasses, h⟩ := Option.bind_eq_some_iff.1 h
  obtain ⟨functions, hfunctions, h⟩ := Option.bind_eq_some_iff.1 h
  obtain ⟨components, hcomponents, h⟩ := Option.bind_eq_some_iff.1 h
  obtain ⟨state, hstate, h⟩ := Option.bind_eq_some_iff.1 h
  obtain ⟨imports, himports, h⟩ := Option.bind_eq_some_iff.1 h
  obtain ⟨routing, hrouting, h⟩ := Option.bind_eq_some_iff.1 h
  obtain ⟨services, hservices, h⟩ := Option.bind_eq_some_iff.1 h
  obtain ⟨service, hservice, h⟩ := Option.bind_eq_some_iff.1 h
  obtain ⟨tests, htests, h⟩ := Option.bind_eq_some_iff.1 h
  obtain ⟨configs, hconfigs, h⟩ := Option.bind_eq_some_iff.1 h
  obtain ⟨styling, hstyling, h⟩ := Option.bind_eq_some_iff.1 h
  obtain ⟨sheets, hsheets, h⟩ := Option.bind_eq_some_iff.1 h
  obtain ⟨features, hfeatures, h⟩ := Option.bind_eq_some_iff.1 h
  cases h
  refine reads_obj ?_
  simp only [List.mem_cons, List.not_mem_nil, or_false, forall_eq_or_imp, forall_eq]
  exact ⟨(encodes_nat _ _).setting _ hv hcovers rfl hmany,
    (encodes_ratio _ _).setting _ hv hcovers rfl hclasses,
    (encodes_ratio _ _).setting _ hv hcovers rfl hfunctions,
    (encodes_texts _ _).setting _ hv hcovers rfl hcomponents,
    (encodes_texts _ _).setting _ hv hcovers rfl hstate,
    (encodes_texts _ _).setting _ hv hcovers rfl himports,
    (encodes_texts _ _).setting _ hv hcovers rfl hrouting,
    (encodes_texts _ _).setting _ hv hcovers rfl hservices,
    (encodes_str _ _).setting _ hv hcovers rfl hservice,
    (encodes_texts _ _).setting _ hv hcovers rfl htests,
    (encodes_texts _ _).setting _ hv hcovers rfl hconfigs,
    (encodes_texts _ _).setting _ hv hcovers rfl hstyling,
    (encodes_texts _ _).setting _ hv hcovers rfl hsheets,
    (encodes_texts _ _).setting _ hv hcovers rfl hfeatures⟩

/-- Settings that were read are decided by the value they were read from. -/
theorem encodes_settings : Encodes [] standard.toJson ofJson? toJson := by
  intro v s hv hcovers h
  obtain ⟨given, rfl⟩ := hcovers.exists_table
  obtain ⟨walk, hwalk, h⟩ := Option.bind_eq_some_iff.1 h
  obtain ⟨analysis, hanalysis, h⟩ := Option.bind_eq_some_iff.1 h
  obtain ⟨scoring, hscoring, h⟩ := Option.bind_eq_some_iff.1 h
  obtain ⟨insights, hinsights, h⟩ := Option.bind_eq_some_iff.1 h
  cases h
  refine reads_obj ?_
  simp only [List.mem_cons, List.not_mem_nil, or_false, forall_eq_or_imp, forall_eq]
  exact ⟨encodes_walk.setting [] hv hcovers rfl hwalk,
    encodes_analysis.setting [] hv hcovers rfl hanalysis,
    encodes_scoring.setting [] hv hcovers rfl hscoring,
    encodes_insights.setting [] hv hcovers rfl hinsights⟩

/-- The table of extensions that is read from a value. -/
theorem extensions_of_ofJson? {v : Value} {s : Settings} (hcovers : Covers standard.layer v)
    (h : ofJson? v.toJson = some s) :
    ∃ fields, v.getAt? extensionsPath = some (.table fields) ∧
      AnalysisSettings.extensionsOfJson? (Value.table fields).toJson =
        some s.analysis.extensions := by
  obtain ⟨given, rfl⟩ := hcovers.exists_table
  obtain ⟨group, hgroup, hinner⟩ := hcovers.exists_lookup "analysis" rfl
  obtain ⟨inner, rfl⟩ := hinner.exists_table
  obtain ⟨extensions, hextensions, htable⟩ :=
    hinner.exists_lookup "supported_extensions" rfl
  obtain ⟨fields, rfl⟩ := htable.exists_table
  refine ⟨fields, by simp [extensionsPath, hgroup, hextensions], ?_⟩
  obtain ⟨walk, -, h⟩ := Option.bind_eq_some_iff.1 h
  obtain ⟨analysis, hanalysis, h⟩ := Option.bind_eq_some_iff.1 h
  obtain ⟨scoring, -, h⟩ := Option.bind_eq_some_iff.1 h
  obtain ⟨insights, -, h⟩ := Option.bind_eq_some_iff.1 h
  cases h
  have hread := decode_of_setting hgroup hanalysis
  obtain ⟨table, htable, hread⟩ := Option.bind_eq_some_iff.1 hread
  obtain ⟨interpreter, -, hread⟩ := Option.bind_eq_some_iff.1 hread
  obtain ⟨width, -, hread⟩ := Option.bind_eq_some_iff.1 hread
  obtain ⟨bytes, -, hread⟩ := Option.bind_eq_some_iff.1 hread
  obtain ⟨depth, -, hread⟩ := Option.bind_eq_some_iff.1 hread
  cases hread
  exact decode_of_renamedSetting hextensions htable

end Settings

end SourceAtlas
