import Mathlib.Data.List.Nodup
import SourceAtlas.Json.Basic
import SourceAtlas.Ordered.Table

/-!
JSON values up to the order of fields.

* `Json.ind`: induction over the items and fields of a value.
* `Json.Throughout`: a property of all values in a value. `Json.Sorted`: all objects have their
  names in increasing order.
* `Json.Sound`: a value without nulls in which no object has a name twice.
* `Json.canonical`: a value with its objects sorted; a sorted value stays as it is.
* `Json.Rearranges`: a map that changes nothing but the order of fields, such as `canonical`.
-/

namespace SourceAtlas.Json

/-- Induction over the items of arrays and the fields of objects. -/
theorem ind {P : Json → Prop} (null : P .null) (bool : ∀ b, P (.bool b)) (int : ∀ n, P (.int n))
    (float : ∀ x, P (.float x)) (str : ∀ s, P (.str s))
    (arr : ∀ items, (∀ v ∈ items, P v) → P (.arr items))
    (obj : ∀ fields, (∀ field ∈ fields, P field.2) → P (.obj fields)) : ∀ v : Json, P v
  | .null => null
  | .bool b => bool b
  | .int n => int n
  | .float x => float x
  | .str s => str s
  | .arr items => arr items fun v _ => ind null bool int float str arr obj v
  | .obj fields => obj fields fun field _ => ind null bool int float str arr obj field.2
termination_by v => v
decreasing_by
  · rename_i hv
    have hlt := List.sizeOf_lt_of_mem hv
    simp only [Json.arr.sizeOf_spec]
    omega
  · rename_i hfield
    have hlt := List.sizeOf_lt_of_mem hfield
    obtain ⟨name, v⟩ := field
    simp only [Prod.mk.sizeOf_spec, Json.obj.sizeOf_spec] at hlt ⊢
    omega

/-! ## properties of all values in a value -/

mutual

/-- A property of a value and of all values in it. -/
def Throughout (P : Json → Prop) : Json → Prop
  | .arr items => P (.arr items) ∧ ThroughoutItems P items
  | .obj fields => P (.obj fields) ∧ ThroughoutFields P fields
  | v => P v

def ThroughoutItems (P : Json → Prop) : List Json → Prop
  | [] => True
  | v :: vs => Throughout P v ∧ ThroughoutItems P vs

def ThroughoutFields (P : Json → Prop) : List (String × Json) → Prop
  | [] => True
  | field :: fields => ThroughoutField P field ∧ ThroughoutFields P fields

def ThroughoutField (P : Json → Prop) : String × Json → Prop
  | (_, v) => Throughout P v

end

variable {P : Json → Prop}

theorem throughoutItems_iff {items : List Json} :
    ThroughoutItems P items ↔ ∀ v ∈ items, v.Throughout P := by
  induction items with
  | nil => simp [ThroughoutItems]
  | cons v vs ih => simp [ThroughoutItems, ih]

theorem throughoutFields_iff {fields : List (String × Json)} :
    ThroughoutFields P fields ↔ ∀ field ∈ fields, field.2.Throughout P := by
  induction fields with
  | nil => simp [ThroughoutFields]
  | cons field fields ih =>
    obtain ⟨name, v⟩ := field
    simp [ThroughoutFields, ThroughoutField, ih]

@[simp]
theorem throughout_arr {items : List Json} :
    (arr items).Throughout P ↔ P (.arr items) ∧ ∀ v ∈ items, v.Throughout P := by
  rw [Throughout, throughoutItems_iff]

@[simp]
theorem throughout_obj {fields : List (String × Json)} :
    (obj fields).Throughout P ↔ P (.obj fields) ∧ ∀ field ∈ fields, field.2.Throughout P := by
  rw [Throughout, throughoutFields_iff]

/-! ## fields in order -/

/-- The names of fields increase. -/
def Increasing (fields : List (String × Json)) : Prop := fields.Pairwise fun a b => a.1 < b.1

theorem increasing_iff_names {fields : List (String × Json)} :
    Increasing fields ↔ (fields.map Prod.fst).Pairwise (· < ·) :=
  List.pairwise_map.symm

/-- The value is no object, or its names increase. -/
def InOrder : Json → Prop
  | .obj fields => Increasing fields
  | _ => True

/-- The names increase in all objects of a value. -/
def Sorted (v : Json) : Prop := v.Throughout InOrder

@[simp]
theorem sorted_null : null.Sorted := by simp [Sorted, Throughout, InOrder]

@[simp]
theorem sorted_bool (b : Bool) : (bool b).Sorted := by simp [Sorted, Throughout, InOrder]

@[simp]
theorem sorted_int (n : Int) : (int n).Sorted := by simp [Sorted, Throughout, InOrder]

@[simp]
theorem sorted_float (x : Float) : (float x).Sorted := by simp [Sorted, Throughout, InOrder]

@[simp]
theorem sorted_str (s : String) : (str s).Sorted := by simp [Sorted, Throughout, InOrder]

theorem sorted_arr {items : List Json} : (arr items).Sorted ↔ ∀ v ∈ items, v.Sorted := by
  simp [Sorted, InOrder]

theorem sorted_obj {fields : List (String × Json)} :
    (obj fields).Sorted ↔ Increasing fields ∧ ∀ field ∈ fields, field.2.Sorted := by
  simp [Sorted, InOrder]

/-- Fields are put into their places as entries are into a table. -/
theorem setField_eq_insertInto (name : String) (v : Json) (fields : List (String × Json)) :
    setField name v fields = Table.insertInto name v fields := by
  induction fields with
  | nil => rfl
  | cons field rest ih => rw [setField, Table.insertInto, ih]

theorem lookup_setField (name other : String) (v : Json) (fields : List (String × Json)) :
    (setField name v fields).lookup other =
      if other = name then some v else fields.lookup other := by
  rw [setField_eq_insertInto, Table.lookup_insertInto]

theorem mem_setField {name : String} {v : Json} {fields : List (String × Json)}
    {field : String × Json} (h : field ∈ setField name v fields) :
    field = (name, v) ∨ field ∈ fields := by
  rw [setField_eq_insertInto] at h
  exact Table.key_of_mem_insertInto h

theorem increasing_setField {name : String} {v : Json} {fields : List (String × Json)}
    (h : Increasing fields) : Increasing (setField name v fields) := by
  rw [setField_eq_insertInto]
  exact Table.sorted_insertInto h

/-- A field whose name is greater than all others comes last. -/
theorem setField_of_forall_lt {name : String} {v : Json} {fields : List (String × Json)}
    (h : ∀ field ∈ fields, field.1 < name) : setField name v fields = fields ++ [(name, v)] := by
  induction fields with
  | nil => rfl
  | cons first rest ih =>
    have hfirst := h first List.mem_cons_self
    rw [setField, if_neg (String.lt_asymm hfirst), if_neg (String.ne_of_lt hfirst).symm,
      ih fun field hfield => h field (List.mem_cons_of_mem _ hfield)]
    rfl

/-! ## the canonical form -/

/-- Fields put into their places one by one. -/
def setFields (done fields : List (String × Json)) : List (String × Json) :=
  fields.foldl (fun done field => setField field.1 field.2 done) done

mutual

/-- The value with the fields of all objects in increasing order of their names. -/
def canonical : Json → Json
  | .arr items => .arr (canonicalItems items)
  | .obj fields => .obj (setFields [] (canonicalFields fields))
  | v => v

def canonicalItems : List Json → List Json
  | [] => []
  | v :: vs => canonical v :: canonicalItems vs

def canonicalFields : List (String × Json) → List (String × Json)
  | [] => []
  | field :: fields => canonicalField field :: canonicalFields fields

def canonicalField : String × Json → String × Json
  | (name, v) => (name, canonical v)

end

theorem canonicalItems_eq_map (items : List Json) : canonicalItems items = items.map canonical := by
  induction items with
  | nil => rfl
  | cons v vs ih => rw [canonicalItems, ih, List.map_cons]

theorem canonicalFields_eq_map (fields : List (String × Json)) :
    canonicalFields fields = fields.map fun field => (field.1, field.2.canonical) := by
  induction fields with
  | nil => rfl
  | cons field fields ih => rw [canonicalFields, ih, List.map_cons, canonicalField]

@[simp]
theorem canonical_arr (items : List Json) : (arr items).canonical = .arr (items.map canonical) := by
  rw [canonical, canonicalItems_eq_map]

@[simp]
theorem canonical_obj (fields : List (String × Json)) :
    (obj fields).canonical =
      .obj (setFields [] (fields.map fun field => (field.1, field.2.canonical))) := by
  rw [canonical, canonicalFields_eq_map]

theorem setFields_of_increasing {done fields : List (String × Json)}
    (h : Increasing (done ++ fields)) : setFields done fields = done ++ fields := by
  induction fields generalizing done with
  | nil => simp [setFields]
  | cons field fields ih =>
    have hlt : ∀ other ∈ done, other.1 < field.1 := fun other hother =>
      (List.pairwise_append.1 h).2.2 other hother field List.mem_cons_self
    have hassoc : done ++ field :: fields = (done ++ [field]) ++ fields := by simp
    have hstep : setFields done (field :: fields) =
        setFields (setField field.1 field.2 done) fields := rfl
    rw [hstep, setField_of_forall_lt hlt, hassoc]
    exact ih (hassoc ▸ h)

/-- A sorted value is its own canonical form. -/
theorem canonical_of_sorted {v : Json} (h : v.Sorted) : v.canonical = v := by
  induction v using ind with
  | arr items ih =>
    have hitems : items.map canonical = items.map id :=
      List.map_congr_left fun v hv => ih v hv (sorted_arr.1 h v hv)
    rw [canonical_arr, hitems, List.map_id]
  | obj fields ih =>
    obtain ⟨horder, hsorted⟩ := sorted_obj.1 h
    have hfields : (fields.map fun field => (field.1, field.2.canonical)) = fields.map id :=
      List.map_congr_left fun field hfield => by rw [ih field hfield (hsorted field hfield), id]
    rw [canonical_obj, hfields, List.map_id]
    exact congrArg obj (setFields_of_increasing horder)
  | _ => simp [canonical]

theorem lookup_setFields {done fields : List (String × Json)}
    (h : (fields.map Prod.fst).Nodup) (name : String) :
    (setFields done fields).lookup name = (fields.lookup name).or (done.lookup name) := by
  induction fields generalizing done with
  | nil => simp [setFields]
  | cons field fields ih =>
    obtain ⟨key, v⟩ := field
    rw [List.map_cons, List.nodup_cons] at h
    have hstep : setFields done ((key, v) :: fields) = setFields (setField key v done) fields := rfl
    rw [hstep, ih h.2, lookup_setField]
    by_cases hname : name = key
    · subst hname
      simp [Entries.lookup_eq_none_of_not_mem h.1]
    · simp [hname, Entries.lookup_cons_of_ne hname]

theorem lookup_map_snd (f : Json → Json) (fields : List (String × Json)) (name : String) :
    (fields.map fun field => (field.1, f field.2)).lookup name = (fields.lookup name).map f :=
  Entries.lookup_map (fun _ => f) fields name

/-! ## sound values -/

/-- A truth value, a number or a text. -/
def isScalar : Json → Bool
  | bool _ | int _ | float _ | str _ => true
  | _ => false

/-- The value is not null, and no name stands twice in it. -/
def IsSound : Json → Prop
  | null => False
  | obj fields => (fields.map Prod.fst).Nodup
  | _ => True

abbrev Sound (v : Json) : Prop := v.Throughout IsSound

theorem sound_of_isScalar {v : Json} (h : v.isScalar = true) : v.Sound := by
  cases v <;> simp_all [isScalar, Throughout, IsSound]

theorem sound_arr {items : List Json} (h : ∀ v ∈ items, v.Sound) : (arr items).Sound :=
  throughout_arr.2 ⟨trivial, h⟩

theorem sound_obj_iff {fields : List (String × Json)} :
    (obj fields).Sound ↔ (fields.map Prod.fst).Nodup ∧ ∀ field ∈ fields, field.2.Sound :=
  throughout_obj

theorem nodup_of_increasing {fields : List (String × Json)} (h : Increasing fields) :
    (fields.map Prod.fst).Nodup :=
  (increasing_iff_names.1 h).imp fun hlt => String.ne_of_lt hlt

/-! ## maps that change the order of fields -/

/-- Nothing but the order of fields is changed, and only where names do not increase. -/
structure Rearranges (f : Json → Json) : Prop where
  null : f .null = .null
  bool (b : Bool) : f (.bool b) = .bool b
  int (n : Int) : f (.int n) = .int n
  str (s : String) : f (.str s) = .str s
  arr (items : List Json) : f (.arr items) = .arr (items.map f)
  obj {fields : List (String × Json)} (h : (fields.map Prod.fst).Nodup) :
    ∃ fields', f (.obj fields) = .obj fields' ∧
      ∀ name, fields'.lookup name = (fields.lookup name).map f
  sorted {v : Json} (h : v.Sorted) : f v = v

theorem rearranges_id : Rearranges id where
  null := rfl
  bool _ := rfl
  int _ := rfl
  str _ := rfl
  arr _ := by simp
  obj {fields} _ := ⟨fields, rfl, by simp⟩
  sorted _ := rfl

theorem rearranges_canonical : Rearranges canonical where
  null := by simp [canonical]
  bool _ := by simp [canonical]
  int _ := by simp [canonical]
  str _ := by simp [canonical]
  arr := canonical_arr
  obj {fields} h := by
    refine ⟨_, canonical_obj fields, fun name => ?_⟩
    rw [lookup_setFields (by simpa [Function.comp_def] using h), lookup_map_snd]
    simp
  sorted := canonical_of_sorted

end SourceAtlas.Json
