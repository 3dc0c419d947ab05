import SourceAtlas.Proofs.JsonValues
import SourceAtlas.Settings.Value

/-!
What layers of values come to at a path.

* `Value.Everywhere`: a property of all values below a value. `Value.IsSound`: no table has a name
  twice, and only tables and lists contain anything.
* `Value.getAt?_merge`: what is at a path after a layer is put over another one. The layer wins
  where it says something, and it hides the other one where it `cuts` the path.
* `Value.highest?`: what the last layer says that says anything at a path.
* `Value.highest?_of_getAt?_foldl`: a leaf of merged layers is what the highest of them says there.
* `Value.isSome_getAt?_foldl_iff`: where no layer cuts a path, nothing at it gets lost.
-/

namespace SourceAtlas.Value

/-! ## paths -/

def isTable : Value → Bool
  | table _ => true
  | _ => false

theorem isTable_iff {v : Value} : v.isTable = true ↔ ∃ fields, v = table fields := by
  cases v <;> simp [isTable]

@[simp]
theorem getAt?_nil (v : Value) : v.getAt? [] = some v := by
  unfold getAt?
  rfl

@[simp]
theorem getAt?_table_cons (fields : List (String × Value)) (name : String) (rest : List String) :
    (table fields).getAt? (name :: rest) =
      (fields.lookup name).bind fun below => below.getAt? rest := rfl

theorem getAt?_cons_of_not_isTable {v : Value} (h : v.isTable = false) (name : String)
    (rest : List String) : v.getAt? (name :: rest) = none := by
  cases v with
  | table fields => simp [isTable] at h
  | plain _ | character _ | list _ => rfl

theorem getAt?_append (v : Value) (front rest : List String) :
    v.getAt? (front ++ rest) = (v.getAt? front).bind fun below => below.getAt? rest := by
  induction front generalizing v with
  | nil => simp
  | cons name front ih =>
    cases v with
    | table fields =>
      rw [List.cons_append, getAt?_table_cons, getAt?_table_cons, Option.bind_assoc]
      exact congrArg _ (funext fun below => ih below)
    | plain _ | character _ | list _ => rfl

/-- What lies on the way to a value is a table. -/
theorem isTable_of_getAt?_append {v w : Value} {front rest : List String} {name : String}
    (h : v.getAt? (front ++ name :: rest) = some w) :
    ∃ fields, v.getAt? front = some (table fields) := by
  rw [getAt?_append] at h
  obtain ⟨below, hbelow, hrest⟩ := Option.bind_eq_some_iff.1 h
  cases htable : below.isTable with
  | false =>
    rw [getAt?_cons_of_not_isTable htable] at hrest
    exact absurd hrest (by simp)
  | true =>
    obtain ⟨fields, rfl⟩ := isTable_iff.1 htable
    exact ⟨fields, hbelow⟩

/-- A path leads through something that is no table. -/
def cuts (v : Value) : List String → Bool
  | [] => false
  | name :: rest =>
    match v with
    | table fields =>
      match fields.lookup name with
      | none => false
      | some below => below.cuts rest
    | _ => true

theorem exists_of_cuts {v : Value} {path : List String} (h : v.cuts path = true) :
    ∃ front name rest w, path = front ++ name :: rest ∧ v.getAt? front = some w ∧
      w.isTable = false := by
  induction path generalizing v with
  | nil => simp [cuts] at h
  | cons name rest ih =>
    cases v with
    | table fields =>
      cases hlookup : fields.lookup name with
      | none => simp [cuts, hlookup] at h
      | some below =>
        have hbelow : below.cuts rest = true := by simpa [cuts, hlookup] using h
        obtain ⟨front, next, rest, w, rfl, hw, hleaf⟩ := ih hbelow
        exact ⟨name :: front, next, rest, w, rfl, by simp [hlookup, hw], hleaf⟩
    | plain _ | character _ | list _ => exact ⟨[], name, rest, _, rfl, getAt?_nil _, rfl⟩

/-! ## one layer over another -/

/-- `v` over a value, if there is one. -/
def atop (v : Value) : Option Value → Value
  | none => v
  | some base => base.merge v

theorem mergeField_eq (old : List (String × Value)) (name : String) (v : Value) :
    mergeField old (name, v) = Entries.put name (v.atop (old.lookup name)) old := by
  unfold mergeField
  cases old.lookup name <;> rfl

theorem lookup_mergeFields {fields : List (String × Value)} (h : (fields.map Prod.fst).Nodup)
    (old : List (String × Value)) (name : String) :
    (mergeFields old fields).lookup name =
      match fields.lookup name with
      | none => old.lookup name
      | some v => some (v.atop (old.lookup name)) := by
  induction fields generalizing old with
  | nil => simp [mergeFields]
  | cons field rest ih =>
    obtain ⟨key, v⟩ := field
    obtain ⟨hkey, hrest⟩ := List.nodup_cons.1 h
    rw [mergeFields, ih hrest, mergeField_eq, Entries.lookup_put]
    by_cases hname : name = key
    · subst hname
      -- the names differ, so that no later field has this one
      simp [Entries.lookup_eq_none_of_not_mem hkey]
    · rw [if_neg hname, Entries.lookup_cons_of_ne hname]

theorem merge_table (old fields : List (String × Value)) :
    (table old).merge (table fields) = table (mergeFields old fields) := by
  rw [merge]

theorem merge_of_not_isTable (base : Value) {v : Value} (h : v.isTable = false) :
    base.merge v = v := by
  cases v with
  | table fields => simp [isTable] at h
  | plain _ | character _ | list _ => simp [merge]

theorem merge_of_not_isTable_base {base : Value} (h : base.isTable = false) (v : Value) :
    base.merge v = v := by
  cases v with
  | table fields => cases base <;> simp [isTable, merge] at h ⊢
  | plain _ | character _ | list _ => simp [merge]

@[simp]
theorem isTable_atop (v : Value) (base : Option Value) : (v.atop base).isTable = v.isTable := by
  rcases base with _ | base
  · rfl
  · cases v with
    | table fields => cases base <;> simp [atop, merge, isTable]
    | plain _ | character _ | list _ => simp [atop, merge, isTable]

/-! ## what holds of all values below a value -/

/-- A property of all values that paths lead to. -/
def Everywhere (P : Value → Prop) (v : Value) : Prop := ∀ path w, v.getAt? path = some w → P w

theorem Everywhere.self {P : Value → Prop} {v : Value} (h : v.Everywhere P) : P v :=
  h [] v (getAt?_nil v)

theorem Everywhere.getAt? {P : Value → Prop} {v w : Value} (h : v.Everywhere P)
    {path : List String} (hw : v.getAt? path = some w) : w.Everywhere P := by
  intro rest x hx
  refine h (path ++ rest) x ?_
  rw [getAt?_append, hw]
  exact hx

theorem everywhere_table_iff {P : Value → Prop} {fields : List (String × Value)} :
    (table fields).Everywhere P ↔
      P (table fields) ∧ ∀ name w, fields.lookup name = some w → w.Everywhere P := by
  constructor
  · intro h
    refine ⟨h.self, fun name w hw => ?_⟩
    have hat : (table fields).getAt? [name] = some w := by simp [hw]
    exact h.getAt? hat
  · rintro ⟨hself, hfields⟩ path w hw
    cases path with
    | nil =>
      cases hw
      exact hself
    | cons name rest =>
      rw [getAt?_table_cons] at hw
      obtain ⟨below, hbelow, hw⟩ := Option.bind_eq_some_iff.1 hw
      exact hfields name below hbelow rest w hw

theorem everywhere_of_not_isTable {P : Value → Prop} {v : Value} (h : v.isTable = false)
    (hv : P v) : v.Everywhere P := by
  intro path w hw
  cases path with
  | nil =>
    cases hw
    exact hv
  | cons name rest =>
    rw [getAt?_cons_of_not_isTable h] at hw
    cases hw

/-- No name stands twice in a table, and only tables and lists contain anything. -/
def IsSound : Value → Prop
  | plain v => v.isScalar = true
  | table fields => (fields.map Prod.fst).Nodup
  | _ => True

abbrev Sound (v : Value) : Prop := v.Everywhere IsSound

theorem Sound.nodup {fields : List (String × Value)} (h : (table fields).Sound) :
    (fields.map Prod.fst).Nodup := h.self

theorem Sound.of_lookup {fields : List (String × Value)} (h : (table fields).Sound) {name : String}
    {w : Value} (hw : fields.lookup name = some w) : w.Sound :=
  (everywhere_table_iff.1 h).2 name w hw

/-- What is at a path after `v` is put over `base`. -/
theorem getAt?_merge (base : Value) {v : Value} (hv : v.Sound) (path : List String) :
    (base.merge v).getAt? path =
      match v.getAt? path with
      | some new => some (new.atop (base.getAt? path))
      | none => if v.cuts path then none else base.getAt? path := by
  induction path generalizing base v with
  | nil => simp [atop]
  | cons name rest ih =>
    cases v with
    | table fields =>
      cases hbase : base.isTable with
      | false =>
        rw [merge_of_not_isTable_base hbase, getAt?_cons_of_not_isTable hbase]
        cases (table fields).getAt? (name :: rest) <;> simp [atop]
      | true =>
        obtain ⟨old, rfl⟩ := isTable_iff.1 hbase
        rw [merge_table, getAt?_table_cons, lookup_mergeFields hv.nodup, getAt?_table_cons,
          getAt?_table_cons, cuts]
        cases hnew : fields.lookup name with
        | none => simp
        | some new =>
          cases hold : old.lookup name with
          | none => cases hrest : new.getAt? rest <;> simp [atop, hrest]
          | some below => simpa [atop] using ih below (hv.of_lookup hnew)
    | plain _ | character _ | list _ =>
      rw [merge_of_not_isTable base rfl, getAt?_cons_of_not_isTable rfl]
      simp [cuts]

theorem nodup_mergeFields {old : List (String × Value)} (h : (old.map Prod.fst).Nodup)
    (fields : List (String × Value)) : ((mergeFields old fields).map Prod.fst).Nodup := by
  induction fields generalizing old with
  | nil => simpa [mergeFields] using h
  | cons field rest ih =>
    obtain ⟨name, v⟩ := field
    rw [mergeFields, mergeField_eq]
    exact ih (Entries.nodup_put h name _)

theorem IsSound.merge {base v : Value} (hbase : base.IsSound) (hv : v.IsSound) :
    (base.merge v).IsSound := by
  cases v with
  | table fields =>
    cases base with
    | table old =>
      rw [merge_table]
      exact nodup_mergeFields hbase fields
    | plain _ | character _ | list _ =>
      rw [merge_of_not_isTable_base rfl]
      exact hv
  | plain _ | character _ | list _ =>
    rw [merge_of_not_isTable base rfl]
    exact hv

theorem Sound.merge {base v : Value} (hbase : base.Sound) (hv : v.Sound) :
    (base.merge v).Sound := by
  intro path x hx
  rw [getAt?_merge base hv] at hx
  split at hx
  · rename_i new hnew
    cases hx
    cases hold : base.getAt? path with
    | none => exact hv path new hnew
    | some old => exact (hbase path old hold).merge (hv path new hnew)
  · split at hx
    · cases hx
    · exact hbase path x hx

theorem Sound.foldl_merge {base : Value} {layers : List Value} (hbase : base.Sound)
    (hlayers : ∀ layer ∈ layers, layer.Sound) : (layers.foldl Value.merge base).Sound := by
  induction layers generalizing base with
  | nil => exact hbase
  | cons layer rest ih =>
    exact ih (hbase.merge (hlayers layer List.mem_cons_self))
      fun other hother => hlayers other (List.mem_cons_of_mem _ hother)

/-! ## several layers -/

/-- What the last layer gives that gives anything at a path. A layer is given by what it gives. -/
def highest? (layers : List (List String → Option Value)) (path : List String) : Option Value :=
  layers.reverse.findSome? fun gives => gives path

theorem highest?_cons (gives : List String → Option Value)
    (layers : List (List String → Option Value)) (path : List String) :
    highest? (gives :: layers) path = (highest? layers path).or (gives path) := by
  rw [highest?, List.reverse_cons, List.findSome?_append, List.findSome?_singleton]
  rfl

theorem exists_of_highest? {layers : List (List String → Option Value)} {path : List String}
    {v : Value} (h : highest? layers path = some v) : ∃ gives ∈ layers, gives path = some v := by
  obtain ⟨gives, hgives, hv⟩ := List.exists_of_findSome?_eq_some h
  exact ⟨gives, List.mem_reverse.1 hgives, hv⟩

/-- A leaf of merged layers is what the highest layer with something at its path gives. -/
theorem highest?_of_getAt?_foldl {base : Value} {layers : List Value}
    (hlayers : ∀ layer ∈ layers, layer.Sound) {path : List String} {x : Value}
    (hx : (layers.foldl merge base).getAt? path = some x) (hleaf : x.isTable = false) :
    highest? ((base :: layers).map getAt?) path = some x := by
  induction layers generalizing base with
  | nil => simpa [highest?] using hx
  | cons layer rest ih =>
    have hhigh := ih (fun other hother => hlayers other (List.mem_cons_of_mem _ hother)) hx
    rw [List.map_cons, highest?_cons] at hhigh ⊢
    rw [List.map_cons, highest?_cons]
    cases hrest : highest? (rest.map getAt?) path with
    | some y => simpa [hrest] using hhigh
    | none =>
      rw [hrest, Option.none_or, getAt?_merge base (hlayers layer List.mem_cons_self)] at hhigh
      cases hnew : layer.getAt? path with
      | none =>
        have hbase : layer.cuts path = false ∧ base.getAt? path = some x := by
          simpa [hnew] using hhigh
        simpa using hbase.2
      | some new =>
        -- a leaf replaces what is below it
        rw [hnew] at hhigh
        have hatop : new.atop (base.getAt? path) = x := by simpa using hhigh
        have htable : new.isTable = false := by rw [← isTable_atop new, hatop, hleaf]
        have heq : new.atop (base.getAt? path) = new := by
          cases base.getAt? path with
          | none => rfl
          | some old => exact merge_of_not_isTable old htable
        simp [← hatop, heq]

/-- A path that no layer cuts leads somewhere if it does so in any of the layers. -/
theorem isSome_getAt?_foldl_iff {base : Value} {layers : List Value}
    (hlayers : ∀ layer ∈ layers, layer.Sound) {path : List String}
    (hcuts : ∀ layer ∈ layers, layer.cuts path = false) :
    ((layers.foldl merge base).getAt? path).isSome = true ↔
      (highest? ((base :: layers).map getAt?) path).isSome = true := by
  induction layers generalizing base with
  | nil => simp [highest?]
  | cons layer rest ih =>
    rw [List.foldl_cons, ih (fun other hother => hlayers other (List.mem_cons_of_mem _ hother))
      (fun other hother => hcuts other (List.mem_cons_of_mem _ hother))]
    simp only [List.map_cons, highest?_cons, Option.isSome_or, Bool.or_eq_true]
    rw [getAt?_merge base (hlayers layer List.mem_cons_self), hcuts layer List.mem_cons_self]
    cases layer.getAt? path <;> simp

/-! ## layers that keep tables -/

/-- Where `base` has a table, a layer has a table or nothing. -/
def Fits (base : Value) (gives : List String → Option Value) : Prop :=
  ∀ path fields v, base.getAt? path = some (table fields) → gives path = some v → v.isTable = true

mutual

/-- The paths of all tables in a value. -/
def tablePaths : Value → List (List String)
  | table fields => [] :: tablePathsIn fields
  | _ => []

def tablePathsIn : List (String × Value) → List (List String)
  | [] => []
  | field :: rest => tablePathsOf field ++ tablePathsIn rest

def tablePathsOf : String × Value → List (List String)
  | (name, v) => (tablePaths v).map (name :: ·)

end

theorem mem_tablePathsIn {fields : List (String × Value)} {name : String} {v : Value}
    (h : (name, v) ∈ fields) {path : List String} (hpath : path ∈ v.tablePaths) :
    name :: path ∈ tablePathsIn fields := by
  induction fields with
  | nil => cases h
  | cons field rest ih =>
    rw [tablePathsIn, List.mem_append]
    rcases List.mem_cons.1 h with rfl | h
    · rw [tablePathsOf]
      exact Or.inl (List.mem_map_of_mem hpath)
    · exact Or.inr (ih h)

theorem mem_tablePaths {v : Value} {path : List String} {fields : List (String × Value)}
    (h : v.getAt? path = some (table fields)) : path ∈ v.tablePaths := by
  induction path generalizing v with
  | nil =>
    cases h
    rw [tablePaths]
    exact List.mem_cons_self
  | cons name rest ih =>
    cases v with
    | table outer =>
      obtain ⟨below, hbelow, hrest⟩ := Option.bind_eq_some_iff.1 h
      rw [tablePaths]
      exact List.mem_cons_of_mem _ (mem_tablePathsIn (Entries.mem_of_lookup hbelow) (ih hrest))
    | plain _ | character _ | list _ => cases h

/-- Whether a layer fits shows at the finitely many tables of `base`. -/
theorem fits_iff {base : Value} {gives : List String → Option Value} :
    Fits base gives ↔ ∀ path ∈ base.tablePaths,
      (base.getAt? path).any isTable = true → (gives path).all isTable = true := by
  constructor
  · intro h path _ hbase
    obtain ⟨b, hb, htable⟩ := (Option.any_eq_true _ _).1 hbase
    obtain ⟨fields, rfl⟩ := isTable_iff.1 htable
    cases hv : gives path with
    | none => rfl
    | some v => exact h path fields v hb hv
  · intro h path fields v hb hv
    have hall := h path (mem_tablePaths hb) (by rw [hb]; rfl)
    rw [hv] at hall
    exact hall

instance (base : Value) (gives : List String → Option Value) : Decidable (Fits base gives) :=
  decidable_of_iff _ fits_iff.symm

theorem Fits.cuts_eq_false {base v : Value} (h : Fits base v.getAt?) {front : List String}
    {fields : List (String × Value)} (hfront : base.getAt? front = some (table fields))
    (name : String) : v.cuts (front ++ [name]) = false := by
  rw [Bool.eq_false_iff]
  intro hcuts
  obtain ⟨before, next, rest, w, hpath, hw, hleaf⟩ := exists_of_cuts hcuts
  -- the place of the cut is at `front` or on the way to it
  have htable : ∃ fields, base.getAt? before = some (table fields) := by
    rcases List.eq_nil_or_concat rest with rfl | ⟨middle, last, rfl⟩
    · obtain ⟨rfl, -⟩ := List.append_inj' hpath rfl
      exact ⟨fields, hfront⟩
    · rw [List.concat_eq_append, ← List.cons_append, ← List.append_assoc] at hpath
      obtain ⟨rfl, -⟩ := List.append_inj' hpath rfl
      exact isTable_of_getAt?_append hfront
  obtain ⟨fields, hbefore⟩ := htable
  rw [h before fields w hbefore hw] at hleaf
  cases hleaf

section Fitting

variable {base : Value} {layers : List Value} (hlayers : ∀ layer ∈ layers, layer.Sound)
  (hfits : ∀ layer ∈ layers, Fits base layer.getAt?)

include hlayers hfits

/-- Inside a table of `base`, no layer hides what another one says. -/
theorem isSome_getAt?_foldl_concat_iff {front : List String} {fields : List (String × Value)}
    (hfront : base.getAt? front = some (table fields)) (name : String) :
    ((layers.foldl merge base).getAt? (front ++ [name])).isSome = true ↔
      (highest? ((base :: layers).map getAt?) (front ++ [name])).isSome = true :=
  isSome_getAt?_foldl_iff hlayers fun layer hlayer =>
    (hfits layer hlayer).cuts_eq_false hfront name

theorem isSome_getAt?_foldl_of_base {path : List String} (h : (base.getAt? path).isSome = true) :
    ((layers.foldl merge base).getAt? path).isSome = true := by
  rcases List.eq_nil_or_concat path with rfl | ⟨front, name, rfl⟩
  · simp
  · rw [List.concat_eq_append] at h ⊢
    obtain ⟨w, hw⟩ := Option.isSome_iff_exists.1 h
    obtain ⟨fields, hfront⟩ := isTable_of_getAt?_append hw
    rw [isSome_getAt?_foldl_concat_iff hlayers hfits hfront, List.map_cons, highest?_cons,
      Option.isSome_or, h, Bool.or_true]

theorem exists_table_getAt?_foldl {path : List String} {fields : List (String × Value)}
    (h : base.getAt? path = some (table fields)) :
    ∃ merged, (layers.foldl merge base).getAt? path = some (table merged) := by
  have hbase : (base.getAt? path).isSome = true := by simp [h]
  have hsome := isSome_getAt?_foldl_of_base hlayers hfits hbase
  obtain ⟨x, hx⟩ := Option.isSome_iff_exists.1 hsome
  cases htable : x.isTable with
  | true =>
    obtain ⟨merged, rfl⟩ := isTable_iff.1 htable
    exact ⟨merged, hx⟩
  | false =>
    -- a leaf would come from one of the layers, and all of them have tables here
    have hhigh := highest?_of_getAt?_foldl hlayers hx htable
    obtain ⟨gives, hgives, hx⟩ := exists_of_highest? hhigh
    rcases List.mem_cons.1 hgives with rfl | hgives
    · rw [h] at hx
      cases hx
      cases htable
    · obtain ⟨layer, hlayer, rfl⟩ := List.mem_map.1 hgives
      rw [hfits layer hlayer path fields x h hx] at htable
      cases htable

end Fitting

/-! ## layers given by what they say -/

/-- The value, unless it is a table. -/
def leaf? (v : Value) : Option Value := if v.isTable then none else some v

theorem leaf?_eq_none_iff {v : Value} : v.leaf? = none ↔ v.isTable = true := by simp [leaf?]

theorem eq_of_leaf?_eq_some {v w : Value} (h : v.leaf? = some w) : v = w := by
  unfold leaf? at h
  split at h
  · cases h
  · exact Option.some.inj h

/-- `gives` tells the leaves of a layer, and where it has tables. -/
def Tells (gives : List String → Option Value) (layer : Value) : Prop :=
  ∀ path, (gives path).map leaf? = (layer.getAt? path).map leaf?

theorem tells_getAt? (layer : Value) : Tells layer.getAt? layer := fun _ => rfl

theorem Tells.fits {gives : List String → Option Value} {layer base : Value}
    (h : Tells gives layer) (hfits : Fits base gives) : Fits base layer.getAt? := by
  intro path fields v hbase hv
  have hpath := h path
  rw [hv, Option.map_some] at hpath
  obtain ⟨w, hw, hleaf⟩ := Option.map_eq_some_iff.1 hpath
  rw [leaf?_eq_none_iff.2 (hfits path fields w hbase hw)] at hleaf
  exact leaf?_eq_none_iff.1 hleaf.symm

theorem fits_of_tells {gives : List (List String → Option Value)} {layers : List Value}
    {base : Value} (h : List.Forall₂ Tells gives layers)
    (hfits : ∀ given ∈ gives, Fits base given) : ∀ layer ∈ layers, Fits base layer.getAt? := by
  induction h with
  | nil => simp
  | cons hfirst _ ih =>
    intro layer hlayer
    rcases List.mem_cons.1 hlayer with rfl | hlayer
    · exact hfirst.fits (hfits _ List.mem_cons_self)
    · exact ih (fun other hother => hfits other (List.mem_cons_of_mem _ hother)) layer hlayer

theorem map_leaf?_highest? {gives : List (List String → Option Value)} {layers : List Value}
    (h : List.Forall₂ Tells gives layers) (path : List String) :
    (highest? gives path).map leaf? = (highest? (layers.map getAt?) path).map leaf? := by
  induction h with
  | nil => rfl
  | cons hfirst _ ih =>
    rw [List.map_cons, highest?_cons, highest?_cons, Option.map_or, Option.map_or, ih, hfirst path]

theorem isSome_highest?_of_tells {gives : List (List String → Option Value)} {layers : List Value}
    (h : List.Forall₂ Tells gives layers) (path : List String) :
    (highest? gives path).isSome = (highest? (layers.map getAt?) path).isSome := by
  rw [← Option.isSome_map (f := leaf?), map_leaf?_highest? h, Option.isSome_map]

theorem highest?_of_tells {gives : List (List String → Option Value)} {layers : List Value}
    (h : List.Forall₂ Tells gives layers) {path : List String} {x : Value}
    (hx : highest? (layers.map getAt?) path = some x) (hleaf : x.isTable = false) :
    highest? gives path = some x := by
  have hmap := map_leaf?_highest? h path
  rw [hx, Option.map_some] at hmap
  obtain ⟨w, hw, heq⟩ := Option.map_eq_some_iff.1 hmap
  have hsome : x.leaf? = some x := by simp [leaf?, hleaf]
  rw [hw, eq_of_leaf?_eq_some (heq.trans hsome)]

end SourceAtlas.Value
