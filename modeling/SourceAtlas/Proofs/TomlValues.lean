import SourceAtlas.Proofs.JsonValues
import SourceAtlas.Toml.Reader

/-!
What a TOML document can say.

* `Node.Sound`: a node of a table under construction that has only sound values below it.
* `Keeps`, `KeepsNode`: changes of tables that keep them sound, such as `openTable` and `assign`.
* `SoundReads`: what the readers of values give is sound, whatever their bound.
* `sound_read`: what is read from a document is an object, and it is sound.
-/

namespace SourceAtlas.Toml

/-! ## tables under construction -/

/-- All values below a node are sound. -/
inductive Node.Sound : Node → Prop where
  | value {v : Json} (h : v.Sound) : Sound (.value v)
  | table {origin : Origin} {entries : Entries} (h : ∀ entry ∈ entries, Sound entry.2) :
    Sound (.table origin entries)
  | tables {latest : Entries} {earlier : List Entries} (hlatest : ∀ entry ∈ latest, Sound entry.2)
    (hearlier : ∀ entries ∈ earlier, ∀ entry ∈ entries, Sound entry.2) :
    Sound (.tables latest earlier)

def SoundEntries (entries : Entries) : Prop := ∀ entry ∈ entries, entry.2.Sound

theorem increasing_entriesJson (entries : Entries) : Json.Increasing (entriesJson entries) := by
  induction entries with
  | nil =>
    unfold entriesJson
    exact List.Pairwise.nil
  | cons entry rest ih =>
    rw [entriesJson]
    exact Json.increasing_setField ih

theorem sound_entriesJson {entries : Entries} (h : ∀ entry ∈ entries, entry.2.toJson.Sound) :
    (Json.obj (entriesJson entries)).Sound := by
  refine Json.sound_obj_iff.2 ⟨Json.nodup_of_increasing (increasing_entriesJson entries), ?_⟩
  induction entries with
  | nil => simp [entriesJson]
  | cons entry rest ih =>
    intro field hfield
    obtain ⟨key, node⟩ := entry
    rw [entriesJson, entryJson] at hfield
    rcases Json.mem_setField hfield with rfl | hfield
    · exact h (key, node) List.mem_cons_self
    · exact ih (fun other hother => h other (List.mem_cons_of_mem _ hother)) field hfield

theorem sound_elementsJson {earlier : List Entries}
    (h : ∀ entries ∈ earlier, ∀ entry ∈ entries, entry.2.toJson.Sound) :
    ∀ v ∈ elementsJson earlier, v.Sound := by
  induction earlier with
  | nil => simp [elementsJson]
  | cons entries earlier ih =>
    intro v hv
    rw [elementsJson, List.mem_append, List.mem_singleton] at hv
    rcases hv with hv | rfl
    · exact ih (fun other hother => h other (List.mem_cons_of_mem _ hother)) v hv
    · exact sound_entriesJson (h entries List.mem_cons_self)

theorem Node.Sound.toJson {node : Node} (h : node.Sound) : node.toJson.Sound := by
  induction h with
  | value h =>
    rw [Node.toJson]
    exact h
  | table _ ih =>
    rw [Node.toJson]
    exact sound_entriesJson ih
  | tables _ _ hlatest hearlier =>
    rw [Node.toJson]
    refine Json.sound_arr fun v hv => ?_
    rcases List.mem_append.1 hv with hv | hv
    · exact sound_elementsJson hearlier v hv
    · rw [List.mem_singleton.1 hv]
      exact sound_entriesJson hlatest

/-- A change of entries keeps them sound. -/
def Keeps (change : Entries → Option Entries) : Prop :=
  ∀ entries changed, SoundEntries entries → change entries = some changed → SoundEntries changed

/-- A change of a node, which need not be there, makes a sound one. -/
def KeepsNode (change : Option Node → Option Node) : Prop :=
  ∀ old new, (∀ node, old = some node → node.Sound) → change old = some new → new.Sound

theorem keeps_alter {change : Option Node → Option Node} (h : KeepsNode change) (key : String) :
    Keeps (alter key change) := by
  intro entries
  induction entries with
  | nil =>
    intro changed _ hchanged
    obtain ⟨new, hnew, rfl⟩ := Option.map_eq_some_iff.1 hchanged
    intro entry hentry
    rw [List.mem_singleton.1 hentry]
    exact h none new (by simp) hnew
  | cons first rest ih =>
    intro changed hsound hchanged
    rw [alter] at hchanged
    split at hchanged
    · obtain ⟨new, hnew, rfl⟩ := Option.map_eq_some_iff.1 hchanged
      intro entry hentry
      rcases List.mem_cons.1 hentry with rfl | hentry
      · refine h (some first.2) new ?_ hnew
        rintro node ⟨⟩
        exact hsound first List.mem_cons_self
      · exact hsound entry (List.mem_cons_of_mem _ hentry)
    · obtain ⟨altered, haltered, rfl⟩ := Option.map_eq_some_iff.1 hchanged
      intro entry hentry
      rcases List.mem_cons.1 hentry with rfl | hentry
      · exact hsound entry List.mem_cons_self
      · exact ih altered (fun other hother => hsound other (List.mem_cons_of_mem _ hother))
          haltered entry hentry

theorem keepsNode_enter {change : Entries → Option Entries} (h : Keeps change) (origin : Origin) :
    KeepsNode (enter origin change) := by
  intro old new hold hnew
  match old with
  | none =>
    obtain ⟨entries, hentries, rfl⟩ := Option.map_eq_some_iff.1 hnew
    exact .table (h [] entries (by simp [SoundEntries]) hentries)
  | some (.value _) => cases hnew
  | some (.table before entries) =>
    rw [enter] at hnew
    split at hnew
    · cases hnew
    · obtain ⟨changed, hchanged, rfl⟩ := Option.map_eq_some_iff.1 hnew
      cases hold _ rfl with
      | table hentries => exact .table (h entries changed hentries hchanged)
  | some (.tables latest earlier) =>
    obtain ⟨changed, hchanged, rfl⟩ := Option.map_eq_some_iff.1 hnew
    cases hold _ rfl with
    | tables hlatest hearlier => exact .tables (h latest changed hlatest hchanged) hearlier

theorem keeps_descend {change : Entries → Option Entries} (h : Keeps change) (origin : Origin)
    (path : List String) : Keeps (descend origin change path) := by
  induction path with
  | nil => exact h
  | cons key rest ih => exact keeps_alter (keepsNode_enter ih origin) key

theorem keepsNode_takeOver : KeepsNode takeOver := by
  intro old new hold hnew
  match old with
  | none =>
    cases hnew
    exact .table (by simp)
  | some (.table .implied entries) =>
    cases hnew
    cases hold _ rfl with
    | table hentries => exact .table hentries
  | some (.table .header _) | some (.table .dotted _) | some (.value _) | some (.tables _ _) =>
    cases hnew

theorem keepsNode_addElement : KeepsNode addElement := by
  intro old new hold hnew
  match old with
  | none =>
    cases hnew
    exact .tables (by simp) (by simp)
  | some (.tables latest earlier) =>
    cases hnew
    cases hold _ rfl with
    | tables hlatest hearlier =>
      refine .tables (by simp) fun entries hentries => ?_
      rcases List.mem_cons.1 hentries with rfl | hentries
      · exact hlatest
      · exact hearlier entries hentries
  | some (.table _ _) | some (.value _) => cases hnew

theorem keepsNode_fresh {v : Json} (hv : v.Sound) : KeepsNode (fresh v) := by
  intro old new _ hnew
  cases old with
  | none =>
    cases hnew
    exact .value hv
  | some node => cases hnew

theorem keeps_openTable (path : List String) : Keeps (openTable path) := by
  intro entries changed hsound hchanged
  unfold openTable at hchanged
  split at hchanged
  · cases hchanged
  · exact keeps_descend (keeps_alter keepsNode_takeOver _) _ _ entries changed hsound hchanged

theorem keeps_openElement (path : List String) : Keeps (openElement path) := by
  intro entries changed hsound hchanged
  unfold openElement at hchanged
  split at hchanged
  · cases hchanged
  · exact keeps_descend (keeps_alter keepsNode_addElement _) _ _ entries changed hsound hchanged

theorem keeps_assignBelow {v : Json} (hv : v.Sound) (key : String) (path : List String) :
    Keeps (assignBelow key v path) := by
  have hfresh := keeps_alter (keepsNode_fresh hv) key
  fun_induction assignBelow key v path with
  | case1 => exact hfresh
  | case2 last =>
    refine keeps_alter (fun old new hold hnew => ?_) last
    split at hnew
    · exact keepsNode_enter hfresh _ none new hold hnew
    · exact keepsNode_enter hfresh _ _ new hold hnew
    · cases hnew
  | case3 next rest _ ih => exact keeps_alter (keepsNode_enter ih _) next

theorem keeps_assign {v : Json} (hv : v.Sound) (header path : List String) :
    Keeps (assign header path v) := by
  intro entries changed hsound hchanged
  unfold assign at hchanged
  split at hchanged
  · cases hchanged
  · exact keeps_descend (keeps_assignBelow hv _ _) _ _ entries changed hsound hchanged

/-! ## values -/

theorem isScalar_of_wholeValue? {n : Int} {v : Json} (h : wholeValue? n = some v) :
    v.isScalar = true := by
  unfold wholeValue? at h
  split at h
  · cases h
    rfl
  · cases h

theorem isScalar_of_basedValue? {base : Nat} {digits : List Char} {v : Json}
    (h : basedValue? base digits = some v) : v.isScalar = true := by
  obtain ⟨_, -, hv⟩ := Option.bind_eq_some_iff.1 h
  exact isScalar_of_wholeValue? hv

theorem isScalar_of_decimal? {cs : List Char} {v : Json} (h : decimal? cs = some v) :
    v.isScalar = true := by
  obtain ⟨_, -, hv⟩ := Option.bind_eq_some_iff.1 h
  exact isScalar_of_wholeValue? hv

theorem isScalar_of_fractional? {cs : List Char} {v : Json} (h : fractional? cs = some v) :
    v.isScalar = true := by
  unfold fractional? at h
  simp only at h
  repeat' split at h
  all_goals cases h
  all_goals rfl

theorem isScalar_of_special? {cs : List Char} {v : Json} (h : special? cs = some v) :
    v.isScalar = true := by
  obtain ⟨x, -, rfl⟩ := Option.map_eq_some_iff.1 h
  rfl

theorem sound_momentValue (cs : List Char) : (momentValue cs).Sound :=
  Json.sound_obj_iff.2 ⟨by simp, by simpa using Json.sound_of_isScalar rfl⟩

theorem sound_of_bareValue? {cs : List Char} {v : Json} (h : bareValue? cs = some v) : v.Sound := by
  unfold bareValue? at h
  split at h
  · cases h
    exact Json.sound_of_isScalar rfl
  · cases h
    exact Json.sound_of_isScalar rfl
  · exact Json.sound_of_isScalar (isScalar_of_basedValue? h)
  · exact Json.sound_of_isScalar (isScalar_of_basedValue? h)
  · exact Json.sound_of_isScalar (isScalar_of_basedValue? h)
  · split at h
    · cases h
      exact sound_momentValue _
    · refine Json.sound_of_isScalar ?_
      rcases Option.or_eq_some_iff.1 h with h | ⟨-, h⟩
      · rcases Option.or_eq_some_iff.1 h with h | ⟨-, h⟩
        · exact isScalar_of_decimal? h
        · exact isScalar_of_fractional? h
      · exact isScalar_of_special? h

theorem sound_of_readBare {cs rest : List Char} {v : Json} (h : readBare cs = some (v, rest)) :
    v.Sound := by
  unfold readBare at h
  simp only at h
  split at h
  all_goals
    obtain ⟨w, hw, heq⟩ := Option.map_eq_some_iff.1 h
    cases heq
    exact sound_of_bareValue? hw

/-- What is read with some fuel is sound. -/
structure SoundReads (fuel : Nat) : Prop where
  value {depth : Nat} {cs rest : List Char} {v : Json}
    (h : readValue fuel depth cs = some (v, rest)) : v.Sound
  items {depth : Nat} {cs rest : List Char} {items : List Json}
    (h : readItems fuel depth cs = some (items, rest)) : ∀ v ∈ items, v.Sound
  pairs {depth : Nat} {cs rest : List Char} {entries found : Entries}
    (hentries : SoundEntries entries)
    (h : readPairs fuel depth entries cs = some (found, rest)) : SoundEntries found

theorem SoundReads.readValue_succ {fuel : Nat} (ih : SoundReads fuel) {depth : Nat}
    {cs rest : List Char} {v : Json} (h : readValue (fuel + 1) depth cs = some (v, rest)) :
    v.Sound := by
  rw [readValue.eq_def] at h
  simp only at h
  split at h
  · obtain ⟨found, -, heq⟩ := Option.map_eq_some_iff.1 h
    cases heq
    exact Json.sound_of_isScalar rfl
  · obtain ⟨found, -, heq⟩ := Option.map_eq_some_iff.1 h
    cases heq
    exact Json.sound_of_isScalar rfl
  · -- a list, unless it is too deep
    split at h
    · cases h
    · obtain ⟨found, hfound, heq⟩ := Option.map_eq_some_iff.1 h
      cases heq
      exact Json.sound_arr (ih.items hfound)
  · -- a table in braces: its pairs are assigned one after another
    split at h
    · cases h
    · split at h
      · cases h
        exact Json.sound_obj_iff.2 ⟨by simp, by simp⟩
      · obtain ⟨found, hfound, heq⟩ := Option.map_eq_some_iff.1 h
        cases heq
        have hentries := ih.pairs (by simp [SoundEntries]) hfound
        exact sound_entriesJson fun entry hentry => (hentries entry hentry).toJson
  · exact sound_of_readBare h

theorem SoundReads.readItems_succ {fuel : Nat} (ih : SoundReads fuel) {depth : Nat}
    {cs rest : List Char} {items : List Json}
    (h : readItems (fuel + 1) depth cs = some (items, rest)) : ∀ v ∈ items, v.Sound := by
  rw [readItems] at h
  split at h
  · cases h
  · cases h
    simp
  · split at h
    · cases h
    · rename_i first after hfirst
      split at h
      · obtain ⟨found, hfound, heq⟩ := Option.map_eq_some_iff.1 h
        cases heq
        intro v hv
        rcases List.mem_cons.1 hv with rfl | hv
        · exact ih.value hfirst
        · exact ih.items hfound v hv
      · cases h
        intro v hv
        rw [List.mem_singleton.1 hv]
        exact ih.value hfirst
      · cases h

theorem SoundReads.readPairs_succ {fuel : Nat} (ih : SoundReads fuel) {depth : Nat}
    {cs rest : List Char} {entries found : Entries} (hentries : SoundEntries entries)
    (h : readPairs (fuel + 1) depth entries cs = some (found, rest)) : SoundEntries found := by
  rw [readPairs] at h
  split at h
  · split at h
    · cases h
    · rename_i hv
      have hkeeps := fun path => keeps_assign (ih.value hv) [] path
      -- a comma, with more pairs to come, or the closing brace
      split at h
      · rename_i hassigned _
        exact ih.pairs (hkeeps _ _ _ hentries hassigned) h
      · rename_i hassigned _
        cases h
        exact hkeeps _ _ _ hentries hassigned
      · cases h
  · cases h

theorem soundReads (fuel : Nat) : SoundReads fuel := by
  induction fuel with
  | zero =>
    exact ⟨fun h => by simp [readValue] at h, fun h => by simp [readItems] at h,
      fun _ h => by simp [readPairs] at h⟩
  | succ fuel ih => exact ⟨ih.readValue_succ, ih.readItems_succ, ih.readPairs_succ⟩

/-! ## documents -/

theorem sound_readLine {draft next : Draft} {cs rest : List Char}
    (hdraft : SoundEntries draft.entries) (h : readLine draft cs = some (next, rest)) :
    SoundEntries next.entries := by
  unfold readLine at h
  -- the head of an element, the head of a table, or a value under a key
  split at h
  · split at h
    · cases h
    · obtain ⟨entries, hentries, heq⟩ := Option.map_eq_some_iff.1 h
      cases heq
      exact keeps_openElement _ _ _ hdraft hentries
  · split at h
    · cases h
    · obtain ⟨entries, hentries, heq⟩ := Option.map_eq_some_iff.1 h
      cases heq
      exact keeps_openTable _ _ _ hdraft hentries
  · split at h
    · split at h
      · cases h
      · rename_i hv
        split at h
        · rename_i hassigned _
          cases h
          exact keeps_assign ((soundReads _).value hv) _ _ _ _ hdraft hassigned
        · cases h
    · cases h

theorem sound_readLines {fuel : Nat} {draft : Draft} {cs : List Char} {entries : Entries}
    (hdraft : SoundEntries draft.entries) (h : readLines fuel draft cs = some entries) :
    SoundEntries entries := by
  induction fuel generalizing draft cs with
  | zero => cases h
  | succ fuel ih =>
    rw [readLines] at h
    split at h
    · cases h
      exact hdraft
    · split at h
      · obtain ⟨rest, -, hrest⟩ := Option.bind_eq_some_iff.1 h
        exact ih hdraft hrest
      · split at h
        · cases h
        · rename_i next rest hline
          exact ih (sound_readLine hdraft hline) h

/-- What is read is an object, and it is sound. -/
theorem sound_read {text : String} {v : Json} (h : read text = some v) :
    ∃ fields, v = .obj fields ∧ v.Sound := by
  obtain ⟨entries, hentries, rfl⟩ := Option.map_eq_some_iff.1 h
  have hsound := sound_readLines (by simp [SoundEntries]) hentries
  exact ⟨_, rfl, sound_entriesJson fun entry hentry => (hsound entry hentry).toJson⟩

end SourceAtlas.Toml
