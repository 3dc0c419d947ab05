import Mathlib.Data.List.Infix
import SourceAtlas.DirectoryTree.Basic
import SourceAtlas.Ordered.Entries

/-!
Directory trees as what is found at their paths.

* `TreeEntry.at?`: the entry that a path leads to; `TreeEntry.kindAt?`: whether it is a directory.
* `TreeEntry.eq_of_kindAt?`: two trees with the same files and directories are equal.
* `TreeEntry.kindAt?_insertPath`, `TreeEntry.kindAt?_insertAll`: what is found after insertions.
* `TreeEntry.entryPaths`: the paths of all entries, each directory before what is in it.
* `TreeEntry.insertAll_eq`: a tree without empty directories is made of the paths of its files;
  `TreeEntry.insertAll_entryPaths`: it is also made of the paths of all its entries.
-/

namespace SourceAtlas

namespace TreeEntry

/-- Induction over the entries of a directory. -/
theorem ind {P : TreeEntry → Prop} (hfile : P file)
    (hdirectory : ∀ entries, (∀ named ∈ entries, P named.2) → P (directory entries)) :
    ∀ e : TreeEntry, P e
  | file => hfile
  | directory entries => hdirectory entries fun named _ => ind hfile hdirectory named.2
termination_by e => e
decreasing_by
  rename_i hnamed
  have hlt := List.sizeOf_lt_of_mem hnamed
  obtain ⟨name, entry⟩ := named
  simp only [Prod.mk.sizeOf_spec, directory.sizeOf_spec] at hlt ⊢
  omega

@[simp]
theorem children_file : file.children = [] := rfl

@[simp]
theorem children_directory (entries : List (String × TreeEntry)) :
    (directory entries).children = entries := rfl

/-! ## one directory -/

/-- The names in a list of entries increase. -/
def Sorted (entries : List (String × TreeEntry)) : Prop :=
  entries.Pairwise fun a b => a.1 < b.1

theorem orderedAll_iff {entries : List (String × TreeEntry)} :
    OrderedAll entries ↔ Sorted entries ∧ ∀ named ∈ entries, named.2.Ordered := by
  induction entries with
  | nil => simp [OrderedAll, Sorted]
  | cons named rest ih =>
    obtain ⟨name, entry⟩ := named
    simp only [OrderedAll, OrderedNamed, Sorted, List.pairwise_cons, List.mem_cons,
      forall_eq_or_imp] at ih ⊢
    rw [ih]
    tauto

theorem orderedAll_nil : OrderedAll [] := by simp [OrderedAll]

theorem lookup_eq_none_of_forall_lt {name : String} {entries : List (String × TreeEntry)}
    (h : ∀ named ∈ entries, name < named.1) : entries.lookup name = none := by
  rw [List.lookup_eq_none_iff]
  intro named hnamed
  simpa using String.ne_of_lt (h named hnamed)

theorem Sorted.nodup {entries : List (String × TreeEntry)} (h : Sorted entries) :
    (entries.map Prod.fst).Nodup :=
  List.pairwise_map.2 (h.imp fun hlt => String.ne_of_lt hlt)

/-- What is found in a directory after a change of one entry. -/
theorem lookup_alter {name : String} {change : Option TreeEntry → TreeEntry}
    {entries : List (String × TreeEntry)} (h : Sorted entries) (other : String) :
    (alter name change entries).lookup other =
      if other = name then some (change (entries.lookup name)) else entries.lookup other := by
  induction entries with
  | nil =>
    by_cases ho : other = name
    · simp [alter, ho]
    · simp [alter, Entries.lookup_cons_of_ne ho, ho]
  | cons named rest ih =>
    obtain ⟨key, entry⟩ := named
    obtain ⟨hfirst, hrest⟩ := List.pairwise_cons.1 h
    unfold alter
    dsimp only
    split
    · -- the new entry stands before all others
      rename_i hlt
      have hnone : List.lookup name ((key, entry) :: rest) = none := by
        refine lookup_eq_none_of_forall_lt fun named hnamed => ?_
        rcases List.mem_cons.1 hnamed with rfl | hnamed
        · exact hlt
        · exact String.lt_trans hlt (hfirst _ hnamed)
      by_cases ho : other = name
      · simp [ho, hnone]
      · simp [Entries.lookup_cons_of_ne ho, ho]
    · split
      · rename_i heq
        subst heq
        by_cases ho : other = name
        · simp [ho]
        · simp [Entries.lookup_cons_of_ne ho, ho]
      · rename_i hne
        rw [Entries.lookup_cons_of_ne hne]
        by_cases ho : other = key
        · subst ho
          simp [Ne.symm hne]
        · rw [Entries.lookup_cons_of_ne ho, ih hrest, Entries.lookup_cons_of_ne ho]

/-- A directory is determined by what is found under each name. -/
theorem eq_of_lookup {es fs : List (String × TreeEntry)} (he : Sorted es) (hf : Sorted fs)
    (h : ∀ name, es.lookup name = fs.lookup name) : es = fs := by
  have hmem : ∀ named, named ∈ es ↔ named ∈ fs := by
    rintro ⟨name, e⟩
    rw [← Entries.lookup_eq_some_iff_mem he.nodup, ← Entries.lookup_eq_some_iff_mem hf.nodup, h]
  have hne : ∀ {a b : String × TreeEntry}, a.1 < b.1 → a ≠ b :=
    fun hlt e => String.ne_of_lt hlt (congrArg Prod.fst e)
  have hperm : es.Perm fs := (List.perm_ext_iff_of_nodup (he.imp hne) (hf.imp hne)).2 hmem
  refine List.Perm.eq_of_pairwise (fun a b _ _ hab hba => ?_) he hf hperm
  exact absurd hab (String.lt_asymm hba)

/-! ## paths -/

/-- The entry that a path leads to. -/
def at? : List String → TreeEntry → Option TreeEntry
  | [], e => some e
  | name :: rest, e => (e.children.lookup name).bind (at? rest)

def isDirectory : TreeEntry → Bool
  | file => false
  | directory _ => true

/-- Whether a path leads to a directory; nothing if it leads nowhere. -/
def kindAt? (path : List String) (e : TreeEntry) : Option Bool := (e.at? path).map isDirectory

@[simp]
theorem kindAt?_nil (e : TreeEntry) : e.kindAt? [] = some e.isDirectory := rfl

theorem kindAt?_cons (name : String) (rest : List String) (e : TreeEntry) :
    e.kindAt? (name :: rest) = (e.children.lookup name).bind (kindAt? rest) := by
  cases h : e.children.lookup name <;> simp [kindAt?, at?, h]

theorem kindAt?_file_cons (name : String) (rest : List String) :
    file.kindAt? (name :: rest) = none := by
  simp [kindAt?_cons]

theorem sorted_children {e : TreeEntry} (h : e.Ordered) : Sorted e.children :=
  (orderedAll_iff.1 (orderedAll_children h)).1

theorem ordered_of_lookup {e f : TreeEntry} {name : String} (h : e.Ordered)
    (hf : e.children.lookup name = some f) : f.Ordered :=
  (orderedAll_iff.1 (orderedAll_children h)).2 _ (Entries.mem_of_lookup hf)

/-- A tree is determined by the kinds of the entries at its paths. -/
theorem eq_of_kindAt? {e f : TreeEntry} (he : e.Ordered) (hf : f.Ordered)
    (h : ∀ path, e.kindAt? path = f.kindAt? path) : e = f := by
  induction e using ind generalizing f with
  | hfile =>
    have hroot := h []
    cases f with
    | file => rfl
    | directory fs => simp [isDirectory] at hroot
  | hdirectory es ih =>
    have hroot := h []
    cases f with
    | file => simp [isDirectory] at hroot
    | directory fs =>
      congr 1
      refine eq_of_lookup (sorted_children he) (sorted_children hf) fun name => ?_
      have hname := h [name]
      simp only [kindAt?_cons, children_directory] at hname
      cases hes : es.lookup name with
      | none =>
        cases hfs : fs.lookup name with
        | none => rfl
        | some f => simp [hes, hfs] at hname
      | some e =>
        cases hfs : fs.lookup name with
        | none => simp [hes, hfs] at hname
        | some f =>
          have hmem := Entries.mem_of_lookup hes
          refine congrArg some (ih _ hmem (ordered_of_lookup he hes) (ordered_of_lookup hf hfs) ?_)
          intro rest
          have := h (name :: rest)
          simpa [kindAt?_cons, hes, hfs] using this

/-! ## insertion -/

/-- What is found after the insertion of a path: directories on the way, at its end what was there
before or else a file, and everything else unchanged. -/
theorem kindAt?_insertPath (path : List String) {entries : List (String × TreeEntry)}
    (h : OrderedAll entries) (q : List String) :
    (directory (insertPath path entries)).kindAt? q =
      if q = path then some (((directory entries).kindAt? q).getD false)
      else if q <+: path then some true
      else (directory entries).kindAt? q := by
  induction path generalizing entries q with
  | nil =>
    cases q with
    | nil => simp [insertPath, isDirectory]
    | cons other q => simp [insertPath]
  | cons name path ih =>
    have hsorted := (orderedAll_iff.1 h).1
    cases q with
    | nil => simp [isDirectory]
    | cons other q =>
      rw [kindAt?_cons, kindAt?_cons]
      simp only [children_directory]
      cases path with
      | nil =>
        rw [insertPath, lookup_alter hsorted]
        by_cases ho : other = name
        · subst ho
          cases hl : entries.lookup other with
          | none => cases q <;> simp [isDirectory, kindAt?_file_cons]
          | some e => cases q <;> simp
        · simp [ho]
      | cons next rest =>
        rw [insertPath, lookup_alter hsorted]
        by_cases ho : other = name
        · subst ho
          have hold : OrderedAll (((entries.lookup other).map children).getD []) := by
            cases hl : entries.lookup other with
            | none => simp [OrderedAll]
            | some e =>
              have he := ordered_of_lookup (e := directory entries) h hl
              simpa using orderedAll_children he
          simp only [if_true, Option.bind_some, ih hold]
          cases q with
          | nil => simp
          | cons third q =>
            have hbelow : (directory (((entries.lookup other).map children).getD [])).kindAt?
                (third :: q) = (entries.lookup other).bind (kindAt? (third :: q)) := by
              cases entries.lookup other <;> simp [kindAt?_cons]
            simp [hbelow]
        · simp [ho]

/-- The entries with several paths added one after the other. -/
def insertAll (entries : List (String × TreeEntry)) (paths : List (List String)) :
    List (String × TreeEntry) :=
  paths.foldl (fun es path => insertPath path es) entries

theorem orderedAll_insertAll (paths : List (List String)) {entries : List (String × TreeEntry)}
    (h : OrderedAll entries) : OrderedAll (insertAll entries paths) := by
  induction paths generalizing entries with
  | nil => exact h
  | cons path paths ih => exact ih (orderedAll_insertPath path h)

/-- What is found after the insertion of several paths: a directory where one of them passes, a file
or what was there before where one of them ends, and everything else unchanged. -/
theorem kindAt?_insertAll (paths : List (List String)) {entries : List (String × TreeEntry)}
    (h : OrderedAll entries) (q : List String) :
    (directory (insertAll entries paths)).kindAt? q =
      if ∃ path ∈ paths, q <+: path ∧ q ≠ path then some true
      else if q ∈ paths then some (((directory entries).kindAt? q).getD false)
      else (directory entries).kindAt? q := by
  induction paths generalizing entries with
  | nil => simp [insertAll]
  | cons path paths ih =>
    have hstep : insertAll entries (path :: paths) =
        insertAll (insertPath path entries) paths := rfl
    rw [hstep, ih (orderedAll_insertPath path h), kindAt?_insertPath path h]
    by_cases hlater : ∃ p ∈ paths, q <+: p ∧ q ≠ p
    · have : ∃ p ∈ path :: paths, q <+: p ∧ q ≠ p := by
        obtain ⟨p, hp, hq⟩ := hlater
        exact ⟨p, List.mem_cons_of_mem _ hp, hq⟩
      rw [if_pos hlater, if_pos this]
    · rw [if_neg hlater]
      by_cases hend : q = path
      · subst hend
        have : ¬ ∃ p ∈ q :: paths, q <+: p ∧ q ≠ p := by
          rintro ⟨p, hp, hpre, hne⟩
          rcases List.mem_cons.1 hp with rfl | hp
          · exact hne rfl
          · exact hlater ⟨p, hp, hpre, hne⟩
        rw [if_neg this]
        simp
      · by_cases hpass : q <+: path
        · have : ∃ p ∈ path :: paths, q <+: p ∧ q ≠ p := ⟨path, by simp, hpass, hend⟩
          rw [if_pos this]
          simp [hend, hpass]
        · have : ¬ ∃ p ∈ path :: paths, q <+: p ∧ q ≠ p := by
            rintro ⟨p, hp, hpre, hne⟩
            rcases List.mem_cons.1 hp with rfl | hp
            · exact hpass hpre
            · exact hlater ⟨p, hp, hpre, hne⟩
          rw [if_neg this]
          simp [hend, hpass]

/-- What is found in a tree that is made of paths: a directory where one of them passes, and a file
where one of them ends and none passes. -/
theorem kindAt?_insertAll_nil (paths : List (List String)) {q : List String} (hq : q ≠ []) :
    ((directory (insertAll [] paths)).kindAt? q = some true ↔
        ∃ path ∈ paths, q <+: path ∧ q ≠ path) ∧
      ((directory (insertAll [] paths)).kindAt? q = some false ↔
        q ∈ paths ∧ ¬ ∃ path ∈ paths, q <+: path ∧ q ≠ path) := by
  have hnothing : (directory []).kindAt? q = none := by
    obtain ⟨name, rest, rfl⟩ := List.exists_cons_of_ne_nil hq
    simp [kindAt?_cons]
  rw [kindAt?_insertAll paths orderedAll_nil, hnothing]
  by_cases hpassed : ∃ path ∈ paths, q <+: path ∧ q ≠ path
  · rw [if_pos hpassed]
    exact ⟨iff_of_true rfl hpassed, iff_of_false (by simp) fun h => h.2 hpassed⟩
  · rw [if_neg hpassed]
    by_cases hend : q ∈ paths
    · rw [if_pos hend]
      exact ⟨iff_of_false (by simp) hpassed, iff_of_true rfl ⟨hend, hpassed⟩⟩
    · rw [if_neg hend]
      exact ⟨iff_of_false (by simp) hpassed, iff_of_false (by simp) fun h => hend h.1⟩

/-! ## the paths of all entries -/

mutual

/-- The paths of all entries of a directory that is reached by `above`, each directory before what
is in it. -/
def entryPaths (above : List String) : List (String × TreeEntry) → List (List String)
  | [] => []
  | named :: rest => entryPathsAt above named ++ entryPaths above rest

def entryPathsAt (above : List String) : String × TreeEntry → List (List String)
  | (name, entry) => (above ++ [name]) :: entryPathsBelow (above ++ [name]) entry

/-- The paths of the entries below an entry that is reached by `above`. -/
def entryPathsBelow (above : List String) : TreeEntry → List (List String)
  | file => []
  | directory entries => entryPaths above entries

end

theorem mem_entryPaths_iff_exists {above q : List String} {entries : List (String × TreeEntry)} :
    q ∈ entryPaths above entries ↔
      ∃ named ∈ entries,
        q = above ++ [named.1] ∨ q ∈ entryPathsBelow (above ++ [named.1]) named.2 := by
  induction entries with
  | nil => simp [entryPaths]
  | cons named rest ih =>
    obtain ⟨name, entry⟩ := named
    simp [entryPaths, entryPathsAt, ih, or_assoc]

theorem mem_entryPathsBelow {e : TreeEntry} (h : e.Ordered) {above q : List String} :
    q ∈ entryPathsBelow above e ↔
      ∃ path, path ≠ [] ∧ q = above ++ path ∧ (e.kindAt? path).isSome := by
  induction e using ind generalizing above q with
  | hfile =>
    simp only [entryPathsBelow, List.not_mem_nil, false_iff]
    rintro ⟨path, hne, -, hkind⟩
    obtain ⟨name, rest, rfl⟩ := List.exists_cons_of_ne_nil hne
    simp [kindAt?_file_cons] at hkind
  | hdirectory es ih =>
    have hsorted : Sorted es := sorted_children h
    rw [entryPathsBelow, mem_entryPaths_iff_exists]
    constructor
    · rintro ⟨⟨name, f⟩, hmem, hq⟩
      have hlook := (Entries.lookup_eq_some_iff_mem hsorted.nodup).2 hmem
      rcases hq with rfl | hq
      · exact ⟨[name], by simp, rfl, by simp [kindAt?_cons, hlook]⟩
      · obtain ⟨path, -, rfl, hkind⟩ := (ih _ hmem (ordered_of_lookup h hlook)).1 hq
        exact ⟨name :: path, by simp, by simp, by simpa [kindAt?_cons, hlook] using hkind⟩
    · rintro ⟨path, hne, rfl, hkind⟩
      obtain ⟨name, rest, rfl⟩ := List.exists_cons_of_ne_nil hne
      rw [kindAt?_cons, children_directory] at hkind
      cases hlook : es.lookup name with
      | none => simp [hlook] at hkind
      | some f =>
        have hmem := Entries.mem_of_lookup hlook
        refine ⟨(name, f), hmem, ?_⟩
        rcases rest with _ | ⟨next, rest⟩
        · exact Or.inl rfl
        · have hf := ordered_of_lookup h hlook
          refine Or.inr ((ih _ hmem hf).2 ⟨next :: rest, by simp, by simp, ?_⟩)
          simpa [hlook] using hkind

/-- What a longer path passes through is a directory. -/
theorem kindAt?_of_passed {e : TreeEntry} {q p : List String} (hq : q <+: p) (hne : q ≠ p)
    (hp : (e.kindAt? p).isSome) : e.kindAt? q = some true := by
  induction q generalizing e p with
  | nil =>
    obtain ⟨name, rest, rfl⟩ := List.exists_cons_of_ne_nil (Ne.symm hne)
    cases e with
    | file => simp [kindAt?_file_cons] at hp
    | directory es => simp [isDirectory]
  | cons name q ih =>
    obtain ⟨tail, rfl⟩ := hq
    rw [List.cons_append, kindAt?_cons] at hp
    rw [kindAt?_cons]
    cases hlook : e.children.lookup name with
    | none => simp [hlook] at hp
    | some f =>
      rw [hlook] at hp
      exact ih (List.prefix_append q tail) (by simpa using hne) hp

/-! ## properties of all entries -/

mutual

/-- Every entry below an entry, at any depth, has a property together with its name. -/
def Throughout (P : String → TreeEntry → Prop) : TreeEntry → Prop
  | file => True
  | directory entries => ThroughoutAll P entries

/-- The entries of a directory, and all those below them, have a property. -/
def ThroughoutAll (P : String → TreeEntry → Prop) : List (String × TreeEntry) → Prop
  | [] => True
  | named :: rest => ThroughoutNamed P named ∧ ThroughoutAll P rest

def ThroughoutNamed (P : String → TreeEntry → Prop) : String × TreeEntry → Prop
  | (name, entry) => P name entry ∧ Throughout P entry

end

variable {P Q : String → TreeEntry → Prop}

theorem throughoutAll_iff {entries : List (String × TreeEntry)} :
    ThroughoutAll P entries ↔ ∀ named ∈ entries, P named.1 named.2 ∧ Throughout P named.2 := by
  induction entries with
  | nil => simp [ThroughoutAll]
  | cons named rest ih =>
    obtain ⟨name, entry⟩ := named
    simp only [ThroughoutAll, ThroughoutNamed, ih, List.mem_cons, forall_eq_or_imp]

theorem throughoutAll_children {e : TreeEntry} (h : Throughout P e) :
    ThroughoutAll P e.children := by
  cases e with
  | file => simp [ThroughoutAll]
  | directory entries => simpa [Throughout] using h

theorem Throughout.imp (h : ∀ name e, P name e → Q name e) {e : TreeEntry}
    (he : Throughout P e) : Throughout Q e := by
  induction e using ind with
  | hfile => simp [Throughout]
  | hdirectory es ih =>
    rw [Throughout, throughoutAll_iff] at he ⊢
    intro named hnamed
    exact ⟨h _ _ (he named hnamed).1, ih named hnamed (he named hnamed).2⟩

theorem ThroughoutAll.imp (h : ∀ name e, P name e → Q name e)
    {entries : List (String × TreeEntry)} (he : ThroughoutAll P entries) :
    ThroughoutAll Q entries :=
  Throughout.imp (e := directory entries) h he

theorem Throughout.and {e : TreeEntry} (hP : Throughout P e) (hQ : Throughout Q e) :
    Throughout (fun name f => P name f ∧ Q name f) e := by
  induction e using ind with
  | hfile => simp [Throughout]
  | hdirectory es ih =>
    rw [Throughout, throughoutAll_iff] at hP hQ ⊢
    intro named hnamed
    obtain ⟨hp, hpbelow⟩ := hP named hnamed
    obtain ⟨hq, hqbelow⟩ := hQ named hnamed
    exact ⟨⟨hp, hq⟩, ih named hnamed hpbelow hqbelow⟩

/-- A change of one entry keeps a property of all entries if it keeps it there. -/
theorem throughoutAll_alter {name : String} {change : Option TreeEntry → TreeEntry}
    (absent : P name (change none) ∧ Throughout P (change none))
    (present : ∀ e, P name e ∧ Throughout P e →
      P name (change (some e)) ∧ Throughout P (change (some e)))
    {entries : List (String × TreeEntry)} (h : ThroughoutAll P entries) :
    ThroughoutAll P (alter name change entries) := by
  induction entries with
  | nil => simpa [alter, ThroughoutAll, ThroughoutNamed] using absent
  | cons named rest ih =>
    obtain ⟨key, entry⟩ := named
    simp only [ThroughoutAll, ThroughoutNamed] at h
    obtain ⟨first, tail⟩ := h
    unfold alter
    dsimp only
    split
    · simp only [ThroughoutAll, ThroughoutNamed]
      exact ⟨absent, first, tail⟩
    · split
      · rename_i same
        subst same
        simp only [ThroughoutAll, ThroughoutNamed]
        exact ⟨present entry first, tail⟩
      · simp only [ThroughoutAll, ThroughoutNamed]
        exact ⟨first, ih tail⟩

theorem alter_ne_nil (name : String) (change : Option TreeEntry → TreeEntry)
    (entries : List (String × TreeEntry)) : alter name change entries ≠ [] := by
  cases entries with
  | nil => simp [alter]
  | cons named rest =>
    unfold alter
    split
    · simp
    · split <;> simp

theorem insertPath_ne_nil {path : List String} (h : path ≠ [])
    (entries : List (String × TreeEntry)) : insertPath path entries ≠ [] := by
  rcases path with _ | ⟨name, _ | ⟨next, rest⟩⟩
  · exact absurd rfl h
  · exact alter_ne_nil _ _ _
  · exact alter_ne_nil _ _ _

/-- An entry is no empty directory. -/
def Occupied (e : TreeEntry) : Prop := e ≠ directory []

/-- The insertion of a path with good names into a tree with good names and no empty directory
gives another one. -/
theorem throughoutAll_insertPath {good : String → Prop} {path : List String}
    (hpath : ∀ name ∈ path, good name) {entries : List (String × TreeEntry)}
    (h : ThroughoutAll (fun name e => Occupied e ∧ good name) entries) :
    ThroughoutAll (fun name e => Occupied e ∧ good name) (insertPath path entries) := by
  induction path generalizing entries with
  | nil => exact h
  | cons name path ih =>
    have hname := hpath name List.mem_cons_self
    have hrest : ∀ n ∈ path, good n := fun n hn => hpath n (List.mem_cons_of_mem _ hn)
    cases path with
    | nil =>
      refine throughoutAll_alter ⟨⟨by simp [Occupied], hname⟩, by simp [Throughout]⟩ ?_ h
      intro e he
      simpa using he
    | cons next rest =>
      have hocc : ∀ es, Occupied (directory (insertPath (next :: rest) es)) := by
        intro es e
        exact insertPath_ne_nil (by simp) es (directory.inj e)
      refine throughoutAll_alter ⟨⟨hocc _, hname⟩, ?_⟩ (fun e he => ⟨⟨hocc _, hname⟩, ?_⟩) h
      · simpa [Throughout] using ih hrest (by simp [ThroughoutAll])
      · simpa [Throughout] using ih hrest (throughoutAll_children he.2)

/-- An entry without empty directories has a file in it, or is one. -/
theorem exists_file {e : TreeEntry} (hocc : Occupied e)
    (hbelow : Throughout (fun _ f => Occupied f) e) : ∃ path, e.kindAt? path = some false := by
  induction e using ind with
  | hfile => exact ⟨[], rfl⟩
  | hdirectory es ih =>
    cases es with
    | nil => exact absurd rfl hocc
    | cons named rest =>
      obtain ⟨name, f⟩ := named
      obtain ⟨hf, hbelow⟩ := throughoutAll_iff.1 hbelow (name, f) List.mem_cons_self
      obtain ⟨path, hpath⟩ := ih (name, f) List.mem_cons_self hf hbelow
      exact ⟨name :: path, by simpa [kindAt?_cons] using hpath⟩

/-- Below every directory that a path leads to there is a file. -/
theorem exists_file_below {e : TreeEntry} (h : e.Ordered)
    (hocc : Throughout (fun _ f => Occupied f) e) {q : List String} (hq : q ≠ [])
    (hkind : e.kindAt? q = some true) : ∃ path ≠ [], e.kindAt? (q ++ path) = some false := by
  induction q generalizing e with
  | nil => exact absurd rfl hq
  | cons name q ih =>
    rw [kindAt?_cons] at hkind
    cases hlook : e.children.lookup name with
    | none => simp [hlook] at hkind
    | some f =>
      rw [hlook, Option.bind_some] at hkind
      have hmem := Entries.mem_of_lookup hlook
      obtain ⟨hf, hbelow⟩ := throughoutAll_iff.1 (throughoutAll_children hocc) _ hmem
      by_cases hnil : q = []
      · subst hnil
        obtain ⟨path, hpath⟩ := exists_file hf hbelow
        refine ⟨path, fun e => ?_, by simpa [kindAt?_cons, hlook] using hpath⟩
        subst e
        rw [hkind] at hpath
        cases hpath
      · obtain ⟨path, hne, hpath⟩ := ih (ordered_of_lookup h hlook) hbelow hnil hkind
        exact ⟨path, hne, by simpa [kindAt?_cons, hlook] using hpath⟩

theorem mem_entryPaths {entries : List (String × TreeEntry)} (h : OrderedAll entries)
    {q : List String} :
    q ∈ entryPaths [] entries ↔ q ≠ [] ∧ ((directory entries).kindAt? q).isSome := by
  have hdir : (directory entries).Ordered := h
  have hbelow : q ∈ entryPathsBelow [] (directory entries) ↔ _ := mem_entryPathsBelow hdir
  simpa [entryPathsBelow] using hbelow

/-- What is passed on the way to an entry is an entry. -/
theorem mem_entryPaths_of_passed {entries : List (String × TreeEntry)} (h : OrderedAll entries)
    {q p : List String} (hp : p ∈ entryPaths [] entries) (hq : q <+: p) (hne : q ≠ []) :
    q ∈ entryPaths [] entries := by
  by_cases heq : q = p
  · rwa [heq]
  · refine (mem_entryPaths h).2 ⟨hne, ?_⟩
    rw [kindAt?_of_passed hq heq ((mem_entryPaths h).1 hp).2]
    rfl

/-- What is found in a tree that is made of paths lies on one of them. -/
theorem exists_path_of_mem_entryPaths_insertAll {paths : List (List String)} {q : List String}
    (hq : q ∈ entryPaths [] (insertAll [] paths)) : ∃ path ∈ paths, q <+: path := by
  obtain ⟨hne, hsome⟩ := (mem_entryPaths (orderedAll_insertAll paths orderedAll_nil)).1 hq
  obtain ⟨hdirectory, hfile⟩ := kindAt?_insertAll_nil paths hne
  obtain ⟨kind, hkind⟩ := Option.isSome_iff_exists.1 hsome
  cases kind with
  | true =>
    obtain ⟨path, hpath, hpre, -⟩ := hdirectory.1 hkind
    exact ⟨path, hpath, hpre⟩
  | false => exact ⟨q, (hfile.1 hkind).1, List.prefix_rfl⟩

/-- A property of all names is one of the names in all paths. -/
theorem throughout_iff_entryPathsBelow {good : String → Prop} {e : TreeEntry} {above : List String}
    (habove : ∀ name ∈ above, good name) :
    Throughout (fun name _ => good name) e ↔
      ∀ q ∈ entryPathsBelow above e, ∀ name ∈ q, good name := by
  induction e using ind generalizing above with
  | hfile => simp [Throughout, entryPathsBelow]
  | hdirectory es ih =>
    rw [Throughout, throughoutAll_iff, entryPathsBelow]
    constructor
    · intro h q hq
      obtain ⟨named, hmem, hq⟩ := mem_entryPaths_iff_exists.1 hq
      have habove' : ∀ name ∈ above ++ [named.1], good name := by
        intro name hname
        rcases List.mem_append.1 hname with hname | hname
        · exact habove name hname
        · rw [List.mem_singleton.1 hname]
          exact (h named hmem).1
      rcases hq with rfl | hq
      · exact habove'
      · exact (ih named hmem habove').1 (h named hmem).2 q hq
    · intro h named hmem
      have hown : ∀ name ∈ above ++ [named.1], good name :=
        h _ (mem_entryPaths_iff_exists.2 ⟨named, hmem, Or.inl rfl⟩)
      refine ⟨hown named.1 (by simp), (ih named hmem hown).2 fun q hq => ?_⟩
      exact h q (mem_entryPaths_iff_exists.2 ⟨named, hmem, Or.inr hq⟩)

/-- A tree without empty directories is made of any paths that lead to all its files and nowhere
outside it. -/
theorem insertAll_eq {entries : List (String × TreeEntry)} (h : OrderedAll entries)
    (hocc : ThroughoutAll (fun _ e => Occupied e) entries) {paths : List (List String)}
    (hfiles : ∀ q, (directory entries).kindAt? q = some false → q ∈ paths)
    (hpaths : ∀ q ∈ paths, ((directory entries).kindAt? q).isSome) :
    insertAll [] paths = entries := by
  have hdir : (directory entries).Ordered := h
  have hpassed : ∀ q ≠ [], (∃ path ∈ paths, q <+: path ∧ q ≠ path) ↔
      (directory entries).kindAt? q = some true := by
    intro q hq
    constructor
    · rintro ⟨path, hpath, hpre, hne⟩
      exact kindAt?_of_passed hpre hne (hpaths path hpath)
    · -- a directory is passed on the way to the files in it
      intro hkind
      obtain ⟨rest, hne, hfile⟩ := exists_file_below hdir hocc hq hkind
      exact ⟨q ++ rest, hfiles _ hfile, List.prefix_append q rest, by simpa using hne⟩
  refine directory.inj (eq_of_kindAt? (orderedAll_insertAll _ orderedAll_nil) h fun q => ?_)
  by_cases hq : q = []
  · subst hq
    rfl
  · obtain ⟨hdirectory, hfile⟩ := kindAt?_insertAll_nil paths hq
    refine Option.ext fun kind => ?_
    cases kind with
    | true => exact hdirectory.trans (hpassed q hq)
    | false =>
      rw [hfile, hpassed q hq]
      constructor
      · rintro ⟨hmem, hnot⟩
        obtain ⟨kind, hkind⟩ := Option.isSome_iff_exists.1 (hpaths q hmem)
        cases kind with
        | true => exact absurd hkind hnot
        | false => exact hkind
      · intro hkind
        exact ⟨hfiles q hkind, by simp [hkind]⟩

/-- A tree without empty directories is made of the paths of its entries. -/
theorem insertAll_entryPaths {entries : List (String × TreeEntry)} (h : OrderedAll entries)
    (hocc : ThroughoutAll (fun _ e => Occupied e) entries) :
    insertAll [] (entryPaths [] entries) = entries := by
  refine insertAll_eq h hocc (fun q hkind => ?_) fun q hq => ((mem_entryPaths h).1 hq).2
  refine (mem_entryPaths h).2 ⟨?_, Option.isSome_of_eq_some hkind⟩
  rintro rfl
  cases hkind

end TreeEntry

end SourceAtlas
