import SourceAtlas.Proofs.TreeFiles

/-!
Directory trees and the sets of paths that they are made of.

* `DirectoryTree.at?`: what the names of a path lead to.
* `DirectoryTree.pathSet`: the names in some paths, as a set. `Passed`: a path of the set goes on
  beyond some names.
* `DirectoryTree.ofPaths_determined_by_set`: a tree that is made of paths has a directory where one
  of them passes and a file where one ends and none passes, whatever their order.
* `DirectoryTree.filePaths_lists_files`: the files of a tree are listed once each, in the order of
  their names, and the tree is made of their paths.
-/

namespace SourceAtlas

namespace TreeEntry

theorem kindAt?_eq_true_iff {e : TreeEntry} {path : List String} :
    e.kindAt? path = some true ↔ ∃ entries, e.at? path = some (directory entries) := by
  rw [kindAt?, Option.map_eq_some_iff]
  constructor
  · rintro ⟨f, hf, hkind⟩
    cases f with
    | file => cases hkind
    | directory entries => exact ⟨entries, hf⟩
  · rintro ⟨entries, hentries⟩
    exact ⟨directory entries, hentries, rfl⟩

theorem kindAt?_eq_false_iff {e : TreeEntry} {path : List String} :
    e.kindAt? path = some false ↔ e.at? path = some file := by
  rw [kindAt?, Option.map_eq_some_iff]
  constructor
  · rintro ⟨f, hf, hkind⟩
    cases f with
    | file => exact hf
    | directory entries => cases hkind
  · intro hfile
    exact ⟨file, hfile, rfl⟩

theorem kindAt?_eq_none_iff {e : TreeEntry} {path : List String} :
    e.kindAt? path = none ↔ e.at? path = none :=
  Option.map_eq_none_iff

end TreeEntry

namespace DirectoryTree

open TreeEntry

/-- What the names of a path lead to, one below the other. -/
def at? (t : DirectoryTree) (path : List String) : Option TreeEntry :=
  (directory t.entries).at? path

/-- Whether the names of a path lead to a directory; nothing if they lead nowhere. -/
def kindAt? (t : DirectoryTree) (path : List String) : Option Bool :=
  (directory t.entries).kindAt? path

/-- Two trees are equal if they have the same directories and the same files. -/
theorem eq_of_kinds {s t : DirectoryTree}
    (hdirectories : ∀ q ≠ [], s.kindAt? q = some true ↔ t.kindAt? q = some true)
    (hfiles : ∀ q ≠ [], s.kindAt? q = some false ↔ t.kindAt? q = some false) : s = t := by
  refine eq_of_entries (directory.inj (eq_of_kindAt? s.ordered t.ordered fun q => ?_))
  by_cases hq : q = []
  · subst hq
    rfl
  · refine Option.ext fun kind => ?_
    cases kind with
    | true => exact hdirectories q hq
    | false => exact hfiles q hq

/-! ## sets of paths -/

/-- The names in some paths. A path without names does not count. -/
def pathSet (paths : List String) : Set (List String) :=
  { names | names ≠ [] ∧ ∃ path ∈ paths, segments path = names }

/-- One of the paths leads on beyond `q`. -/
def Passed (paths : Set (List String)) (q : List String) : Prop :=
  ∃ names ∈ paths, q <+: names ∧ q ≠ names

theorem passed_pathSet_iff {paths : List String} {q : List String} :
    Passed (pathSet paths) q ↔ ∃ names ∈ paths.map segments, q <+: names ∧ q ≠ names := by
  constructor
  · rintro ⟨names, ⟨-, path, hpath, rfl⟩, hq⟩
    exact ⟨segments path, List.mem_map_of_mem hpath, hq⟩
  · rintro ⟨names, hnames, hpre, hne⟩
    obtain ⟨path, hpath, rfl⟩ := List.mem_map.1 hnames
    -- nothing leads on beyond `q` without a name
    have hsome : segments path ≠ [] := by
      intro hnil
      rw [hnil] at hpre hne
      exact hne (List.prefix_nil.1 hpre)
    exact ⟨segments path, ⟨hsome, path, hpath, rfl⟩, hpre, hne⟩

theorem mem_pathSet_iff {paths : List String} {q : List String} (hq : q ≠ []) :
    q ∈ pathSet paths ↔ q ∈ paths.map segments := by
  rw [List.mem_map]
  exact and_iff_right hq

/-- What is found in a tree that is made of paths. -/
theorem kindAt?_ofPaths (paths : List String) {q : List String} (hq : q ≠ []) :
    ((ofPaths paths).kindAt? q = some true ↔ Passed (pathSet paths) q) ∧
      ((ofPaths paths).kindAt? q = some false ↔
        q ∈ pathSet paths ∧ ¬ Passed (pathSet paths) q) := by
  rw [kindAt?, entries_ofPaths, passed_pathSet_iff, mem_pathSet_iff hq]
  exact kindAt?_insertAll_nil (paths.map segments) hq

theorem ofPaths_eq_of_pathSet {paths others : List String} (h : pathSet others = pathSet paths) :
    ofPaths others = ofPaths paths := by
  refine eq_of_kinds (fun q hq => ?_) fun q hq => ?_
  · rw [(kindAt?_ofPaths others hq).1, (kindAt?_ofPaths paths hq).1, h]
  · rw [(kindAt?_ofPaths others hq).2, (kindAt?_ofPaths paths hq).2, h]

theorem pathSet_eq_of_mem_iff {paths others : List String}
    (h : ∀ path, path ∈ others ↔ path ∈ paths) : pathSet others = pathSet paths := by
  ext names
  show (names ≠ [] ∧ ∃ path ∈ others, segments path = names) ↔ _
  simp only [h]
  rfl

/-- **A tree is determined by the set of its paths.**  Where one of the paths leads on there is a
directory, where one of them ends and none leads on there is a file, and there is nothing elsewhere.
So it does not matter in what order the paths are inserted, and how many times. -/
theorem ofPaths_determined_by_set (paths : List String) :
    (∀ q ≠ [],
      ((∃ entries, (ofPaths paths).at? q = some (.directory entries)) ↔
        Passed (pathSet paths) q) ∧
      ((ofPaths paths).at? q = some .file ↔ q ∈ pathSet paths ∧ ¬ Passed (pathSet paths) q) ∧
      ((ofPaths paths).at? q = none ↔ q ∉ pathSet paths ∧ ¬ Passed (pathSet paths) q)) ∧
    (∀ others, pathSet others = pathSet paths → ofPaths others = ofPaths paths) ∧
    ∀ others : List String, (∀ path, path ∈ others ↔ path ∈ paths) →
      ofPaths others = ofPaths paths := by
  refine ⟨fun q hq => ?_, fun others h => ofPaths_eq_of_pathSet h,
    fun others h => ofPaths_eq_of_pathSet (pathSet_eq_of_mem_iff h)⟩
  obtain ⟨hdirectory, hfile⟩ := kindAt?_ofPaths paths hq
  refine ⟨kindAt?_eq_true_iff.symm.trans hdirectory, kindAt?_eq_false_iff.symm.trans hfile,
    kindAt?_eq_none_iff.symm.trans ?_⟩
  change (ofPaths paths).kindAt? q = none ↔ _
  cases hkind : (ofPaths paths).kindAt? q with
  | none =>
    simp only [hkind, reduceCtorEq, false_iff, not_and, not_not] at hdirectory hfile
    simp only [hdirectory, not_false_eq_true, and_true, true_iff]
    exact fun hmem => hdirectory (hfile hmem)
  | some isDirectory =>
    cases isDirectory with
    | true => simp [hdirectory.1 hkind]
    | false => simp [(hfile.1 hkind).1]

/-- A file that gets entries becomes a directory, and it stays one. -/
example : (ofPaths ["a", "a\\b", "/a//"]).filePaths = ["a/b"] := by decide

/-! ## the files of a tree -/

section Files

variable {t : DirectoryTree}

theorem ne_nil_of_mem_filesBelow {q : List String} (h : q ∈ filesBelow [] t.entries) : q ≠ [] := by
  rintro rfl
  have hroot := (mem_filesBelow t.ordered).1 h
  cases hroot

/-- The names that lead to a file are names of the tree. -/
theorem good_of_mem_filesBelow {good : String → Prop}
    (h : ThroughoutAll (fun name _ => good name) t.entries) {q : List String}
    (hq : q ∈ filesBelow [] t.entries) : ∀ name ∈ q, good name := by
  have hroot : Throughout (fun name _ => good name) (directory t.entries) := h
  have hpaths : ∀ path ∈ entryPathsBelow [] (directory t.entries), ∀ name ∈ path, good name :=
    (throughout_iff_entryPathsBelow (by simp)).1 hroot
  have hkind := (mem_filesBelow t.ordered).1 hq
  exact hpaths q ((mem_entryPaths t.ordered).2
    ⟨ne_nil_of_mem_filesBelow hq, Option.isSome_of_eq_some hkind⟩)

/-- A tree without empty directories is made of paths, if their names are those of its files. -/
theorem ofPaths_eq_of_map_segments {paths : List String}
    (hocc : ThroughoutAll (fun _ e => Occupied e) t.entries)
    (hpaths : paths.map segments = filesBelow [] t.entries) : ofPaths paths = t := by
  refine eq_of_entries ?_
  rw [entries_ofPaths, hpaths]
  refine insertAll_eq t.ordered hocc (fun q => (mem_filesBelow t.ordered).2) fun q hq => ?_
  exact Option.isSome_of_eq_some ((mem_filesBelow t.ordered).1 hq)

/-- **The files of a tree.**  In a tree without empty directories, whose names are not empty and
have no slashes of either kind, the names that lead to each file, joined by slashes, are listed
once, in the order of the bytes of one name after the other.  The tree is made of these paths. -/
theorem filePaths_lists_files
    (h : ThroughoutAll (fun name e => Occupied e ∧ SegmentName name) t.entries) :
    ∃ files : List (List String), t.filePaths = files.map ("/".intercalate ·) ∧
      (∀ q, q ∈ files ↔ t.at? q = some .file) ∧ files.Pairwise Precedes ∧ t.filePaths.Nodup ∧
      ofPaths t.filePaths = t := by
  have hordered : (directory t.entries).Ordered := t.ordered
  have hparts : (filesBelow [] t.entries).Pairwise (Parts (· < ·)) := pairwise_filesIn hordered []
  have hjoined := filePaths_eq_map (h.imp fun _ _ hname => hname.2.1)
  have hsegments : t.filePaths.map segments = filesBelow [] t.entries := by
    rw [hjoined]
    refine map_segments_intercalate fun names hnames => ⟨ne_nil_of_mem_filesBelow hnames, ?_⟩
    exact good_of_mem_filesBelow (h.imp fun _ _ hname => hname.2) hnames
  refine ⟨filesBelow [] t.entries, hjoined, fun q => ?_, hparts.imp Parts.precedes, ?_,
    ofPaths_eq_of_map_segments (h.imp fun _ _ hname => hname.1) hsegments⟩
  · exact (mem_filesBelow t.ordered).trans kindAt?_eq_false_iff
  · have hnodup : (t.filePaths.map segments).Nodup := by
      rw [hsegments]
      exact hparts.imp fun hpq => hpq.ne String.lt_irrefl
    exact hnodup.of_map segments

end Files

/-- A directory and a file whose name begins like that of the directory. -/
def siblings : DirectoryTree where
  entries := [("a", .directory [("b", .file), ("c", .file)]), ("a-b", .file)]
  ordered := by
    simp only [OrderedAll, OrderedNamed, Ordered]
    decide

/-- What is in the directory comes first, although the texts of the paths have another order. -/
theorem filePaths_lists_files_siblings :
    ThroughoutAll (fun name e => Occupied e ∧ SegmentName name) siblings.entries ∧
      siblings.filePaths = ["a/b", "a/c", "a-b"] ∧ "a-b" < "a/b" ∧
      ∃ files : List (List String), siblings.filePaths = files.map ("/".intercalate ·) ∧
        (∀ q, q ∈ files ↔ siblings.at? q = some .file) ∧ files.Pairwise Precedes ∧
        siblings.filePaths.Nodup ∧ ofPaths siblings.filePaths = siblings := by
  have h : ThroughoutAll (fun name e => Occupied e ∧ SegmentName name) siblings.entries := by
    simp [siblings, ThroughoutAll, ThroughoutNamed, Throughout, Occupied, SegmentName]
  exact ⟨h, by decide, by decide, filePaths_lists_files h⟩

end DirectoryTree

end SourceAtlas
