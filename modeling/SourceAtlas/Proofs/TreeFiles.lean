import Mathlib.Data.List.Pairwise
import SourceAtlas.Proofs.Names
import SourceAtlas.Proofs.Order
import SourceAtlas.Proofs.TreeView

/-!
The files of a directory tree and the paths it is made of.

* `TreeEntry.filesIn`: the files of a tree, each by the names that lead to it.
* `TreeEntry.pairwise_filesIn`: they are listed in the order of these names.
* `TreeEntry.mem_filesBelow_insertAll`: where no path is the beginning of another one, no file is
  made a directory, and the files are the paths that were inserted.
* `DirectoryTree.filePaths_ofPaths`: such paths are found again, whatever the order of insertion.
-/

namespace SourceAtlas

namespace TreeEntry

/-! ## the files of a tree -/

mutual

/-- The files in an entry that is reached by `above`. -/
def filesIn (above : List String) : TreeEntry → List (List String)
  | file => [above]
  | directory entries => filesBelow above entries

/-- The files among the entries of a directory that is reached by `above`. -/
def filesBelow (above : List String) : List (String × TreeEntry) → List (List String)
  | [] => []
  | named :: rest => filesAt above named ++ filesBelow above rest

def filesAt (above : List String) : String × TreeEntry → List (List String)
  | (name, entry) => filesIn (above ++ [name]) entry

end

theorem filesBelow_eq_flatMap (above : List String) (entries : List (String × TreeEntry)) :
    filesBelow above entries =
      entries.flatMap fun named => filesIn (above ++ [named.1]) named.2 := by
  induction entries with
  | nil => simp [filesBelow]
  | cons named rest ih =>
    obtain ⟨name, entry⟩ := named
    simp [filesBelow, filesAt, ih]

theorem pathsBelow_eq_flatMap (path : String) (entries : List (String × TreeEntry)) :
    pathsBelow path entries = entries.flatMap fun named =>
      pathsIn (if path.isEmpty then named.1 else path ++ "/" ++ named.1) named.2 := by
  induction entries with
  | nil => simp [pathsBelow]
  | cons named rest ih =>
    obtain ⟨name, entry⟩ := named
    simp [pathsBelow, pathsAt, ih]

/-- One more name after those that are joined by slashes. Only if there are none yet, nothing is
joined. -/
theorem intercalate_concat {above : List String} (h : ∀ name ∈ above, name ≠ "") (name : String) :
    (if ("/".intercalate above).isEmpty then name else "/".intercalate above ++ "/" ++ name) =
      "/".intercalate (above ++ [name]) := by
  cases above with
  | nil => simp
  | cons first rest =>
    have hfull : ("/".intercalate (first :: rest)).isEmpty = false := by
      have hfirst := h first List.mem_cons_self
      cases rest <;> simp [hfirst]
    rw [hfull, String.intercalate_append_of_ne_nil (by simp) (by simp),
      String.intercalate_singleton]
    rfl

/-- The paths of the files are their names, joined by slashes. -/
theorem pathsIn_intercalate {e : TreeEntry} (he : Throughout (fun name _ => name ≠ "") e)
    (above : List String) (habove : ∀ name ∈ above, name ≠ "") :
    pathsIn ("/".intercalate above) e = (filesIn above e).map ("/".intercalate ·) := by
  induction e using ind generalizing above with
  | hfile => simp [pathsIn, filesIn]
  | hdirectory es ih =>
    rw [Throughout, throughoutAll_iff] at he
    rw [pathsIn, filesIn, pathsBelow_eq_flatMap, filesBelow_eq_flatMap, List.map_flatMap]
    refine List.flatMap_congr fun named hnamed => ?_
    obtain ⟨hname, hbelow⟩ := he named hnamed
    rw [intercalate_concat habove]
    exact ih named hnamed hbelow _
      (List.forall_mem_append.2 ⟨habove, List.forall_mem_singleton.2 hname⟩)

/-- The files in an entry are what its paths lead to, directories apart. -/
theorem mem_filesIn {e : TreeEntry} (h : e.Ordered) {above q : List String} :
    q ∈ filesIn above e ↔ ∃ path, q = above ++ path ∧ e.kindAt? path = some false := by
  induction e using ind generalizing above q with
  | hfile =>
    rw [filesIn, List.mem_singleton]
    constructor
    · rintro rfl
      exact ⟨[], by simp, rfl⟩
    · rintro ⟨path, rfl, hkind⟩
      cases path with
      | nil => simp
      | cons name rest => simp [kindAt?_file_cons] at hkind
  | hdirectory es ih =>
    have hsorted : Sorted es := sorted_children h
    rw [filesIn, filesBelow_eq_flatMap, List.mem_flatMap]
    constructor
    · rintro ⟨⟨name, f⟩, hmem, hq⟩
      have hlook := (Entries.lookup_eq_some_iff_mem hsorted.nodup).2 hmem
      obtain ⟨path, rfl, hkind⟩ := (ih _ hmem (ordered_of_lookup h hlook)).1 hq
      exact ⟨name :: path, by simp, by simpa [kindAt?_cons, hlook] using hkind⟩
    · rintro ⟨path, rfl, hkind⟩
      cases path with
      | nil => simp [isDirectory] at hkind
      | cons name rest =>
        rw [kindAt?_cons, children_directory, Option.bind_eq_some_iff] at hkind
        obtain ⟨f, hlook, hkind⟩ := hkind
        have hmem := Entries.mem_of_lookup hlook
        refine ⟨(name, f), hmem, (ih _ hmem (ordered_of_lookup h hlook)).2 ⟨rest, ?_, hkind⟩⟩
        simp

theorem mem_filesBelow {entries : List (String × TreeEntry)} (h : OrderedAll entries)
    {q : List String} :
    q ∈ filesBelow [] entries ↔ (directory entries).kindAt? q = some false := by
  have hdir : (directory entries).Ordered := h
  rw [← filesIn, mem_filesIn hdir]
  simp

/-- The names of each file part from those of the files after it. -/
theorem pairwise_filesIn {e : TreeEntry} (h : e.Ordered) (above : List String) :
    (filesIn above e).Pairwise (Parts (· < ·)) := by
  induction e using ind generalizing above with
  | hfile => simp [filesIn]
  | hdirectory es ih =>
    obtain ⟨hsorted, hordered⟩ := orderedAll_iff.1 (orderedAll_children h)
    rw [filesIn, filesBelow_eq_flatMap, List.pairwise_flatMap]
    refine ⟨fun named hnamed => ih named hnamed (hordered named hnamed) _, ?_⟩
    refine hsorted.imp_of_mem fun ha hb hlt => ?_
    intro p hp q hq
    obtain ⟨rest, rfl, -⟩ := (mem_filesIn (hordered _ ha)).1 hp
    obtain ⟨rest', rfl, -⟩ := (mem_filesIn (hordered _ hb)).1 hq
    rw [List.append_assoc, List.append_assoc]
    exact (parts_cons hlt rest rest').append_left above

/-! ## insertions -/

theorem throughoutAll_insertAll {good : String → Prop} {paths : List (List String)}
    (hpaths : ∀ path ∈ paths, ∀ name ∈ path, good name) {entries : List (String × TreeEntry)}
    (h : ThroughoutAll (fun name e => Occupied e ∧ good name) entries) :
    ThroughoutAll (fun name e => Occupied e ∧ good name) (insertAll entries paths) := by
  induction paths generalizing entries with
  | nil => exact h
  | cons path paths ih =>
    refine ih (fun p hp => hpaths p (List.mem_cons_of_mem _ hp)) ?_
    exact throughoutAll_insertPath (hpaths path List.mem_cons_self) h

/-- No path passes through the end of another one. -/
def PrefixFree (paths : List (List String)) : Prop :=
  ∀ p ∈ paths, ∀ q ∈ paths, p <+: q → p = q

theorem prefixFree_of_pairwise {paths : List (List String)}
    (h : paths.Pairwise (Parts (· < ·))) : PrefixFree paths := by
  have hparts : paths.Pairwise fun p q => ¬ p <+: q ∧ ¬ q <+: p :=
    h.imp fun hpq => hpq.not_prefix String.lt_irrefl
  have : Std.Symm fun p q : List String => ¬ p <+: q ∧ ¬ q <+: p := ⟨fun _ _ h => ⟨h.2, h.1⟩⟩
  intro p hp q hq hpre
  by_contra hne
  exact (hparts.forall hp hq hne).1 hpre

/-- The files of a tree that is made of paths, none of which passes through another one's end. -/
theorem mem_filesBelow_insertAll {paths : List (List String)} (hfree : PrefixFree paths)
    (hnil : [] ∉ paths) {q : List String} : q ∈ filesBelow [] (insertAll [] paths) ↔ q ∈ paths := by
  rw [mem_filesBelow (orderedAll_insertAll paths orderedAll_nil)]
  by_cases hq : q = []
  · subst hq
    exact iff_of_false (by simp [isDirectory]) hnil
  · rw [(kindAt?_insertAll_nil paths hq).2]
    refine and_iff_left_of_imp fun hmem => ?_
    rintro ⟨path, hpath, hpre, hne⟩
    exact hne (hfree q hmem path hpath hpre)

end TreeEntry

namespace DirectoryTree

open TreeEntry

/-! ## a tree that is made of paths -/

theorem ofPaths_eq_insertAll (paths : List String) :
    ofPaths paths = empty.insertAll (paths.map segments) := by
  rw [ofPaths, insertAll, List.foldl_map]

theorem entries_ofPaths (paths : List String) :
    (ofPaths paths).entries = TreeEntry.insertAll [] (paths.map segments) := by
  rw [ofPaths_eq_insertAll, entries_insertAll]
  rfl

/-- The paths of the files are their names, joined by slashes. -/
theorem filePaths_eq_map {t : DirectoryTree}
    (h : ThroughoutAll (fun name _ => name ≠ "") t.entries) :
    t.filePaths = (filesBelow [] t.entries).map ("/".intercalate ·) := by
  have hroot : Throughout (fun name _ => name ≠ "") (directory t.entries) := h
  have hjoined := pathsIn_intercalate hroot [] (by simp)
  rwa [pathsIn, filesIn] at hjoined

section OfPaths

variable {files : List (List String)} {paths : List String}

theorem map_segments_intercalate
    (hfiles : ∀ names ∈ files, names ≠ [] ∧ ∀ name ∈ names, SegmentName name) :
    (files.map ("/".intercalate ·)).map segments = files := by
  rw [List.map_map]
  refine (List.map_congr_left fun names h => ?_).trans (List.map_id _)
  exact segments_intercalate (hfiles names h).2

theorem perm_map_segments (hfiles : ∀ names ∈ files, names ≠ [] ∧ ∀ name ∈ names, SegmentName name)
    (hpaths : paths.Perm (files.map ("/".intercalate ·))) : (paths.map segments).Perm files := by
  have hperm := hpaths.map segments
  rwa [map_segments_intercalate hfiles] at hperm

/-- A tree that is made of the paths of some files has just their names. -/
theorem throughoutAll_ofPaths {good : String → Prop}
    (hfiles : ∀ names ∈ files, names ≠ [] ∧ ∀ name ∈ names, SegmentName name)
    (hgood : ∀ names ∈ files, ∀ name ∈ names, good name)
    (hpaths : paths.Perm (files.map ("/".intercalate ·))) :
    ThroughoutAll (fun name e => Occupied e ∧ good name) (ofPaths paths).entries := by
  rw [entries_ofPaths]
  refine throughoutAll_insertAll (fun path hpath => ?_) (by simp [ThroughoutAll])
  exact hgood path ((perm_map_segments hfiles hpaths).mem_iff.1 hpath)

/-- Files whose names part are found again in the tree that is made of their paths, in their own
order. The order in which the paths are inserted does not matter. -/
theorem filePaths_ofPaths (hparts : files.Pairwise (Parts (· < ·)))
    (hfiles : ∀ names ∈ files, names ≠ [] ∧ ∀ name ∈ names, SegmentName name)
    (hpaths : paths.Perm (files.map ("/".intercalate ·))) :
    (ofPaths paths).filePaths = files.map ("/".intercalate ·) := by
  have hperm := perm_map_segments hfiles hpaths
  have hfree : PrefixFree (paths.map segments) := by
    intro p hp q hq
    exact prefixFree_of_pairwise hparts p (hperm.mem_iff.1 hp) q (hperm.mem_iff.1 hq)
  have hnil : [] ∉ paths.map segments := by
    intro h
    exact (hfiles [] (hperm.mem_iff.1 h)).1 rfl
  have hordered : (directory (ofPaths paths).entries).Ordered := (ofPaths paths).ordered
  have hfound : filesBelow [] (ofPaths paths).entries = files := by
    refine eq_of_pairwise_parts (pairwise_filesIn hordered []) hparts fun q => ?_
    rw [entries_ofPaths, mem_filesBelow_insertAll hfree hnil, hperm.mem_iff]
  have hnames := throughoutAll_ofPaths hfiles
    (fun names h name hname => ((hfiles names h).2 name hname).1) hpaths
  rw [filePaths_eq_map (hnames.imp fun _ _ h => h.2), hfound]

end OfPaths

end DirectoryTree

end SourceAtlas
