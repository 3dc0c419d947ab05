import SourceAtlas.Text.Lines

/-!
Directories as trees of names.

* `TreeEntry`: a file, or a directory with its named entries.
* `DirectoryTree`: the entries of a directory. In every directory the names are strictly increasing.
* `DirectoryTree.insert`: adds the path to a file.
* `DirectoryTree.ofPaths`: the tree with given paths.
* `DirectoryTree.filePaths`: the paths of all files.
-/

namespace SourceAtlas

inductive TreeEntry where
  | file
  | directory (entries : List (String × TreeEntry))
deriving Inhabited

namespace TreeEntry

mutual

/-- The names are strictly increasing in all directories of an entry. -/
def Ordered : TreeEntry → Prop
  | file => True
  | directory entries => OrderedAll entries

/-- The names are strictly increasing here and below. -/
def OrderedAll : List (String × TreeEntry) → Prop
  | [] => True
  | named :: rest => (∀ other ∈ rest, named.1 < other.1) ∧ OrderedNamed named ∧ OrderedAll rest

def OrderedNamed : String × TreeEntry → Prop
  | (_, entry) => Ordered entry

end

/-- The entries of a directory; a file has none. -/
def children : TreeEntry → List (String × TreeEntry)
  | file => []
  | directory entries => entries

theorem orderedAll_children {e : TreeEntry} (h : e.Ordered) : OrderedAll e.children := by
  cases e with
  | file => simp [children, OrderedAll]
  | directory entries => simpa [children, Ordered] using h

/-! ## change of one entry -/

/-- Changes the entry of the given name, or puts one where it belongs. -/
def alter (name : String) (change : Option TreeEntry → TreeEntry) :
    List (String × TreeEntry) → List (String × TreeEntry)
  | [] => [(name, change none)]
  | named :: rest =>
    if name < named.1 then (name, change none) :: named :: rest
    else if name = named.1 then (name, change (some named.2)) :: rest
    else named :: alter name change rest

theorem name_of_mem_alter {name : String} {change : Option TreeEntry → TreeEntry}
    {entries : List (String × TreeEntry)} {e : String × TreeEntry}
    (h : e ∈ alter name change entries) : e.1 = name ∨ e ∈ entries := by
  induction entries with
  | nil => simp_all [alter]
  | cons named rest ih =>
    unfold alter at h
    split at h
    · simp only [List.mem_cons] at h ⊢
      rcases h with rfl | h
      · exact Or.inl rfl
      · exact Or.inr h
    · split at h
      · simp only [List.mem_cons] at h ⊢
        rcases h with rfl | h
        · exact Or.inl rfl
        · exact Or.inr (Or.inr h)
      · simp only [List.mem_cons] at h ⊢
        rcases h with rfl | h
        · exact Or.inr (Or.inl rfl)
        · rcases ih h with h | h
          · exact Or.inl h
          · exact Or.inr (Or.inr h)

/-- A change that keeps entries in order keeps the whole directory in order. -/
theorem orderedAll_alter {name : String} {change : Option TreeEntry → TreeEntry}
    (absent : (change none).Ordered) (present : ∀ e, e.Ordered → (change (some e)).Ordered)
    {entries : List (String × TreeEntry)} (h : OrderedAll entries) :
    OrderedAll (alter name change entries) := by
  induction entries with
  | nil => simpa [alter, OrderedAll, OrderedNamed] using absent
  | cons named rest ih =>
    obtain ⟨key, entry⟩ := named
    simp only [OrderedAll, OrderedNamed] at h
    obtain ⟨before, inner, tail⟩ := h
    unfold alter
    dsimp only
    split
    · rename_i less
      simp only [OrderedAll, OrderedNamed, List.mem_cons]
      refine ⟨?_, absent, before, inner, tail⟩
      rintro other (rfl | mem)
      · exact less
      · exact String.lt_trans less (before other mem)
    · split
      · rename_i same
        subst same
        simp only [OrderedAll, OrderedNamed]
        exact ⟨before, present entry inner, tail⟩
      · rename_i notLess differs
        simp only [OrderedAll, OrderedNamed]
        refine ⟨?_, inner, ih tail⟩
        intro other mem
        rcases name_of_mem_alter mem with eq | mem
        · rw [eq]
          exact Std.lt_of_le_of_ne notLess (Ne.symm differs)
        · exact before other mem

/-! ## paths -/

/-- The entries with the path to a file added. What is on the way becomes a directory, and a
directory never becomes a file. -/
def insertPath : List String → List (String × TreeEntry) → List (String × TreeEntry)
  | [], entries => entries
  | [name], entries => alter name (fun old => old.getD file) entries
  | name :: next :: rest, entries =>
    alter name (fun old => directory (insertPath (next :: rest) ((old.map children).getD [])))
      entries

theorem orderedAll_insertPath (path : List String) {entries : List (String × TreeEntry)}
    (h : OrderedAll entries) : OrderedAll (insertPath path entries) := by
  induction path generalizing entries with
  | nil => simpa [insertPath] using h
  | cons name path ih =>
    cases path with
    | nil =>
      unfold insertPath
      exact orderedAll_alter (by simp [Ordered]) (fun e he => by simpa using he) h
    | cons next rest =>
      unfold insertPath
      refine orderedAll_alter ?_ (fun e he => ?_) h
      · have base : OrderedAll [] := by simp [OrderedAll]
        simpa [Ordered] using ih base
      · simpa [Ordered] using ih (orderedAll_children he)

mutual

/-- The paths of the files in an entry with the given path. -/
def pathsIn (path : String) : TreeEntry → List String
  | file => [path]
  | directory entries => pathsBelow path entries

/-- The paths of the files among the entries below a path. -/
def pathsBelow (path : String) : List (String × TreeEntry) → List String
  | [] => []
  | named :: rest => pathsAt path named ++ pathsBelow path rest

def pathsAt (path : String) : String × TreeEntry → List String
  | (name, entry) => pathsIn (if path.isEmpty then name else path ++ "/" ++ name) entry

end

mutual

def beq : TreeEntry → TreeEntry → Bool
  | file, file => true
  | directory a, directory b => beqAll a b
  | _, _ => false

def beqAll : List (String × TreeEntry) → List (String × TreeEntry) → Bool
  | [], [] => true
  | a :: as, b :: bs => beqNamed a b && beqAll as bs
  | _, _ => false

def beqNamed : String × TreeEntry → String × TreeEntry → Bool
  | (a, e), (b, f) => a == b && beq e f

end

end TreeEntry

structure DirectoryTree where
  entries : List (String × TreeEntry)
  ordered : TreeEntry.OrderedAll entries

namespace DirectoryTree

def empty : DirectoryTree := ⟨[], by simp [TreeEntry.OrderedAll]⟩

instance : Inhabited DirectoryTree := ⟨empty⟩

instance : BEq DirectoryTree := ⟨fun s t => TreeEntry.beqAll s.entries t.entries⟩

/-- The tree with the path to a file added. -/
def insert (t : DirectoryTree) (path : List String) : DirectoryTree :=
  ⟨TreeEntry.insertPath path t.entries, TreeEntry.orderedAll_insertPath path t.ordered⟩

/-- The names in a path; both kinds of slashes separate them. -/
def segments (path : String) : List String :=
  ((Text.splitOn (fun c => c == '/' || c == '\\') path.toList).filter fun s => !s.isEmpty).map
    String.ofList

/-- The tree with the given paths to files. -/
def ofPaths (paths : List String) : DirectoryTree :=
  paths.foldl (fun t path => t.insert (segments path)) empty

/-- The entry of the given name. -/
def find? (t : DirectoryTree) (name : String) : Option TreeEntry := t.entries.lookup name

def names (t : DirectoryTree) : List String := t.entries.map Prod.fst

def size (t : DirectoryTree) : Nat := t.entries.length

def isEmpty (t : DirectoryTree) : Bool := t.entries.isEmpty

/-- The paths of all files, each directory before what follows it. -/
def filePaths (t : DirectoryTree) : List String := TreeEntry.pathsBelow "" t.entries

end DirectoryTree

end SourceAtlas
