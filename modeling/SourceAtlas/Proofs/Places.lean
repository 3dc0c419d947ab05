import Mathlib.Data.List.Nodup
import SourceAtlas.Ordered.Entries
import SourceAtlas.Proofs.Names

/-!
Items and the places below them.

* `Item.everyListing`: something holds of the items of every directory. `Item.isWellFormed`: their
  names are legal and no two of them are the same. `Item.hasTextNames`: their names are text.
* `Item.at?_append`: places lead on from one item to the next.
* `Item.length_add_countDirectories_le`: no place is deeper than there are directories.
* `Item.directoryPlaces`: the places of all directories, as many as `Item.countDirectories` says.
* `Item.names`: the names of all files and directories.
* `FileSystem.list_eq_ok_iff`: what is listed are the items of the directory at a path.
* `FileSystem.exists_follow_append`: pieces of a path lead on from where others have led to.
* `FileSystem.exists_locate_join`, `FileSystem.eq_of_locate_join`: where a name below a directory
  leads to, if it leads anywhere.
-/

namespace SourceAtlas

namespace Item

/-! ## names -/

mutual

/-- A test that the items of every directory pass. -/
def everyListing (test : List (OsText × Item) → Bool) : Item → Bool
  | file .. | link _ => true
  | directory _ items => test items && everyListingAll test items

def everyListingAll (test : List (OsText × Item) → Bool) : List (OsText × Item) → Bool
  | [] => true
  | named :: rest => everyListingNamed test named && everyListingAll test rest

def everyListingNamed (test : List (OsText × Item) → Bool) : OsText × Item → Bool
  | (_, item) => everyListing test item

end

/-- In every directory the names are legal, without zero bytes, and no two of them are the same. -/
def isWellFormed (item : Item) : Bool :=
  item.everyListing fun items =>
    decide ((items.map Prod.fst).Nodup ∧ ∀ name ∈ items.map Prod.fst, Path.IsName name ∧ 0 ∉ name)

/-- In every directory the names are text. -/
def hasTextNames (item : Item) : Bool :=
  item.everyListing fun items => items.all fun named => Path.isText named.1

/-- An open directory with items whose names are text. -/
def folder (items : List (String × Item)) : Item :=
  directory .free (items.map fun named => (Text.bytes named.1, named.2))

section Listing

variable {test : List (OsText × Item) → Bool} {mode : Mode} {items : List (OsText × Item)}

theorem everyListingAll_iff :
    everyListingAll test items ↔ ∀ named ∈ items, named.2.everyListing test := by
  induction items with
  | nil => simp [everyListingAll]
  | cons named rest ih =>
    obtain ⟨name, item⟩ := named
    simp [everyListingAll, everyListingNamed, ih]

theorem everyListing_directory :
    (directory mode items).everyListing test ↔
      test items ∧ ∀ named ∈ items, named.2.everyListing test := by
  rw [everyListing, Bool.and_eq_true, everyListingAll_iff]

theorem isWellFormed_directory :
    (directory mode items).isWellFormed ↔
      (items.map Prod.fst).Nodup ∧
        ∀ named ∈ items, (Path.IsName named.1 ∧ 0 ∉ named.1) ∧ named.2.isWellFormed := by
  simp only [isWellFormed, everyListing_directory, decide_eq_true_eq, List.forall_mem_map]
  constructor
  · rintro ⟨⟨hnodup, hnames⟩, hbelow⟩
    exact ⟨hnodup, fun named hnamed => ⟨hnames named hnamed, hbelow named hnamed⟩⟩
  · rintro ⟨hnodup, hall⟩
    exact ⟨⟨hnodup, fun named hnamed => (hall named hnamed).1⟩,
      fun named hnamed => (hall named hnamed).2⟩

end Listing

/-! ## places -/

@[simp] theorem at?_nil (item : Item) : item.at? [] = some item := by
  rw [at?]

theorem at?_directory_cons (mode : Mode) (items : List (OsText × Item)) (name : OsText)
    (rest : Place) :
    (directory mode items).at? (name :: rest) =
      (items.lookup name).bind fun child => child.at? rest := by
  rw [at?]

/-- The first name of a place is looked up in a directory, the others below what is found. -/
theorem at?_cons_eq_some_iff {item child : Item} {name : OsText} {rest : Place} :
    item.at? (name :: rest) = some child ↔
      ∃ mode items next, item = directory mode items ∧ items.lookup name = some next ∧
        next.at? rest = some child := by
  cases item with
  | file readable bytes => simp [at?]
  | link target => simp [at?]
  | directory mode items => simp [at?_directory_cons, Option.bind_eq_some_iff]

/-- Nothing is below what is no directory. -/
theorem eq_of_at?_of_not_directory {item child : Item} {p : Place} (h : item.at? p = some child)
    (hitem : item.isDirectory = false) : p = [] ∧ child = item := by
  cases p with
  | nil =>
    rw [at?_nil, Option.some.injEq] at h
    exact ⟨rfl, h.symm⟩
  | cons name p =>
    obtain ⟨_, _, _, rfl, -, -⟩ := at?_cons_eq_some_iff.1 h
    cases hitem

/-- A place that leads on from another one. -/
theorem at?_append (item : Item) (p q : Place) :
    item.at? (p ++ q) = (item.at? p).bind fun child => child.at? q := by
  induction p generalizing item with
  | nil => simp
  | cons name p ih =>
    cases item with
    | file readable bytes => simp [at?]
    | link target => simp [at?]
    | directory mode items =>
      rw [List.cons_append, at?_directory_cons, at?_directory_cons]
      cases items.lookup name with
      | none => rfl
      | some child => exact ih child

theorem everyListing_of_at? {test : List (OsText × Item) → Bool} {item child : Item} {p : Place}
    (h : item.everyListing test) (hat : item.at? p = some child) : child.everyListing test := by
  induction p generalizing item with
  | nil =>
    rw [at?_nil, Option.some.injEq] at hat
    exact hat ▸ h
  | cons name p ih =>
    obtain ⟨mode, items, next, rfl, hnext, hat⟩ := at?_cons_eq_some_iff.1 hat
    exact ih ((everyListing_directory.1 h).2 _ (Entries.mem_of_lookup hnext)) hat

theorem isWellFormed_of_at? {item child : Item} {p : Place} (h : item.isWellFormed)
    (hat : item.at? p = some child) : child.isWellFormed :=
  everyListing_of_at? h hat

/-- Places are made of legal names. -/
theorem isName_of_at? {item child : Item} {p : Place} (h : item.isWellFormed)
    (hat : item.at? p = some child) : ∀ name ∈ p, Path.IsName name := by
  induction p generalizing item with
  | nil => simp
  | cons first p ih =>
    obtain ⟨mode, items, next, rfl, hnext, hat⟩ := at?_cons_eq_some_iff.1 hat
    obtain ⟨⟨hfirst, -⟩, hbelow⟩ := (isWellFormed_directory.1 h).2 _ (Entries.mem_of_lookup hnext)
    intro name hname
    rcases List.mem_cons.1 hname with rfl | hname
    · exact hfirst
    · exact ih hbelow hat name hname

/-! ## directories -/

theorem countDirectories_le_countAll {items : List (OsText × Item)} {name : OsText} {item : Item}
    (h : (name, item) ∈ items) : item.countDirectories ≤ countAll items := by
  induction items with
  | nil => cases h
  | cons first rest ih =>
    rw [countAll]
    rcases List.mem_cons.1 h with rfl | h
    · rw [countNamed]
      omega
    · have := ih h
      omega

/-- One directory is passed for each name in a place. -/
theorem length_add_countDirectories_le {item child : Item} {p : Place}
    (h : item.at? p = some child) :
    p.length + child.countDirectories ≤ item.countDirectories := by
  induction p generalizing item with
  | nil =>
    rw [at?_nil, Option.some.injEq] at h
    simp [h]
  | cons name p ih =>
    obtain ⟨mode, items, next, rfl, hnext, h⟩ := at?_cons_eq_some_iff.1 h
    have hbelow := ih h
    have hle := countDirectories_le_countAll (Entries.mem_of_lookup hnext)
    simp only [countDirectories, List.length_cons]
    omega

mutual

/-- The places of all directories, the item itself included. -/
def directoryPlaces : Item → List Place
  | file .. | link _ => []
  | directory _ items => [] :: placesAll items

def placesAll : List (OsText × Item) → List Place
  | [] => []
  | named :: rest => placesNamed named ++ placesAll rest

def placesNamed : OsText × Item → List Place
  | (name, item) => (directoryPlaces item).map (name :: ·)

end

mutual

theorem length_directoryPlaces : ∀ item : Item,
    item.directoryPlaces.length = item.countDirectories
  | file .. => by simp [directoryPlaces, countDirectories]
  | link _ => by simp [directoryPlaces, countDirectories]
  | directory _ items => by simp [directoryPlaces, countDirectories, length_placesAll items]

theorem length_placesAll : ∀ items : List (OsText × Item),
    (placesAll items).length = countAll items
  | [] => rfl
  | named :: rest => by
    simp [placesAll, countAll, length_placesNamed named, length_placesAll rest]

theorem length_placesNamed : ∀ named : OsText × Item,
    (placesNamed named).length = countNamed named
  | (name, item) => by simp [placesNamed, countNamed, length_directoryPlaces item]

end

theorem mem_placesAll {items : List (OsText × Item)} {name : OsText} {item : Item} {p : Place}
    (h : (name, item) ∈ items) (hp : p ∈ item.directoryPlaces) : name :: p ∈ placesAll items := by
  induction items with
  | nil => cases h
  | cons first rest ih =>
    rw [placesAll, List.mem_append]
    rcases List.mem_cons.1 h with rfl | h
    · exact Or.inl (List.mem_map_of_mem hp)
    · exact Or.inr (ih h)

theorem mem_directoryPlaces {item : Item} {mode : Mode} {items : List (OsText × Item)}
    {p : Place} (h : item.at? p = some (directory mode items)) : p ∈ item.directoryPlaces := by
  induction p generalizing item with
  | nil =>
    rw [at?_nil, Option.some.injEq] at h
    rw [h, directoryPlaces]
    exact List.mem_cons_self
  | cons name p ih =>
    obtain ⟨outerMode, outer, next, rfl, hnext, h⟩ := at?_cons_eq_some_iff.1 h
    rw [directoryPlaces]
    exact List.mem_cons_of_mem _ (mem_placesAll (Entries.mem_of_lookup hnext) (ih h))

/-! ## all names -/

def isLink : Item → Bool
  | link _ => true
  | _ => false

mutual

/-- The names of the files and directories below an item. Those of links are left out. -/
def names : Item → List OsText
  | file .. | link _ => []
  | directory _ items => namesAll items

def namesAll : List (OsText × Item) → List OsText
  | [] => []
  | named :: rest => namesNamed named ++ namesAll rest

def namesNamed : OsText × Item → List OsText
  | (name, item) => if item.isLink then [] else name :: names item

end

theorem mem_namesAll {items : List (OsText × Item)} {named : OsText × Item} {x : OsText}
    (h : named ∈ items) (hx : x ∈ namesNamed named) : x ∈ namesAll items := by
  induction items with
  | nil => cases h
  | cons first rest ih =>
    rw [namesAll, List.mem_append]
    rcases List.mem_cons.1 h with rfl | h
    · exact Or.inl hx
    · exact Or.inr (ih h)

/-- The way to anything but a link leads over files and directories only. -/
theorem mem_names_of_at? {item child : Item} {p : Place} (h : item.at? p = some child)
    (hchild : child.isLink = false) : ∀ name ∈ p, name ∈ item.names := by
  induction p generalizing item with
  | nil => simp
  | cons first p ih =>
    obtain ⟨mode, items, next, rfl, hnext, h⟩ := at?_cons_eq_some_iff.1 h
    have hlink : next.isLink = false := by
      cases p with
      | nil =>
        rw [at?_nil, Option.some.injEq] at h
        exact h ▸ hchild
      | cons second p =>
        obtain ⟨_, _, _, rfl, -, -⟩ := at?_cons_eq_some_iff.1 h
        rfl
    intro name hname
    rw [names]
    refine mem_namesAll (Entries.mem_of_lookup hnext) ?_
    rw [namesNamed, hlink, if_neg Bool.false_ne_true]
    rcases List.mem_cons.1 hname with rfl | hname
    · exact List.mem_cons_self
    · exact List.mem_cons_of_mem _ (ih h name hname)

end Item

namespace FileSystem

variable {fs : FileSystem} {here place : Place} {links : Nat} {name path base : OsText}
  {items : List (OsText × Item)} {item : Item}

/-- There is a directory at a place. -/
def IsDirectoryAt (fs : FileSystem) (place : Place) : Prop :=
  ∃ mode items, fs.top.at? place = some (.directory mode items)

/-- The names of the files and directories below a place. -/
def namesBelow (fs : FileSystem) (place : Place) : List OsText :=
  ((fs.top.at? place).map Item.names).getD []

/-- What is in a directory is found there by its name. -/
theorem at?_concat_of_mem (hfs : fs.top.isWellFormed) {mode : Mode}
    (hat : fs.top.at? place = some (.directory mode items)) (h : (name, item) ∈ items) :
    fs.top.at? (place ++ [name]) = some item := by
  have hnodup := (Item.isWellFormed_directory.1 (Item.isWellFormed_of_at? hfs hat)).1
  rw [Item.at?_append, hat, Option.bind_some, Item.at?_directory_cons,
    (Entries.lookup_eq_some_iff_mem hnodup).2 h, Option.bind_some, Item.at?_nil]

/-! ## listings -/

theorem find_eq_ok_iff :
    fs.find path = .ok item ↔
      ∃ place, fs.locate path = .ok place ∧ fs.top.at? place = some item := by
  unfold find
  split
  · rename_i cause hlocate
    simp [hlocate]
  · rename_i place hlocate
    rw [hlocate]
    cases hat : fs.top.at? place <;> simp [hat]

/-- What is listed at a path are the items of the directory there, which has to allow it. -/
theorem list_eq_ok_iff :
    fs.list path = .ok items ↔
      ∃ place mode, fs.locate path = .ok place ∧
        fs.top.at? place = some (.directory mode items) ∧ mode.lists = true := by
  constructor
  · intro h
    unfold list at h
    split at h
    · cases h
    · rename_i mode found hfind
      split at h
      · rename_i hlists
        cases h
        obtain ⟨place, hlocate, hat⟩ := find_eq_ok_iff.1 hfind
        exact ⟨place, mode, hlocate, hat, hlists⟩
      · cases h
    · cases h
  · rintro ⟨place, mode, hlocate, hat, hlists⟩
    have hfind := find_eq_ok_iff.2 ⟨place, hlocate, hat⟩
    simp [list, hfind, hlists]

/-- The names that are listed are legal and no two of them are the same. -/
theorem isWellFormed_list (hfs : fs.top.isWellFormed) (h : fs.list path = .ok items) :
    (items.map Prod.fst).Nodup ∧ ∀ named ∈ items, Path.IsName named.1 ∧ 0 ∉ named.1 := by
  obtain ⟨place, mode, -, hat, -⟩ := list_eq_ok_iff.1 h
  have hitems := Item.isWellFormed_directory.1 (Item.isWellFormed_of_at? hfs hat)
  exact ⟨hitems.1, fun named hnamed => (hitems.2 named hnamed).1⟩

theorem isName_list (hfs : fs.top.isWellFormed) (h : fs.list path = .ok items) :
    ∀ named ∈ items, Path.IsName named.1 :=
  fun named hnamed => ((isWellFormed_list hfs h).2 named hnamed).1

theorem isText_list (hfs : fs.top.hasTextNames) (h : fs.list path = .ok items) :
    ∀ named ∈ items, Path.isText named.1 := by
  obtain ⟨place, mode, -, hat, -⟩ := list_eq_ok_iff.1 h
  have hitems := (Item.everyListing_directory.1 (Item.everyListing_of_at? hfs hat)).1
  exact List.all_eq_true.1 hitems

/-! ## ways -/

/-- Nothing between two slashes leads nowhere else. -/
theorem follow_empty (fs : FileSystem) (links : Nat) (here : Place) (rest : List OsText) :
    fs.follow links here ([] :: rest) = fs.follow links here rest := by
  rw [follow, land, if_pos rfl]

/-- A name leads to the item that has it, unless the directory does not let anybody pass or the name
is too long. -/
theorem follow_name (hname : Path.IsName name) (hat : fs.top.at? (here ++ [name]) = some item)
    (hlink : item.isLink = false) :
    fs.follow links here [name] =
      if !fs.passes here then .error .permissionDenied
      else if nameLimit < name.length then .error .nameTooLong
      else .ok (here ++ [name]) := by
  obtain ⟨hempty, hdot, hdots, -⟩ := hname
  by_cases hpasses : (!fs.passes here) = true
  · simp [follow, land, hempty, hpasses]
  · by_cases hsize : nameLimit < name.length
    · simp [follow, land, hempty, hdot, hdots, hpasses, hsize]
    · cases item with
      | file readable bytes => simp [follow, land, hempty, hdot, hdots, hpasses, hsize, hat]
      | directory mode items => simp [follow, land, hempty, hdot, hdots, hpasses, hsize, hat]
      | link target => cases hlink

theorem at?_of_land_eq_file {piece : OsText} (h : fs.land here piece = .ok (.file place)) :
    ∃ readable bytes, fs.top.at? place = some (.file readable bytes) := by
  unfold land at h
  repeat' split at h
  all_goals cases h
  exact ⟨_, _, ‹_›⟩

/-- If some pieces of a path lead to a directory, all pieces after them lead on from there. -/
theorem exists_follow_append {ps : List OsText} (h : fs.follow links here ps = .ok place)
    (hdir : fs.IsDirectoryAt place) :
    ∃ left, ∀ qs, fs.follow links here (ps ++ qs) = fs.follow left place qs := by
  fun_induction follow fs links here ps with
  | case1 links here =>
    cases h
    exact ⟨links, fun qs => rfl⟩
  | case2 links here piece rest cause hland => cases h
  | case3 links here piece rest next hland ih =>
    obtain ⟨left, hleft⟩ := ih h
    refine ⟨left, fun qs => ?_⟩
    rw [List.cons_append, follow, hland]
    exact hleft qs
  | case4 links here piece rest next hland hrest =>
    -- a file is no directory
    cases h
    obtain ⟨mode, items, hdir⟩ := hdir
    obtain ⟨readable, bytes, hfile⟩ := at?_of_land_eq_file hland
    rw [hdir] at hfile
    cases hfile
  | case5 => cases h
  | case6 => cases h
  | case7 here piece rest target hland links ih =>
    obtain ⟨left, hleft⟩ := ih h
    refine ⟨left, fun qs => ?_⟩
    rw [List.cons_append, follow, hland, ← hleft, List.append_assoc]

/-- Nothing between two slashes makes no difference if something follows. -/
theorem follow_append_empty (fs : FileSystem) (links : Nat) (here : Place) (ps : List OsText)
    {qs : List OsText} (hqs : qs ≠ []) :
    fs.follow links here (ps ++ [] :: qs) = fs.follow links here (ps ++ qs) := by
  have hrest (rest : List OsText) : (rest ++ [] :: qs).isEmpty = (rest ++ qs).isEmpty := by
    cases rest <;> simp [hqs]
  fun_induction follow fs links here ps with
  | case1 links here => exact follow_empty fs links here qs
  | case2 links here piece rest cause hland =>
    rw [List.cons_append, List.cons_append, follow, follow, hland]
  | case3 links here piece rest next hland ih =>
    rw [List.cons_append, List.cons_append, follow, follow, hland]
    exact ih
  | case4 links here piece rest next hland =>
    rw [List.cons_append, List.cons_append, follow, follow, hland, hrest]
  | case5 links here piece rest next hland =>
    rw [List.cons_append, List.cons_append, follow, follow, hland, hrest]
  | case6 here piece rest target hland =>
    rw [List.cons_append, List.cons_append, follow, follow, hland]
  | case7 here piece rest target hland links ih =>
    rw [List.cons_append, List.cons_append, follow, follow, hland]
    simpa only [List.append_assoc] using ih

theorem pieces_append_slash (front tail : OsText) :
    pieces (front ++ Path.slash :: tail) = pieces front ++ pieces tail :=
  Text.splitOn_append_cut rfl front tail

theorem follow_pieces_join (fs : FileSystem) (links : Nat) (here : Place) (hbase : base ≠ [])
    (hname : Path.IsName name) :
    fs.follow links here (pieces (Path.join base name)) =
      fs.follow links here (pieces base ++ [name]) := by
  have hpieces : pieces name = [name] := Path.splitOn_name hname
  rcases Path.join_eq hbase hname with ⟨hjoin, hslash⟩ | hjoin
  · -- the slash at the end of the path leaves an empty piece behind
    obtain ⟨front, rfl⟩ := List.getLast?_eq_some_iff.1 hslash
    have hempty : pieces [] = [[]] := rfl
    rw [hjoin, List.append_assoc, List.singleton_append, pieces_append_slash, pieces_append_slash,
      hpieces, hempty, List.append_assoc, List.singleton_append,
      follow_append_empty fs links here _ (List.cons_ne_nil name [])]
  · rw [hjoin, pieces_append_slash, hpieces]

/-- A name below the path of a directory leads on from the place of the directory, unless the path
gets too long. -/
theorem exists_locate_join (hbase : fs.locate base = .ok place) (hdir : fs.IsDirectoryAt place)
    (hname : Path.IsName name ∧ 0 ∉ name) :
    ∃ left, fs.locate (Path.join base name) =
      if pathLimit < (Path.join base name).length then .error .nameTooLong
      else fs.follow left place [name] := by
  unfold locate resolve at hbase
  split at hbase
  · cases hbase
  · rename_i hempty
    split at hbase
    · cases hbase
    · rename_i hnul
      split at hbase
      · cases hbase
      · have hne : base ≠ [] := by simpa using hempty
        have hjoin : ∃ tail, Path.join base name = base ++ tail ∧ 0 ∉ tail := by
          rcases Path.join_eq hne hname.1 with ⟨hjoin, -⟩ | hjoin
          · exact ⟨name, hjoin, hname.2⟩
          · refine ⟨Path.slash :: name, hjoin, ?_⟩
            exact List.not_mem_cons_of_ne_of_not_mem (by decide) hname.2
        obtain ⟨tail, hjoin, hzero⟩ := hjoin
        obtain ⟨left, hleft⟩ := exists_follow_append hbase hdir
        refine ⟨left, ?_⟩
        have horigin : origin fs.current (Path.join base name) = origin fs.current base := by
          rw [origin, origin, hjoin, Path.isAbsolute_append hne]
        rw [locate, resolve, horigin, follow_pieces_join fs _ _ hne hname.1, hleft,
          if_neg (by simp [hjoin, hne]), if_neg (by simpa [hjoin, hzero] using hnul)]

/-- Where no link is in the way, a name below a directory leads to the item of that name or
nowhere. -/
theorem eq_of_locate_join (hbase : fs.locate base = .ok place) (hdir : fs.IsDirectoryAt place)
    (hname : Path.IsName name ∧ 0 ∉ name) (hat : fs.top.at? (place ++ [name]) = some item)
    (hlink : item.isLink = false) {there : Place}
    (h : fs.locate (Path.join base name) = .ok there) : there = place ++ [name] := by
  obtain ⟨left, hjoin⟩ := exists_locate_join hbase hdir hname
  rw [hjoin, follow_name hname.1 hat hlink] at h
  repeat' split at h
  all_goals cases h
  rfl

end FileSystem

end SourceAtlas
