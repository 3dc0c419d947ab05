import Mathlib.Data.Finset.Max
import SourceAtlas.DirectoryTree.View
import SourceAtlas.Proofs.Lines
import SourceAtlas.Proofs.TreeLookup

/-!
Which directory trees can be read back from their drawings.

* `TreeEntry.drawnLine`: a line of a drawing, as bars and gaps, a connector and a name.
* `DirectoryTree.readLine_eq_ok_iff`: a line is read exactly if it is drawn like that.
* `DirectoryTree.adds_linesBelow`: reading the drawing of an entry inserts the paths of all entries
  below it.
* `DirectoryTree.parse_render_eq_ok_iff`: a drawing is read back exactly if there is no empty
  directory and all names are drawable.
-/

namespace SourceAtlas

namespace TreeEntry

/-- The beginning of a line: for each directory around the entry a bar, or a gap if it is the last
one in its own directory. -/
def indentation (bars : List Bool) : List Char :=
  bars.flatMap fun bar => if bar then pipe else gap

def connector (last : Bool) : List Char := if last then lastBranch else branch

/-- The line of an entry. -/
def drawnLine (bars : List Bool) (last : Bool) (name : List Char) : List Char :=
  indentation bars ++ connector last ++ name

theorem indentation_concat (bars : List Bool) (last : Bool) :
    indentation bars ++ (if last then gap else pipe) = indentation (bars ++ [!last]) := by
  cases last <;> simp [indentation]

/-- The lines of the entries of a directory, one entry at a time. -/
theorem lines_cons (bars : List Bool) (name : String) (entry : TreeEntry)
    (rest : List (String × TreeEntry)) :
    lines (indentation bars) ((name, entry) :: rest) =
      drawnLine bars rest.isEmpty name.toList ::
        (linesBelow (indentation (bars ++ [!rest.isEmpty])) entry ++
          lines (indentation bars) rest) := by
  rw [lines, linesAt, indentation_concat]
  rfl

/-- Every line of a drawing shows a name of the tree. -/
theorem exists_drawnLine_of_mem_linesBelow {good : String → Prop} {e : TreeEntry}
    (hnames : Throughout (fun name _ => good name) e) {bars : List Bool} {line : List Char}
    (hline : line ∈ linesBelow (indentation bars) e) :
    ∃ bars' last name, good name ∧ line = drawnLine bars' last name.toList := by
  induction e using ind generalizing bars with
  | hfile => simp [linesBelow] at hline
  | hdirectory es ih =>
    rw [Throughout, throughoutAll_iff] at hnames
    rw [linesBelow] at hline
    induction es with
    | nil => simp [lines] at hline
    | cons named es ihes =>
      obtain ⟨name, entry⟩ := named
      obtain ⟨hname, hbelow⟩ := hnames (name, entry) List.mem_cons_self
      rw [lines_cons, List.mem_cons, List.mem_append] at hline
      rcases hline with rfl | hline | hline
      · exact ⟨bars, es.isEmpty, name, hname, rfl⟩
      · exact ih (name, entry) List.mem_cons_self hbelow hline
      · exact ihes (fun named hnamed => ih named (List.mem_cons_of_mem _ hnamed))
          (fun named hnamed => hnames named (List.mem_cons_of_mem _ hnamed)) hline

/-- Every name of the tree is shown on a line of its drawing. -/
theorem throughout_drawnLine_mem_linesBelow (e : TreeEntry) (bars : List Bool) :
    Throughout (fun name _ => ∃ bars' last,
      drawnLine bars' last name.toList ∈ linesBelow (indentation bars) e) e := by
  induction e using ind generalizing bars with
  | hfile => simp [Throughout]
  | hdirectory es ih =>
    rw [Throughout, linesBelow]
    induction es with
    | nil => simp [ThroughoutAll]
    | cons named es ihes =>
      obtain ⟨name, entry⟩ := named
      rw [lines_cons]
      refine ⟨⟨⟨bars, es.isEmpty, List.mem_cons_self⟩, ?_⟩, ?_⟩
      · refine (ih (name, entry) List.mem_cons_self (bars ++ [!es.isEmpty])).imp ?_
        rintro other _ ⟨bars', last, hmem⟩
        exact ⟨bars', last, List.mem_cons_of_mem _ (List.mem_append_left _ hmem)⟩
      · refine (ihes fun named hnamed => ih named (List.mem_cons_of_mem _ hnamed)).imp ?_
        rintro other _ ⟨bars', last, hmem⟩
        exact ⟨bars', last, List.mem_cons_of_mem _ (List.mem_append_right _ hmem)⟩

theorem newline_not_mem_drawnLine (bars : List Bool) (last : Bool) {name : List Char}
    (h : '\n' ∉ name) : '\n' ∉ drawnLine bars last name := by
  have hbars : '\n' ∉ indentation bars := by
    intro hmem
    obtain ⟨bar, -, hbar⟩ := List.mem_flatMap.1 hmem
    cases bar <;> simp [pipe, gap] at hbar
  have hconnector : '\n' ∉ connector last := by
    cases last <;> decide
  simp [drawnLine, hbars, hconnector, h]

end TreeEntry

namespace DirectoryTree

open TreeEntry

/-! ## reading one line -/

theorem unindent_indentation (bars : List Bool) (rest : List Char) :
    unindent (indentation bars ++ rest) = ((unindent rest).1 + bars.length, (unindent rest).2) := by
  induction bars with
  | nil => rfl
  | cons bar bars ih =>
    have hsplit : indentation (bar :: bars) ++ rest =
        (if bar then pipe else gap) ++ (indentation bars ++ rest) := by
      simp [indentation]
    rw [hsplit, List.length_cons]
    cases bar <;> simp [pipe, gap, unindent, ih, Nat.add_assoc]

theorem unindent_connector (last : Bool) (name : List Char) :
    unindent (connector last ++ name) = (0, connector last ++ name) := by
  cases last <;> simp [connector, branch, lastBranch, unindent]

theorem afterConnector?_connector (last : Bool) (name : List Char) :
    afterConnector? (connector last ++ name) = some name := by
  cases last <;> simp [connector, branch, lastBranch, afterConnector?]

theorem exists_indentation (line : List Char) :
    ∃ bars, bars.length = (unindent line).1 ∧ line = indentation bars ++ (unindent line).2 := by
  fun_induction unindent line with
  | case1 rest ih =>
    obtain ⟨bars, hlen, hline⟩ := ih
    refine ⟨true :: bars, by simp [hlen], ?_⟩
    conv_lhs => rw [hline]
    simp [indentation, pipe]
  | case2 rest ih =>
    obtain ⟨bars, hlen, hline⟩ := ih
    refine ⟨false :: bars, by simp [hlen], ?_⟩
    conv_lhs => rw [hline]
    simp [indentation, gap]
  | case3 line => exact ⟨[], rfl, rfl⟩

theorem exists_connector {line name : List Char} (h : afterConnector? line = some name) :
    ∃ last, line = connector last ++ name := by
  unfold afterConnector? at h
  split at h
  · exact ⟨false, by simp_all [connector, branch]⟩
  · exact ⟨true, by simp_all [connector, lastBranch]⟩
  · cases h

/-- What is read from a line that is drawn well. -/
theorem readLine_drawnLine (deepest : Nat) (bars : List Bool) (last : Bool) (name : List Char) :
    readLine deepest (drawnLine bars last name) =
      if name = [] then .error .noName
      else if deepest < bars.length then .error (.tooDeep (bars.length - deepest))
      else .ok (bars.length, String.ofList name) := by
  have hunindent : unindent (drawnLine bars last name) = (bars.length, connector last ++ name) := by
    rw [drawnLine, List.append_assoc, unindent_indentation, unindent_connector]
    simp
  simp [readLine, hunindent, afterConnector?_connector]

/-- A line is read exactly if it consists of a bar or a gap for each level, a connector and a name,
and if it is not too deep. -/
theorem readLine_eq_ok_iff {deepest depth : Nat} {line : List Char} {name : String} :
    readLine deepest line = .ok (depth, name) ↔
      depth ≤ deepest ∧ name ≠ "" ∧
        ∃ bars last, bars.length = depth ∧ line = drawnLine bars last name.toList := by
  constructor
  · intro h
    obtain ⟨bars, hbars, hline⟩ := exists_indentation line
    cases hafter : afterConnector? (unindent line).2 with
    | none => simp [readLine, hafter] at h
    | some cs =>
      obtain ⟨last, hlast⟩ := exists_connector hafter
      have hdrawn : line = drawnLine bars last cs := by
        rw [drawnLine, List.append_assoc, ← hlast]
        exact hline
      rw [hdrawn, readLine_drawnLine] at h
      split at h
      · cases h
      · rename_i hne
        split at h
        · cases h
        · rename_i hdeep
          simp only [Except.ok.injEq, Prod.mk.injEq] at h
          obtain ⟨rfl, rfl⟩ := h
          exact ⟨by omega, by simpa using hne, bars, last, rfl, by simpa using hdrawn⟩
  · rintro ⟨hdeep, hne, bars, last, rfl, rfl⟩
    have hlist : name.toList ≠ [] := by simpa using hne
    rw [readLine_drawnLine, if_neg hlist, if_neg (by omega)]
    simp

theorem trim_drawnLine_isEmpty (bars : List Bool) (last : Bool) (name : List Char) :
    (Text.trim (drawnLine bars last name)).isEmpty = false := by
  cases last
  · exact Text.trim_isEmpty_of_mem (c := '├') (by simp [drawnLine, connector, branch]) (by decide)
  · exact Text.trim_isEmpty_of_mem (c := '└') (by simp [drawnLine, connector, lastBranch])
      (by decide)

/-! ## reading a drawing -/

/-- A name as it is read from the end of a line. -/
def nameRead (name : String) : String := String.ofList (Text.dropReturn name.toList)

theorem dropReturn_drawnLine (bars : List Bool) (last : Bool) (name : String) :
    Text.dropReturn (drawnLine bars last name.toList) =
      drawnLine bars last (nameRead name).toList := by
  unfold drawnLine nameRead
  by_cases h : name.toList = []
  · rw [h, Text.dropReturn_of_getLast?_ne]
    · simp [Text.dropReturn]
    · cases last <;> simp [connector, branch, lastBranch]
  · rw [Text.dropReturn_append h, String.toList_ofList]

/-- The tree with several paths added one after the other. -/
def insertAll (t : DirectoryTree) (paths : List (List String)) : DirectoryTree :=
  paths.foldl insert t

theorem entries_insertAll (t : DirectoryTree) (paths : List (List String)) :
    (t.insertAll paths).entries = TreeEntry.insertAll t.entries paths := by
  induction paths generalizing t with
  | nil => rfl
  | cons path paths ih => exact ih (t.insert path)

theorem insertAll_append (t : DirectoryTree) (paths more : List (List String)) :
    t.insertAll (paths ++ more) = (t.insertAll paths).insertAll more :=
  List.foldl_append

/-- One line that is not too deep adds one path. -/
theorem parseFrom_drawnLine {bars : List Bool} {path : List String} (last : Bool) {name : String}
    (hname : name ≠ "") (hdeep : bars.length ≤ path.length) (number : Nat) (t : DirectoryTree)
    (rest : List (List Char)) :
    parseFrom number path t (drawnLine bars last name.toList :: rest) =
      parseFrom (number + 1) (path.take bars.length ++ [name])
        (t.insert (path.take bars.length ++ [name])) rest := by
  have hread : readLine path.length (drawnLine bars last name.toList) = .ok (bars.length, name) :=
    readLine_eq_ok_iff.2 ⟨hdeep, hname, bars, last, rfl, rfl⟩
  rw [parseFrom, trim_drawnLine_isEmpty, hread]
  rfl

/-- Reading the lines `drawn` inside the directory that is reached by `above` adds `paths`, and ends
on a line inside the same directory. -/
def Adds (above : List String) (drawn : List (List Char)) (paths : List (List String)) : Prop :=
  ∀ path, above <+: path → ∀ number t rest, ∃ number' path', above <+: path' ∧
    parseFrom number path t (drawn ++ rest) = parseFrom number' path' (t.insertAll paths) rest

theorem adds_nil (above : List String) : Adds above [] [] :=
  fun path hpath number _ _ => ⟨number, path, hpath, rfl⟩

theorem Adds.append {above : List String} {drawn more : List (List Char)}
    {paths morePaths : List (List String)} (h : Adds above drawn paths)
    (hmore : Adds above more morePaths) : Adds above (drawn ++ more) (paths ++ morePaths) := by
  intro path hpath number t rest
  obtain ⟨number₁, path₁, hpath₁, hread₁⟩ := h path hpath number t (more ++ rest)
  obtain ⟨number₂, path₂, hpath₂, hread₂⟩ := hmore path₁ hpath₁ number₁ (t.insertAll paths) rest
  refine ⟨number₂, path₂, hpath₂, ?_⟩
  rw [List.append_assoc, hread₁, hread₂, insertAll_append]

/-- The line of an entry adds its path, and what is drawn below it is read inside the entry. -/
theorem Adds.entry {above : List String} {bars : List Bool} {drawn : List (List Char)}
    {paths : List (List String)} {name : String} (last : Bool) (hbars : bars.length = above.length)
    (hname : name ≠ "") (h : Adds (above ++ [name]) drawn paths) :
    Adds above (drawnLine bars last name.toList :: drawn) ((above ++ [name]) :: paths) := by
  intro path hpath number t rest
  have htake : path.take bars.length = above := by
    rw [hbars]
    exact (List.prefix_iff_eq_take.1 hpath).symm
  have hdeep : bars.length ≤ path.length := hbars ▸ hpath.length_le
  obtain ⟨number', path', hpath', hread⟩ := h (above ++ [name]) List.prefix_rfl (number + 1)
    (t.insert (above ++ [name])) rest
  refine ⟨number', path', (List.prefix_append above [name]).trans hpath', ?_⟩
  rw [List.cons_append, parseFrom_drawnLine last hname hdeep, htake, hread]
  rfl

/-- Reading the drawing of an entry adds the paths of all entries below it. -/
theorem adds_linesBelow {e : TreeEntry} (hnames : Throughout (fun name _ => nameRead name ≠ "") e)
    {bars : List Bool} {above : List String} (hbars : bars.length = above.length) :
    Adds (above.map nameRead) ((linesBelow (indentation bars) e).map Text.dropReturn)
      ((entryPathsBelow above e).map (List.map nameRead)) := by
  induction e using TreeEntry.ind generalizing bars above with
  | hfile => exact adds_nil _
  | hdirectory es ih =>
    rw [Throughout, throughoutAll_iff] at hnames
    simp only [linesBelow, entryPathsBelow]
    -- the entries of the directory are read one after the other
    induction es with
    | nil => exact adds_nil _
    | cons named es ihes =>
      obtain ⟨name, entry⟩ := named
      obtain ⟨hname, hbelow⟩ := hnames (name, entry) List.mem_cons_self
      have hinner := ih (name, entry) List.mem_cons_self hbelow
        (show (bars ++ [!es.isEmpty]).length = (above ++ [name]).length by simp [hbars])
      have hrest := ihes (fun named hnamed => ih named (List.mem_cons_of_mem _ hnamed))
        fun named hnamed => hnames named (List.mem_cons_of_mem _ hnamed)
      rw [List.map_append, List.map_singleton] at hinner
      have hentry := (hinner.entry es.isEmpty (by simpa using hbars) hname).append hrest
      rw [lines_cons, List.map_cons, dropReturn_drawnLine, List.map_append, entryPaths,
        entryPathsAt, List.map_append, List.map_cons, List.map_append, List.map_singleton]
      exact hentry

theorem terminatedLines_render {t : DirectoryTree}
    (hnames : ThroughoutAll (fun name _ => '\n' ∉ name.toList) t.entries) :
    Text.terminatedLines t.render.toList =
      (linesBelow (indentation []) (directory t.entries)).map Text.dropReturn := by
  rw [render, String.toList_ofList]
  refine Text.terminatedLines_ended fun line hline => ?_
  have hroot : Throughout (fun name _ => '\n' ∉ name.toList) (directory t.entries) := hnames
  have hmem : line ∈ linesBelow (indentation []) (directory t.entries) := hline
  obtain ⟨bars, last, name, hname, rfl⟩ := exists_drawnLine_of_mem_linesBelow hroot hmem
  exact newline_not_mem_drawnLine bars last hname

/-- What a drawing is read as, if its names have no line feeds and are not empty when read. -/
theorem parse_render {t : DirectoryTree}
    (hlines : ThroughoutAll (fun name _ => '\n' ∉ name.toList) t.entries)
    (hnames : ThroughoutAll (fun name _ => nameRead name ≠ "") t.entries) :
    parse t.render =
      .ok (empty.insertAll ((entryPaths [] t.entries).map (List.map nameRead))) := by
  have hroot : Throughout (fun name _ => nameRead name ≠ "") (directory t.entries) := hnames
  have hlength : ([] : List Bool).length = ([] : List String).length := rfl
  have hadds := adds_linesBelow hroot hlength
  obtain ⟨number, path, -, hread⟩ := hadds [] List.prefix_rfl 1 empty []
  rw [parse, terminatedLines_render hlines]
  rw [List.append_nil] at hread
  rw [hread]
  rfl

/-! ## what is read -/

/-- What a reader takes for a name: some text within a line. -/
def ReadableName (name : String) : Prop := name ≠ "" ∧ '\n' ∉ name.toList

theorem readableName_of_readLine {deepest depth : Nat} {line : List Char} {name : String}
    (hline : '\n' ∉ line) (h : readLine deepest line = .ok (depth, name)) : ReadableName name := by
  obtain ⟨-, hne, bars, last, -, rfl⟩ := readLine_eq_ok_iff.1 h
  exact ⟨hne, fun hmem => hline (by simp [drawnLine, hmem])⟩

/-- One step of the reader: a blank line is passed over, a drawn one adds a path, and any other line
ends the reading. -/
theorem parseFrom_cons_eq_ok {number : Nat} {path : List String} {t t' : DirectoryTree}
    {line : List Char} {rest : List (List Char)}
    (h : parseFrom number path t (line :: rest) = .ok t') :
    ((Text.trim line).isEmpty = true ∧ parseFrom (number + 1) path t rest = .ok t') ∨
      ∃ depth name, readLine path.length line = .ok (depth, name) ∧
        parseFrom (number + 1) (path.take depth ++ [name]) (t.insert (path.take depth ++ [name]))
          rest = .ok t' := by
  rw [parseFrom] at h
  split at h
  · rename_i hblank
    exact Or.inl ⟨hblank, h⟩
  · cases hread : readLine path.length line with
    | error reason => simp [hread] at h
    | ok found =>
      obtain ⟨depth, name⟩ := found
      rw [hread] at h
      exact Or.inr ⟨depth, name, rfl, h⟩

/-- The reader builds trees without empty directories and with the names that it reads. -/
theorem throughoutAll_parseFrom {good : String → Prop} {drawn : List (List Char)}
    (hgood : ∀ line ∈ drawn, ∀ deepest depth name,
      readLine deepest line = .ok (depth, name) → good name)
    {number : Nat} {path : List String} {t t' : DirectoryTree} (hpath : ∀ name ∈ path, good name)
    (ht : ThroughoutAll (fun name e => Occupied e ∧ good name) t.entries)
    (h : parseFrom number path t drawn = .ok t') :
    ThroughoutAll (fun name e => Occupied e ∧ good name) t'.entries := by
  induction drawn generalizing number path t with
  | nil =>
    cases h
    exact ht
  | cons line rest ih =>
    have hrest := fun l (hl : l ∈ rest) => hgood l (List.mem_cons_of_mem _ hl)
    rcases parseFrom_cons_eq_ok h with ⟨-, h⟩ | ⟨depth, name, hread, h⟩
    · exact ih hrest hpath ht h
    · have hname := hgood line List.mem_cons_self _ depth name hread
      have hpath' : ∀ n ∈ path.take depth ++ [name], good n := by
        intro n hn
        rcases List.mem_append.1 hn with hn | hn
        · exact hpath n (List.mem_of_mem_take hn)
        · rw [List.mem_singleton.1 hn]
          exact hname
      exact ih hrest hpath' (throughoutAll_insertPath hpath' ht) h

theorem throughoutAll_parse {good : String → Prop} {text : String} {t : DirectoryTree}
    (hgood : ∀ line ∈ Text.terminatedLines text.toList, ∀ deepest depth name,
      readLine deepest line = .ok (depth, name) → good name) (h : parse text = .ok t) :
    ThroughoutAll (fun name e => Occupied e ∧ good name) t.entries :=
  throughoutAll_parseFrom hgood (by simp) (by simp [empty, ThroughoutAll]) h

theorem throughoutAll_readableName {text : String} {t : DirectoryTree} (h : parse text = .ok t) :
    ThroughoutAll (fun name e => Occupied e ∧ ReadableName name) t.entries :=
  throughoutAll_parse (fun _ hline _ _ _ =>
    readableName_of_readLine (Text.newline_not_mem_of_mem_terminatedLines hline)) h

/-- In a drawing that is read, every line that is not blank is drawn well. -/
theorem exists_readLine_of_parseFrom {drawn : List (List Char)} {number : Nat} {path : List String}
    {t t' : DirectoryTree} (h : parseFrom number path t drawn = .ok t') {line : List Char}
    (hline : line ∈ drawn) (hblank : (Text.trim line).isEmpty = false) :
    ∃ deepest found, readLine deepest line = .ok found := by
  induction drawn generalizing number path t with
  | nil => cases hline
  | cons first rest ih =>
    rcases parseFrom_cons_eq_ok h with ⟨hfirst, h⟩ | ⟨depth, name, hread, h⟩
    · rcases List.mem_cons.1 hline with rfl | hline
      · rw [hfirst] at hblank
        cases hblank
      · exact ih h hline
    · rcases List.mem_cons.1 hline with rfl | hline
      · exact ⟨path.length, _, hread⟩
      · exact ih h hline

/-- If all lines of a drawing are read, no name is empty when read. -/
theorem throughout_nameRead_of_readLine {e : TreeEntry} {bars : List Bool}
    (h : ∀ line ∈ (linesBelow (indentation bars) e).map Text.dropReturn,
      (Text.trim line).isEmpty = false → ∃ deepest found, readLine deepest line = .ok found) :
    Throughout (fun name _ => nameRead name ≠ "") e := by
  refine (throughout_drawnLine_mem_linesBelow e bars).imp ?_
  rintro name _ ⟨bars', last, hmem⟩ hempty
  have hline := List.mem_map_of_mem (f := Text.dropReturn) hmem
  rw [dropReturn_drawnLine] at hline
  obtain ⟨deepest, found, hread⟩ := h _ hline (trim_drawnLine_isEmpty _ _ _)
  rw [readLine_drawnLine, if_pos (by simp [hempty])] at hread
  cases hread

/-! ## carriage returns -/

theorem nameRead_of_getLast?_ne {name : String} (h : name.toList.getLast? ≠ some '\r') :
    nameRead name = name := by
  rw [nameRead, Text.dropReturn_of_getLast?_ne h, String.ofList_toList]

/-- The number of characters in the names of a path. -/
def weight (path : List String) : Nat := (path.flatMap String.toList).length

theorem weight_map_nameRead_le (path : List String) : weight (path.map nameRead) ≤ weight path := by
  induction path with
  | nil => simp [weight]
  | cons name path ih =>
    have hname := Text.length_dropReturn_le name.toList
    simp only [weight, List.map_cons, List.flatMap_cons, List.length_append, nameRead,
      String.toList_ofList] at ih ⊢
    omega

theorem weight_map_nameRead_lt {path : List String} {name : String} (hmem : name ∈ path)
    (h : name.toList.getLast? = some '\r') : weight (path.map nameRead) < weight path := by
  induction path with
  | nil => cases hmem
  | cons first path ih =>
    have hfirst := Text.length_dropReturn_le first.toList
    have hpath := weight_map_nameRead_le path
    simp only [weight, List.map_cons, List.flatMap_cons, List.length_append, nameRead,
      String.toList_ofList] at ih hpath ⊢
    rcases List.mem_cons.1 hmem with rfl | hmem
    · have := Text.length_dropReturn_of_getLast?_eq h
      omega
    · have := ih hmem
      omega

/-- If every path of a finite collection is read from another one in it, no name in it ends with a
carriage return: such a name would be read from a longer one, and that from a longer one again. -/
theorem getLast?_ne_of_read {paths : List (List String)}
    (h : ∀ q ∈ paths, ∃ p ∈ paths, p.map nameRead = q) :
    ∀ q ∈ paths, ∀ name ∈ q, name.toList.getLast? ≠ some '\r' := by
  intro q hq name hname hlast
  let returned := paths.toFinset.filter fun p => ∃ n ∈ p, n.toList.getLast? = some '\r'
  have hmem : q ∈ returned := by
    simp only [returned, Finset.mem_filter, List.mem_toFinset]
    exact ⟨hq, name, hname, hlast⟩
  obtain ⟨heavy, hheavy, hmax⟩ := Finset.exists_max_image returned weight ⟨q, hmem⟩
  simp only [returned, Finset.mem_filter, List.mem_toFinset] at hheavy hmax
  obtain ⟨hpaths, n, hn, hreturn⟩ := hheavy
  obtain ⟨p, hp, rfl⟩ := h heavy hpaths
  obtain ⟨m, hm, rfl⟩ := List.mem_map.1 hn
  have hlonger : m.toList.getLast? = some '\r' := by
    by_contra hne
    rw [nameRead_of_getLast?_ne hne] at hreturn
    exact hne hreturn
  have hle := hmax p ⟨hp, m, hm, hlonger⟩
  have hlt := weight_map_nameRead_lt hm hlonger
  omega

/-! ## round trip -/

/-- A name that takes one line of a drawing and is read back as it is. -/
def DrawableName (name : String) : Prop :=
  name ≠ "" ∧ '\n' ∉ name.toList ∧ name.toList.getLast? ≠ some '\r'

instance (name : String) : Decidable (DrawableName name) :=
  inferInstanceAs (Decidable (_ ∧ _ ∧ _))

/-- Names that look like other parts of a drawing, or like nothing, are drawable all the same. -/
example : ∀ name ∈ ["│   a", "    ", "├── b", "└── ", "\r "], DrawableName name := by decide

theorem nameRead_of_drawable {name : String} (h : DrawableName name) : nameRead name = name :=
  nameRead_of_getLast?_ne h.2.2

/-- Two trees with the same entries are equal. -/
theorem eq_of_entries {s t : DirectoryTree} (h : s.entries = t.entries) : s = t := by
  cases s
  cases t
  cases h
  rfl

/-- The drawing of a tree with drawable names and no empty directory is read as that tree. -/
theorem parse_render_of_drawable {t : DirectoryTree}
    (h : ThroughoutAll (fun name e => Occupied e ∧ DrawableName name) t.entries) :
    parse t.render = .ok t := by
  have hdrawable : Throughout (fun name _ => DrawableName name) (directory t.entries) :=
    Throughout.imp (fun _ _ hname => hname.2) h
  have hpaths : ∀ q ∈ entryPaths [] t.entries, ∀ name ∈ q, DrawableName name :=
    (throughout_iff_entryPathsBelow (by simp)).1 hdrawable
  have hread : (entryPaths [] t.entries).map (List.map nameRead) = entryPaths [] t.entries := by
    refine (List.map_congr_left fun q hq => ?_).trans (List.map_id _)
    refine (List.map_congr_left fun name hname => ?_).trans (List.map_id _)
    exact nameRead_of_drawable (hpaths q hq name hname)
  rw [parse_render (hdrawable.imp fun _ _ hname => hname.2.1)
    (hdrawable.imp fun _ _ hname => by rw [nameRead_of_drawable hname]; exact hname.1), hread]
  refine congrArg Except.ok (eq_of_entries ?_)
  rw [entries_insertAll]
  exact insertAll_entryPaths t.ordered (h.imp fun _ _ hname => hname.1)

/-- A tree that is read back from its drawing has drawable names only. -/
theorem drawable_of_parse_render {t : DirectoryTree} (h : parse t.render = .ok t) :
    ThroughoutAll (fun name e => Occupied e ∧ DrawableName name) t.entries := by
  have hreadable := throughoutAll_readableName h
  have hlines : ThroughoutAll (fun name _ => '\n' ∉ name.toList) t.entries :=
    hreadable.imp fun _ _ hname => hname.2.2
  have hnames : ThroughoutAll (fun name _ => nameRead name ≠ "") t.entries := by
    have hparse := h
    rw [parse, terminatedLines_render hlines] at hparse
    have hroot : Throughout (fun name _ => nameRead name ≠ "") (directory t.entries) :=
      throughout_nameRead_of_readLine fun line hline => exists_readLine_of_parseFrom hparse hline
    exact hroot
  -- the tree is made of its own paths as they are read, so each of them is read from another one
  have hentries : TreeEntry.insertAll [] ((entryPaths [] t.entries).map (List.map nameRead)) =
      t.entries := by
    rw [parse_render hlines hnames, Except.ok.injEq] at h
    exact (entries_insertAll empty _).symm.trans (congrArg entries h)
  have hcovered : ∀ q ∈ entryPaths [] t.entries, ∃ p ∈ entryPaths [] t.entries,
      p.map nameRead = q := by
    intro q hq
    have hne := ((mem_entryPaths t.ordered).1 hq).1
    have hmade := hq
    rw [← hentries] at hmade
    obtain ⟨path, hpath, hpre⟩ := exists_path_of_mem_entryPaths_insertAll hmade
    obtain ⟨p, hp, rfl⟩ := List.mem_map.1 hpath
    have hq' : (p.take q.length).map nameRead = q := by
      rw [List.map_take]
      exact (List.prefix_iff_eq_take.1 hpre).symm
    refine ⟨p.take q.length, ?_, hq'⟩
    refine mem_entryPaths_of_passed t.ordered hp (List.take_prefix _ _) ?_
    intro hnil
    rw [hnil] at hq'
    exact hne hq'.symm
  have hreturns : Throughout (fun name _ => name.toList.getLast? ≠ some '\r')
      (directory t.entries) :=
    (throughout_iff_entryPathsBelow (by simp)).2 (getLast?_ne_of_read hcovered)
  have hroot : Throughout (fun name e => Occupied e ∧ ReadableName name) (directory t.entries) :=
    hreadable
  exact (hroot.and hreturns).imp fun _ _ hname =>
    ⟨hname.1.1, hname.1.2.1, hname.1.2.2, hname.2⟩

/-- **Which trees are read back from their drawings.**  A tree is read back exactly if no directory
in it is empty and every name, at any depth, is not empty, has no line feed and does not end with a
carriage return. -/
theorem parse_render_eq_ok_iff (t : DirectoryTree) :
    parse t.render = .ok t ↔
      ThroughoutAll (fun name e => Occupied e ∧ DrawableName name) t.entries :=
  ⟨drawable_of_parse_render, parse_render_of_drawable⟩

end DirectoryTree

end SourceAtlas
