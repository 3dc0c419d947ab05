import SourceAtlas.Proofs.WalkRecords

/-!
What a walk without links and ignore files records.

* `WalkSettings.Plain`: links are not followed and ignore files are not read.
* `Walk.IsFound`: what such a walk finds, described by its place. These are the files below the
  root, except those in excluded directories, and the directories that cannot be listed, of which
  nothing more is known.
* `Walk.mem_trail_iff`: what the walk finds in a directory and below it.
* `candidates_eq_surveyed`: what gets a record, in order.
* `survey_records_files`: the records of a survey are those of the files, and of the directories
  that cannot be listed.
-/

namespace SourceAtlas

/-- A walk neither follows links nor reads ignore files. -/
structure WalkSettings.Plain (settings : WalkSettings) : Prop where
  followLinks : settings.followLinks = false
  respectIgnoreFiles : settings.respectIgnoreFiles = false

theorem Ignore.isIgnored_nil (path : OsText) (isDirectory : Bool) :
    isIgnored [] path isDirectory = false := by
  simp [isIgnored]

namespace Walk

variable {w : Walk} {v : Visit} {place : Place} {names found : List OsText}
  {items : List (OsText × Item)} {name : OsText} {item : Item} {depth : Nat} {f : Finding}

/-! ## what there is to find -/

/-- All directories on the way to where some names lead can be listed. -/
def Passable (w : Walk) (names : List OsText) : Prop :=
  ∀ front, front <+: names → front ≠ names →
    ∃ items, w.fs.list (Path.under w.root front) = .ok items

/-- What is found by some names below the place of the root. -/
inductive IsFound (w : Walk) (place : Place) : List OsText → Finding → Prop
  /-- A file, if no directory on the way is excluded. -/
  | file {names : List OsText} {readable : Bool} {bytes : List UInt8}
      (hfile : w.fs.top.at? (place ++ names) = some (.file readable bytes))
      (hway : w.Passable names)
      (hentered : ∀ dir ∈ names.dropLast, w.settings.excludes dir = false) :
      IsFound w place names (w.fileAt names)
  /-- A directory that cannot be listed, if neither it nor one on the way is excluded. -/
  | closed {names : List OsText} {cause : FileError}
      (hdirectory : w.fs.IsDirectoryAt (place ++ names))
      (hway : w.Passable names)
      (hentered : ∀ dir ∈ names, w.settings.excludes dir = false)
      (hlist : w.fs.list (Path.under w.root names) = .error cause) :
      IsFound w place names (w.failure (Path.under w.root names) cause)

theorem IsFound.passable (h : w.IsFound place names f) : w.Passable names := by
  cases h with
  | file hfile hway hentered => exact hway
  | closed hdirectory hway hentered hlist => exact hway

/-- What is found is no link. -/
theorem IsFound.exists_at (h : w.IsFound place names f) :
    ∃ item, w.fs.top.at? (place ++ names) = some item ∧ item.isLink = false := by
  cases h with
  | file hfile hway hentered => exact ⟨_, hfile, rfl⟩
  | closed hdirectory hway hentered hlist =>
    obtain ⟨mode, items, hat⟩ := hdirectory
    exact ⟨_, hat, rfl⟩

/-- Where a file is, only this file is found. -/
theorem isFound_iff_of_file {readable : Bool} {bytes : List UInt8}
    (h : w.fs.top.at? (place ++ names) = some (.file readable bytes)) :
    w.IsFound place names f ↔
      w.Passable names ∧ (∀ dir ∈ names.dropLast, w.settings.excludes dir = false) ∧
        f = w.fileAt names := by
  constructor
  · intro hfound
    cases hfound with
    | file hfile hway hentered => exact ⟨hway, hentered, rfl⟩
    | closed hdirectory hway hentered hlist =>
      obtain ⟨mode, items, hat⟩ := hdirectory
      rw [h] at hat
      cases hat
  · rintro ⟨hway, hentered, rfl⟩
    exact .file h hway hentered

/-- In a directory that is excluded nothing is found. -/
theorem IsFound.excludes_eq_false (h : w.IsFound place found f)
    (hbegin : names ++ [name] <+: found)
    (hdirectory : w.fs.IsDirectoryAt (place ++ (names ++ [name]))) :
    w.settings.excludes name = false := by
  obtain ⟨rest, rfl⟩ := hbegin
  cases h with
  | file hfile hway hentered =>
    refine hentered name ?_
    have hrest : rest ≠ [] := by
      rintro rfl
      obtain ⟨mode, items, hat⟩ := hdirectory
      rw [List.append_nil, hat] at hfile
      cases hfile
    rw [List.dropLast_append_of_ne_nil hrest]
    simp
  | closed _ hway hentered hlist => exact hentered name (by simp)

theorem passable_nil (w : Walk) : w.Passable [] :=
  fun _ hfront hne => absurd (List.prefix_nil.1 hfront) hne

theorem Passable.concat (h : w.Passable names)
    (hlist : w.fs.list (Path.under w.root names) = .ok items) (name : OsText) :
    w.Passable (names ++ [name]) := by
  intro front hfront hne
  have hbegin : front <+: names := (List.prefix_concat_iff.1 hfront).resolve_left hne
  by_cases heq : front = names
  · exact ⟨items, heq ▸ hlist⟩
  · exact h front hbegin heq

/-! ## one item -/

/-- A plain walk that began at a place has come by some names to a directory. -/
structure At (w : Walk) (place : Place) (v : Visit) (names : List OsText) : Prop where
  reached : w.Reached v names
  rules : v.rules = []
  place_eq : v.place = place ++ names
  within : w.Within v
  passable : w.Passable names
  entered : ∀ dir ∈ names, w.settings.excludes dir = false

theorem stepAt_file (hrules : v.rules = []) (readable : Bool) (bytes : List UInt8) :
    w.stepAt v name (.file readable bytes) =
      .note (some (.file (Path.join v.path name)
        (Path.relative w.root (Path.join v.path name)))) := by
  simp [stepAt, look, hrules, Ignore.isIgnored_nil]

theorem stepAt_link (hw : w.settings.Plain) (target : OsText) :
    w.stepAt v name (.link target) = .note none := by
  simp [stepAt, look, hw.followLinks]

theorem stepAt_directory (hrules : v.rules = []) (mode : Mode) (below : List (OsText × Item)) :
    w.stepAt v name (.directory mode below) =
      if w.settings.excludes name then .note none
      else .enter (w.visitOf (v.place ++ [name]) (Path.join v.path name) v.around v.rules) := by
  simp [stepAt, look, hrules, Ignore.isIgnored_nil]

theorem At.enter (hfs : w.fs.top.isWellFormed) (hw : w.settings.Plain) (hv : w.At place v names)
    (hlist : w.fs.list v.path = .ok items) {mode : Mode} {below : List (OsText × Item)}
    (hmem : (name, .directory mode below) ∈ items) (hkept : w.settings.excludes name = false) :
    ∃ inner, w.stepAt v name (.directory mode below) = .enter inner ∧ w.Enters v inner ∧
      w.At place inner (names ++ [name]) := by
  have hname := FileSystem.isName_list hfs hlist _ hmem
  let inner := w.visitOf (v.place ++ [name]) (Path.join v.path name) v.around v.rules
  have hstep : w.stepAt v name (.directory mode below) = .enter inner := by
    rw [stepAt_directory hv.rules, hkept, if_neg Bool.false_ne_true]
  have henters : w.Enters v inner := ⟨items, hlist, _, hmem, hstep⟩
  refine ⟨inner, hstep, henters, hv.reached.enter hname hstep, ?_, ?_, hv.within.enter hfs henters,
    hv.passable.concat (hv.reached.1 ▸ hlist) name, ?_⟩
  · simp [inner, visitOf, hw.respectIgnoreFiles, hv.rules]
  · simp [inner, visitOf, hv.place_eq]
  · exact List.forall_mem_append.2 ⟨hv.entered, List.forall_mem_singleton.2 hkept⟩

/-- By the names of a directory itself nothing is found, if it can be listed. -/
theorem At.not_isFound (hv : w.At place v names) (hlist : w.fs.list v.path = .ok items) :
    ¬ w.IsFound place names f := by
  intro h
  obtain ⟨mode, below, hdirectory⟩ := hv.place_eq ▸ hv.within.isDirectory
  cases h with
  | file hfile hway hentered =>
    rw [hdirectory] at hfile
    cases hfile
  | closed hdirectory hway hentered herror =>
    rw [← hv.reached.1, hlist] at herror
    cases herror

/-- What a plain walk finds at an item, provided it is right about the directories below. -/
theorem mem_trailAt_iff (hfs : w.fs.top.isWellFormed) (hw : w.settings.Plain)
    (hv : w.At place v names) (hlist : w.fs.list v.path = .ok items) (hmem : (name, item) ∈ items)
    (hbelow : ∀ inner, w.Enters v inner → w.At place inner (names ++ [name]) →
      ((found, f) ∈ w.trail depth (names ++ [name]) inner ↔
        names ++ [name] <+: found ∧ w.IsFound place found f)) :
    (found, f) ∈ w.trailAt depth names v (name, item) ↔
      names ++ [name] <+: found ∧ w.IsFound place found f := by
  obtain ⟨-, mode, hat⟩ := hv.within.at?_of_list hlist
  have hitem : w.fs.top.at? (place ++ (names ++ [name])) = some item := by
    rw [← List.append_assoc, ← hv.place_eq]
    exact FileSystem.at?_concat_of_mem hfs hat hmem
  -- below a file or a link there is nothing
  have hleaf (hdir : item.isDirectory = false) (hbegin : names ++ [name] <+: found)
      (hfound : w.IsFound place found f) : found = names ++ [name] ∧ item.isLink = false := by
    obtain ⟨rest, rfl⟩ := hbegin
    obtain ⟨child, hchild, hlink⟩ := hfound.exists_at
    rw [← List.append_assoc, Item.at?_append, hitem, Option.bind_some] at hchild
    obtain ⟨rfl, rfl⟩ := Item.eq_of_at?_of_not_directory hchild hdir
    exact ⟨List.append_nil _, hlink⟩
  have hway := hv.passable.concat (hv.reached.1 ▸ hlist) name
  cases item with
  | file readable bytes =>
    have hname := FileSystem.isName_list hfs hlist _ hmem
    obtain ⟨hpath, hnames⟩ := hv.reached.concat hname
    rw [mem_trailAt, stepAt_file hv.rules, hpath, Path.relative_under w.root hnames]
    constructor
    · rintro (⟨hnote, rfl⟩ | ⟨inner, henter, -⟩)
      · cases hnote
        exact ⟨List.prefix_rfl, .file hitem hway (by simpa using hv.entered)⟩
      · cases henter
    · rintro ⟨hbegin, hfound⟩
      obtain ⟨rfl, -⟩ := hleaf rfl hbegin hfound
      obtain ⟨-, -, rfl⟩ := (isFound_iff_of_file hitem).1 hfound
      exact .inl ⟨rfl, rfl⟩
  | link target =>
    rw [mem_trailAt, stepAt_link hw]
    constructor
    · rintro (⟨hnote, -⟩ | ⟨inner, henter, -⟩)
      · cases hnote
      · cases henter
    · rintro ⟨hbegin, hfound⟩
      obtain ⟨-, hlink⟩ := hleaf rfl hbegin hfound
      cases hlink
  | directory mode below =>
    cases hexcluded : w.settings.excludes name with
    | true =>
      rw [mem_trailAt, stepAt_directory hv.rules, if_pos hexcluded]
      constructor
      · rintro (⟨hnote, -⟩ | ⟨inner, henter, -⟩)
        · cases hnote
        · cases henter
      · rintro ⟨hbegin, hfound⟩
        have hkept := hfound.excludes_eq_false hbegin ⟨mode, below, hitem⟩
        rw [hexcluded] at hkept
        cases hkept
    | false =>
      obtain ⟨inner, hstep, henters, hinner⟩ := hv.enter hfs hw hlist hmem hexcluded
      rw [← hbelow inner henters hinner, mem_trailAt, hstep]
      simp

/-! ## a directory -/

/-- What a plain walk finds in a directory and below it. -/
theorem mem_trail_iff (hfs : w.fs.top.isWellFormed) (hw : w.settings.Plain)
    (hv : w.At place v names) (hdepth : w.remaining v < depth) :
    (found, f) ∈ w.trail depth names v ↔ names <+: found ∧ w.IsFound place found f := by
  induction depth generalizing v names with
  | zero => omega
  | succ depth ih =>
    rw [mem_trail_succ]
    cases hlist : w.fs.list v.path with
    | error cause =>
      have hclosed : w.fs.list (Path.under w.root names) = .error cause := hv.reached.1 ▸ hlist
      constructor
      · rintro (⟨_, hcause, rfl, rfl⟩ | ⟨items, hitems, -⟩)
        · cases hcause
          rw [hv.reached.1]
          refine ⟨List.prefix_rfl, .closed ?_ hv.passable hv.entered hclosed⟩
          exact hv.place_eq ▸ hv.within.isDirectory
        · cases hitems
      · rintro ⟨hbegin, hfound⟩
        by_cases heq : names = found
        · subst heq
          obtain ⟨mode, below, hdirectory⟩ := hv.place_eq ▸ hv.within.isDirectory
          cases hfound with
          | file hfile hway hentered =>
            rw [hdirectory] at hfile
            cases hfile
          | closed _ hway hentered herror =>
            rw [hclosed] at herror
            cases herror
            exact .inl ⟨cause, rfl, rfl, by rw [hv.reached.1]⟩
        · -- the directory is on the way to whatever else there is
          obtain ⟨items, hitems⟩ := hfound.passable names hbegin heq
          rw [hclosed] at hitems
          cases hitems
    | ok items =>
      have hitem : ∀ name item, (name, item) ∈ items →
          ((found, f) ∈ w.trailAt depth names v (name, item) ↔
            names ++ [name] <+: found ∧ w.IsFound place found f) := by
        intro name item hmem
        refine mem_trailAt_iff hfs hw hv hlist hmem fun inner henters hinner => ih hinner ?_
        have hlt := remaining_lt hfs hv.within henters
        omega
      constructor
      · rintro (⟨cause, hcause, -⟩ | ⟨_, hitems, ⟨name, item⟩, hmem, h⟩)
        · cases hcause
        · cases hitems
          obtain ⟨hbegin, hfound⟩ := (hitem name item hmem).1 h
          exact ⟨(List.prefix_append names [name]).trans hbegin, hfound⟩
      · rintro ⟨⟨rest, rfl⟩, hfound⟩
        cases rest with
        | nil =>
          rw [List.append_nil] at hfound
          exact absurd hfound (hv.not_isFound hlist)
        | cons name rest =>
          obtain ⟨-, mode, hat⟩ := hv.within.at?_of_list hlist
          obtain ⟨child, hchild, -⟩ := hfound.exists_at
          rw [← List.append_assoc, ← hv.place_eq, Item.at?_append, hat, Option.bind_some] at hchild
          obtain ⟨_, _, next, hsame, hnext, -⟩ := Item.at?_cons_eq_some_iff.1 hchild
          cases hsame
          have hmem := Entries.mem_of_lookup hnext
          exact .inr ⟨items, rfl, (name, next), hmem,
            (hitem name next hmem).2 ⟨⟨rest, by simp⟩, hfound⟩⟩

theorem at_start (hw : w.settings.Plain) (hwithin : w.Within (w.start place)) :
    w.At place (w.start place) [] where
  reached := w.reached_start place
  rules := by simp [start, visitOf, hw.respectIgnoreFiles]
  place_eq := by simp [start, visitOf]
  within := hwithin
  passable := w.passable_nil
  entered := by simp

/-! ## names -/

theorem IsFound.isName (hfs : w.fs.top.isWellFormed) (h : w.IsFound place names f) :
    ∀ name ∈ names, Path.IsName name := by
  obtain ⟨item, hat, -⟩ := h.exists_at
  intro name hname
  exact Item.isName_of_at? hfs hat name (List.mem_append_right place hname)

theorem IsFound.relative_eq (hfs : w.fs.top.isWellFormed) (h : w.IsFound place names f) :
    f.relative = Path.shown names := by
  have hnames := h.isName hfs
  cases h with
  | file hfile hway hentered => rfl
  | closed hdirectory hway hentered hlist => exact Path.relative_under w.root hnames

theorem IsFound.mem_namesBelow (hplace : w.fs.IsDirectoryAt place)
    (h : w.IsFound place names f) : ∀ name ∈ names, name ∈ w.fs.namesBelow place := by
  obtain ⟨mode, items, hat⟩ := hplace
  obtain ⟨item, hitem, hlink⟩ := h.exists_at
  rw [Item.at?_append, hat, Option.bind_some] at hitem
  rw [FileSystem.namesBelow, hat]
  exact Item.mem_names_of_at? hitem hlink

end Walk

/-! ## records -/

section Survey

variable {fs : FileSystem} {settings : Settings} {root : OsText} {place : Place}

/-- What gets a record below a root: the files of a known language that a walk finds, and the
directories that cannot be listed. -/
def IsSurveyed (fs : FileSystem) (settings : Settings) (root : OsText) (place : Place)
    (names : List OsText) (f : Finding) : Prop :=
  Walk.IsFound ⟨fs, settings.walk, root⟩ place names f ∧ isAdmitted settings.analysis f

theorem IsSurveyed.mem_namesBelow (hroot : rootPlace fs root = .ok place) {names : List OsText}
    {f : Finding} (h : IsSurveyed fs settings root place names f) :
    ∀ name ∈ names, name ∈ fs.namesBelow place := by
  obtain ⟨-, mode, items, hat, -⟩ := rootPlace_eq_ok_iff.1 hroot
  exact h.1.mem_namesBelow ⟨mode, items, hat⟩

/-- What gets a record, in the order of the walk. -/
theorem candidates_eq_surveyed (hfs : fs.top.isWellFormed) (hplain : settings.walk.Plain)
    (hroot : rootPlace fs root = .ok place) (hinput : isStandardInput root = false) :
    ∃ surveyed : List (List OsText × Finding),
      candidates fs settings root = .ok (surveyed.map Prod.snd) ∧
      (surveyed.map Prod.fst).Pairwise (Parts (· < ·)) ∧
      ∀ names f, (names, f) ∈ surveyed ↔ IsSurveyed fs settings root place names f := by
  let w : Walk := ⟨fs, settings.walk, root⟩
  have hwithin := within_of_rootPlace hroot settings.walk
  have hbound := w.remaining_lt_depthBound (w.start place)
  have hfound := findings_eq_visit hroot settings.walk
  rw [hinput, if_neg Bool.false_ne_true, ← w.map_snd_trail _ []] at hfound
  refine ⟨(w.trail (Walk.depthBound fs) [] (w.start place)).filter
    fun a => isAdmitted settings.analysis a.2, ?_, ?_, fun names f => ?_⟩
  · rw [candidates_of_findings hfound, List.filter_map]
    rfl
  · rw [List.pairwise_map]
    exact (Walk.pairwise_trail hfs (w.reached_start place)).filter _
  · rw [List.mem_filter, Walk.mem_trail_iff hfs hplain (Walk.at_start hplain hwithin) hbound]
    simp [IsSurveyed]

/-- If names are text, a survey lists one record for each thing that is to get one. -/
theorem toList_of_survey {tools : Toolchain} (hfs : fs.top.isWellFormed)
    (hroot : rootPlace fs root = .ok place)
    (htext : ∀ name ∈ fs.namesBelow place, Path.isText name)
    {surveyed : List (List OsText × Finding)}
    (hcandidates : candidates fs settings root = .ok (surveyed.map Prod.snd))
    (hparts : (surveyed.map Prod.fst).Pairwise (Parts (· < ·)))
    (hsurveyed : ∀ names f, (names, f) ∈ surveyed → IsSurveyed fs settings root place names f)
    {set : RecordSet} (hset : survey tools fs settings root = .ok (.ok set)) :
    (surveyed.map Prod.snd).map (findingRecord tools fs settings.analysis) = set.toList.map .ok ∧
      set.toList.map Record.path = surveyed.map fun s => Path.shown s.1 := by
  rw [survey_of_candidates tools hcandidates, Except.ok.injEq, Except.map_eq_ok_iff] at hset
  obtain ⟨records, hrecords, rfl⟩ := hset
  have hmap := mapM_eq_ok_iff.1 hrecords
  have hpaths : records.map Record.path = surveyed.map fun s => Path.shown s.1 := by
    rw [map_path_of_findingRecord hmap, List.map_map]
    exact List.map_congr_left fun s hs => (hsurveyed s.1 s.2 hs).1.relative_eq hfs
  have hnodup : ((surveyed.map Prod.fst).map Path.shown).Nodup := by
    apply Path.nodup_shown hparts
    refine List.forall_mem_map.2 fun s hs name hname => ?_
    have hfound := hsurveyed s.1 s.2 hs
    exact ⟨hfound.1.isName hfs name hname, htext name (hfound.mem_namesBelow hroot name hname)⟩
  rw [List.map_map] at hnodup
  have hall := RecordSet.toList_ofList_of_nodup (hpaths ▸ hnodup)
  rw [hall]
  exact ⟨hmap, hpaths⟩

/-- **The files below a root have records.**  Where links are not followed and ignore files not
read, every file of a known language below the root has exactly one record, unless it is in an
excluded directory, or in one that cannot be listed.  Such a directory has a record itself, and
nothing else has one.  The records stand under the paths of the files, sorted by the bytes of the
names on the way, as long as the names are text and no analysis breaks off. -/
theorem survey_records_files (tools : Toolchain) (hfs : fs.top.isWellFormed)
    (hplain : settings.walk.Plain) (hroot : rootPlace fs root = .ok place)
    (hinput : isStandardInput root = false) :
    ∃ surveyed : List (List OsText × Finding),
      (surveyed.map Prod.fst).Pairwise (· < ·) ∧
      (∀ names f, (names, f) ∈ surveyed ↔ IsSurveyed fs settings root place names f) ∧
      survey tools fs settings root =
        .ok (((surveyed.map Prod.snd).mapM (findingRecord tools fs settings.analysis)).map
          .ofList) ∧
      (tools.Settled settings.analysis → (∀ name ∈ fs.namesBelow place, Path.isText name) →
        ∃ set, survey tools fs settings root = .ok (.ok set) ∧
          (surveyed.map Prod.snd).map (findingRecord tools fs settings.analysis) =
            set.toList.map .ok ∧
          set.toList.map Record.path = surveyed.map fun s => Path.shown s.1) := by
  obtain ⟨surveyed, hcandidates, hparts, hmem⟩ := candidates_eq_surveyed hfs hplain hroot hinput
  have hsurvey := survey_of_candidates tools hcandidates
  refine ⟨surveyed, hparts.imp Parts.lex, hmem, hsurvey, fun hsettled htext => ?_⟩
  obtain ⟨records, hrecords⟩ := hsettled.exists_records fs (surveyed.map Prod.snd)
  rw [mapM_eq_ok_iff.2 hrecords] at hsurvey
  exact ⟨_, hsurvey, toList_of_survey hfs hroot htext hcandidates hparts
    (fun names f => (hmem names f).1) hsurvey⟩

end Survey

/-- A directory that cannot be listed. -/
def Item.closedFolder (items : List (String × Item)) : Item :=
  .directory ⟨false, true⟩ (items.map fun named => (Text.bytes named.1, named.2))

/-- An excluded directory, a file that is named like one, a directory that cannot be listed, a link,
and files of known and unknown languages. -/
def grove : FileSystem where
  top := .folder [
    ("src", .folder [
      ("z.go", .file true []),
      ("build", .file true []),
      ("build.py", .file true []),
      ("lib.go", .file true []),
      ("lib", .folder [("a.ts", .file true [])])]),
    ("build", .folder [("out.go", .file true [])]),
    ("vault", .closedFolder [("b.go", .file true [])]),
    ("to_src", .link (Text.bytes "src")),
    ("README", .file true [])]
  current := []

theorem survey_records_files_grove :
    grove.top.isWellFormed ∧ Settings.standard.walk.Plain ∧
      rootPlace grove (Text.bytes "/") = .ok [] ∧ isStandardInput (Text.bytes "/") = false ∧
      (∀ name ∈ grove.namesBelow [], Path.isText name) ∧
      ∃ (surveyed : List (List OsText × Finding)) (set : RecordSet),
        survey noTools grove .standard (Text.bytes "/") = .ok (.ok set) ∧
        set.toList.map Record.path = surveyed.map (fun s => Path.shown s.1) ∧
        (surveyed.map Prod.fst).Pairwise (· < ·) ∧
        (["src", "lib", "a.ts"].map Text.bytes,
          .file (Text.bytes "/src/lib/a.ts") "src/lib/a.ts") ∈ surveyed ∧
        (["vault"].map Text.bytes, .unreadable "vault"
          "IO error for operation on /vault: Permission denied (os error 13)") ∈ surveyed ∧
        ∀ f, (["build", "out.go"].map Text.bytes, f) ∉ surveyed ∧
          (["vault", "b.go"].map Text.bytes, f) ∉ surveyed ∧
          (["README"].map Text.bytes, f) ∉ surveyed := by
  have hfs : grove.top.isWellFormed := by decide
  have hplain : Settings.standard.walk.Plain := ⟨rfl, rfl⟩
  have hroot : rootPlace grove (Text.bytes "/") = .ok [] := by cbv
  have hinput : isStandardInput (Text.bytes "/") = false := by decide
  have htext : ∀ name ∈ grove.namesBelow [], Path.isText name := by decide
  obtain ⟨surveyed, hsorted, hmem, -, hrecords⟩ :=
    survey_records_files noTools hfs hplain hroot hinput
  obtain ⟨set, hset, -, hpaths⟩ := hrecords (settled_noTools _) htext
  let w : Walk := ⟨grove, Settings.standard.walk, Text.bytes "/"⟩
  have hlists (path : OsText) (h : (grove.list path).toBool = true) :
      ∃ items, grove.list path = .ok items := by
    cases hlist : grove.list path with
    | ok items => exact ⟨items, rfl⟩
    | error cause => simp [hlist, Except.toBool] at h
  obtain ⟨_, htop⟩ := hlists (Text.bytes "/") (by cbv)
  obtain ⟨_, hsrc⟩ := hlists (Text.bytes "/src") (by cbv)
  obtain ⟨_, hlib⟩ := hlists (Text.bytes "/src/lib") (by cbv)
  have hvault : grove.list (Text.bytes "/vault") = .error .permissionDenied := by cbv
  have hway (name : OsText) : w.Passable [name] := w.passable_nil.concat htop name
  have hwaySrc : w.Passable (["src", "lib"].map Text.bytes) :=
    (hway (Text.bytes "src")).concat hsrc (Text.bytes "lib")
  have hwayLib : w.Passable (["src", "lib", "a.ts"].map Text.bytes) := hwaySrc.concat hlib _
  refine ⟨hfs, hplain, hroot, hinput, htext, surveyed, set, hset, hpaths, hsorted, ?_, ?_, ?_⟩
  · have hfile : w.fileAt (["src", "lib", "a.ts"].map Text.bytes) =
        .file (Text.bytes "/src/lib/a.ts") "src/lib/a.ts" := by cbv
    rw [hmem, ← hfile]
    exact ⟨.file rfl hwayLib (by decide +kernel), by decide +kernel⟩
  · have hclosed : w.failure (Text.bytes "/vault") .permissionDenied = .unreadable "vault"
        "IO error for operation on /vault: Permission denied (os error 13)" := by cbv
    rw [hmem, ← hclosed]
    exact ⟨.closed ⟨_, _, rfl⟩ (hway _) (by decide +kernel) hvault, rfl⟩
  · intro f
    simp only [hmem]
    refine ⟨fun h => ?_, fun h => ?_, fun h => ?_⟩
    · have hbuild : [] ++ [Text.bytes "build"] <+: ["build", "out.go"].map Text.bytes := ⟨_, rfl⟩
      have hkept := h.1.excludes_eq_false hbuild ⟨_, _, rfl⟩
      exact absurd hkept (by decide +kernel)
    · obtain ⟨items, hitems⟩ := h.1.passable (["vault"].map Text.bytes) ⟨_, rfl⟩ (by decide)
      cases hvault.symm.trans hitems
    · obtain ⟨-, -, rfl⟩ := (Walk.isFound_iff_of_file rfl).1 h.1
      exact absurd h.2 (by decide +kernel)

/-- A file in a directory that cannot be listed. -/
def vaulted : FileSystem where
  top := .folder [("vault", .closedFolder [("a.go", .file true [])])]
  current := []

/-- Of the directory there is an error, and of the file in it there is nothing. -/
theorem survey_vaulted :
    ∃ set, survey noTools vaulted .standard (Text.bytes "/") = .ok (.ok set) ∧
      set.toList = [unwalkedRecord "vault"
        "IO error for operation on /vault: Permission denied (os error 13)"] := by
  let closed : Finding :=
    .unreadable "vault" "IO error for operation on /vault: Permission denied (os error 13)"
  have hfound : findings vaulted Settings.standard.walk (Text.bytes "/") = .ok [closed] := by
    show findings vaulted .standard (Text.bytes "/") = .ok [closed]
    set_option maxRecDepth 100000 in cbv
  exact exists_survey noTools (candidates_of_findings hfound) rfl (by decide)

/-- A file in a directory named `-`. -/
def dashed : FileSystem where
  top := .folder [("-", .folder [("a.go", .file true [])])]
  current := []

/-- Neither of the two files has a record, although no directory is excluded and Go is known. The
directory `-` is taken for the standard input. -/
theorem survey_omits_files :
    vaulted.top.at? (["vault", "a.go"].map Text.bytes) = some (.file true []) ∧
      rootPlace vaulted (Text.bytes "/") = .ok [] ∧
      (∃ set, survey noTools vaulted .standard (Text.bytes "/") = .ok (.ok set) ∧
        set.toList = [unwalkedRecord "vault"
          "IO error for operation on /vault: Permission denied (os error 13)"]) ∧
      dashed.top.at? (["-", "a.go"].map Text.bytes) = some (.file true []) ∧
      rootPlace dashed (Text.bytes "-") = .ok [Text.bytes "-"] ∧
      ∃ set, survey noTools dashed .standard (Text.bytes "-") = .ok (.ok set) ∧
        set.toList = [] := by
  have hroot : rootPlace dashed (Text.bytes "-") = .ok [Text.bytes "-"] := by cbv
  have hfound : findings dashed Settings.standard.walk (Text.bytes "-") = .ok [] := by
    rw [findings_eq_visit hroot, if_pos (by decide)]
  refine ⟨rfl, by cbv, survey_vaulted, rfl, hroot, ?_⟩
  exact exists_survey noTools (candidates_of_findings hfound) rfl List.nodup_nil

end SourceAtlas
