import SourceAtlas.Proofs.AnalysisUnits
import SourceAtlas.Proofs.JsonText
import SourceAtlas.Proofs.TreeFiles
import SourceAtlas.Report.Text
import SourceAtlas.Settings.Check

/-!
Reports as JSON text, and back.

* `Record.Shallow`: the path and the trees of a record are not nested too deep.
* `Report.nesting_toJson_ofRecords_le_iff`: a report is nested as deep as its paths and its trees
  are.
* `Report.read_render_eq_some_iff`: the report on analysed texts can be read again exactly if their
  records are shallow.
* `parenthesizedRecord`: the record of a file with a name in parentheses, which is shallow up to 58
  pairs of them.
-/

namespace SourceAtlas

open Json

/-! ## nesting -/

namespace TreeEntry

/-- An entry is nested as deep as its directories lie. -/
theorem nesting_toJson_le_iff {e : TreeEntry} (h : e.Ordered) {n : Nat} :
    e.toJson.nesting ≤ n ↔ ∀ path, e.kindAt? path = some true → path.length < n := by
  induction e using ind generalizing n with
  | hfile =>
    have hnone : ∀ path, file.kindAt? path ≠ some true := by
      rintro (_ | ⟨name, rest⟩)
      · simp [isDirectory]
      · simp [kindAt?_file_cons]
    simp [toJson, nesting, hnone]
  | hdirectory entries ih =>
    rw [Ordered, orderedAll_iff] at h
    cases n with
    | zero =>
      refine iff_of_false (by simp [toJson, nesting]) fun hall => ?_
      exact Nat.not_lt_zero _ (hall [] rfl)
    | succ n =>
      rw [toJson, nesting_obj_le_iff, fields_eq_map, List.forall_mem_map]
      constructor
      · rintro hentries (_ | ⟨name, rest⟩) hkind
        · exact Nat.succ_pos n
        · rw [kindAt?_cons, children_directory] at hkind
          obtain ⟨e, he, hkind⟩ := Option.bind_eq_some_iff.1 hkind
          have hmem := Entries.mem_of_lookup he
          have hlt := (ih _ hmem (h.2 _ hmem)).1 (hentries _ hmem) rest hkind
          exact Nat.succ_lt_succ hlt
      · intro hpaths named hnamed
        refine (ih named hnamed (h.2 named hnamed)).2 fun path hkind => ?_
        have hlookup : entries.lookup named.1 = some named.2 :=
          (Entries.lookup_eq_some_iff_mem h.1.nodup).2 hnamed
        have hlt := hpaths (named.1 :: path) (by simpa [kindAt?_cons, hlookup] using hkind)
        exact Nat.lt_of_succ_lt_succ hlt

end TreeEntry

/-- A tree is nested as deep as its paths are long. -/
theorem DirectoryTree.nesting_toJson_ofPaths_le_iff {paths : List String} {n : Nat} :
    (ofPaths paths).toJson.nesting ≤ n + 1 ↔ ∀ path ∈ paths, (segments path).length ≤ n + 1 := by
  have hroot : (ofPaths paths).toJson =
      (TreeEntry.directory (TreeEntry.insertAll [] (paths.map segments))).toJson := by
    rw [toJson, entries_ofPaths, TreeEntry.toJson]
  have hordered : (TreeEntry.directory (TreeEntry.insertAll [] (paths.map segments))).Ordered :=
    TreeEntry.orderedAll_insertAll _ TreeEntry.orderedAll_nil
  rw [hroot, TreeEntry.nesting_toJson_le_iff hordered]
  constructor
  · intro h path hpath
    by_cases hnil : segments path = []
    · simp [hnil]
    · -- the directory around the file lies one level above it
      have hpos := List.length_pos_iff.2 hnil
      have hdirectory : (TreeEntry.directory
          (TreeEntry.insertAll [] (paths.map segments))).kindAt? (segments path).dropLast =
          some true := by
        rw [TreeEntry.kindAt?_insertAll _ TreeEntry.orderedAll_nil]
        refine if_pos ⟨segments path, List.mem_map_of_mem hpath, List.dropLast_prefix _, ?_⟩
        intro heq
        have hlen := congrArg List.length heq
        rw [List.length_dropLast] at hlen
        omega
      have hlt := h _ hdirectory
      rw [List.length_dropLast] at hlt
      omega
  · intro h q hq
    by_cases hnil : q = []
    · simp [hnil]
    · obtain ⟨p, hp, hinit, hne⟩ := (TreeEntry.kindAt?_insertAll_nil _ hnil).1.1 hq
      obtain ⟨path, hpath, rfl⟩ := List.mem_map.1 hp
      have hle := h path hpath
      have hlt := Nat.lt_of_le_of_ne hinit.length_le fun heq => hne (hinit.eq_of_length heq)
      omega

theorem Json.forall_mem_present {P : Json → Prop} {name : String} {value : Option Json} :
    (∀ field ∈ present name value, P field.2) ↔ ∀ v, value = some v → P v := by
  cases value <;> simp [present]

theorem Json.nestingFields_setField {name : String} (v : Json) {fields : List (String × Json)}
    (h : ∀ field ∈ fields, name ≠ field.1) :
    nestingFields (setField name v fields) = max v.nesting (nestingFields fields) := by
  induction fields with
  | nil => simp [setField, nestingFields, nestingField]
  | cons first rest ih =>
    rw [List.forall_mem_cons] at h
    rw [setField]
    split
    · rfl
    · rw [if_neg h.1, nestingFields, ih h.2, nestingFields]
      omega

theorem Json.nesting_strings_le (texts : List String) : (strings texts).nesting ≤ 1 := by
  rw [strings, nesting_arr_le_iff]
  intro v hv
  obtain ⟨s, -, rfl⟩ := List.mem_map.1 hv
  simp [nesting]

theorem Span.nesting_toJson (s : Span) : s.toJson.nesting = 1 := by
  simp [toJson, nesting, nestingFields, nestingField, natural]

theorem Metadata.nesting_toJson_le (m : Metadata) : m.toJson.nesting ≤ 2 := by
  rw [toJson, nesting_obj_le_iff]
  simp [natural, nesting, nesting_strings_le]

/-- A unit is nested one level deeper than its tree. -/
theorem Node.nesting_toJson_le_iff {n : Node} {k : Nat} :
    n.toJson.nesting ≤ k + 2 ↔ ∀ t, n.tree = some t → t.nesting ≤ k + 1 := by
  rw [toJson_eq, nesting_obj_le_iff]
  simp only [List.forall_mem_append, forall_mem_present (P := fun v => v.nesting ≤ k + 1)]
  constructor
  · rintro ⟨-, htree⟩
    exact htree
  · intro htree
    refine ⟨⟨⟨⟨by simp [nesting, natural], ?_⟩, ?_⟩, ?_⟩, htree⟩
    · simp [nesting]
    · simp [Span.nesting_toJson]
    · simp [nesting]

/-- A record is nested three levels deeper than the trees of its units. -/
theorem Record.nesting_toJson_le_iff {r : Record} {k : Nat} :
    r.toJson.nesting ≤ k + 4 ↔
      ∀ nodes, r.body = some nodes → ∀ n ∈ nodes, ∀ t, n.tree = some t → t.nesting ≤ k + 1 := by
  have hmetadata : r.metadata.toJson.nesting ≤ k + 3 :=
    Nat.le_trans r.metadata.nesting_toJson_le (by omega)
  have hbody : ((r.body.map fun nodes => Json.arr (nodes.map Node.toJson)).getD .null).nesting ≤
      k + 3 ↔ ∀ nodes, r.body = some nodes → ∀ n ∈ nodes, ∀ t, n.tree = some t →
        t.nesting ≤ k + 1 := by
    cases r.body with
    | none => simp [nesting]
    | some nodes => simp [nesting_arr_le_iff, Node.nesting_toJson_le_iff]
  rw [toJson, nesting_obj_le_iff]
  simp only [List.forall_mem_append, forall_mem_present (P := fun v => v.nesting ≤ k + 3),
    List.forall_mem_singleton, hbody]
  constructor
  · rintro ⟨⟨⟨-, hnodes⟩, -⟩, -⟩
    exact hnodes
  · intro hnodes
    refine ⟨⟨⟨⟨by simp [nesting], ?_⟩, hnodes⟩, ?_⟩, hmetadata⟩
    · simp [nesting]
    · simp [nesting]

/-- The path and the trees of a record are not nested too deep for a report that can be read: in a
report, a path lies in one more object and a tree in two arrays and three objects. -/
structure Record.Shallow (r : Record) : Prop where
  path : (DirectoryTree.segments r.path).length + 1 ≤ depthLimit
  tree : ∀ nodes, r.body = some nodes → ∀ n ∈ nodes, ∀ t, n.tree = some t →
    t.nesting + 5 ≤ depthLimit

theorem LanguageStats.nesting_toJson (s : LanguageStats) : s.toJson.nesting = 1 := by
  simp [toJson, nesting, nestingFields, nestingField, natural]

theorem KeyFile.nesting_toJson (k : KeyFile) : k.toJson.nesting = 1 := by
  simp [toJson, nesting, nestingFields, nestingField, natural, ofWord]

/-- A record with tidy units is read from its JSON value with the fields sorted. -/
theorem Record.ofJson?_canonical {r : Record}
    (h : ∀ nodes, r.body = some nodes → ∀ n ∈ nodes, n.Tidy) :
    Record.ofJson? r.toJson.canonical = some r := by
  have hread := Record.ofJson?_toJson rearranges_canonical (r := r) fun nodes hbody n hn t ht =>
    canonical_of_sorted ((h nodes hbody n hn).sorted t ht)
  have hsame : r.asRead = r :=
    Record.asRead_eq_iff.2 fun nodes hbody n hn => (h nodes hbody n hn).storable
  rw [hread, hsame]

namespace Report

/-- A report is nested one level deeper than its records and its directory tree. -/
theorem nesting_toJson_le_iff {report : Report} {k : Nat} :
    report.toJson.nesting ≤ k + 3 ↔
      report.files.toJson.nesting ≤ k + 2 ∧ report.tree.toJson.nesting ≤ k + 2 := by
  have hstats : (arr (report.languageStats.map LanguageStats.toJson)).nesting ≤ k + 2 := by
    simp [nesting_arr_le_iff, LanguageStats.nesting_toJson]
  have hkeys : (arr (report.keyFiles.map KeyFile.toJson)).nesting ≤ k + 2 := by
    simp [nesting_arr_le_iff, KeyFile.nesting_toJson]
  have hinsights : (strings report.insights).nesting ≤ k + 2 :=
    Nat.le_trans (nesting_strings_le _) (by omega)
  have hview : (str report.treeView).nesting ≤ k + 2 := Nat.zero_le _
  rw [toJson, nesting_obj_le_iff]
  simp [hstats, hkeys, hinsights, hview]

/-- A report on some records is not nested too deep exactly if they are shallow. -/
theorem nesting_toJson_ofRecords_le_iff {settings : Settings} {files : RecordSet} :
    (ofRecords settings files).toJson.nesting ≤ depthLimit ↔ ∀ r ∈ files.toList, r.Shallow := by
  have hfiles : files.toJson.nesting ≤ 126 ↔ ∀ r ∈ files.toList, ∀ nodes, r.body = some nodes →
      ∀ n ∈ nodes, ∀ t, n.tree = some t → t.nesting ≤ 122 := by
    rw [RecordSet.toJson, nesting_arr_le_iff, List.forall_mem_map]
    simp only [Record.nesting_toJson_le_iff (k := 121)]
  have htree : (ofRecords settings files).tree.toJson.nesting ≤ 126 ↔
      ∀ r ∈ files.toList, (DirectoryTree.segments r.path).length ≤ 126 := by
    rw [ofRecords, DirectoryTree.nesting_toJson_ofPaths_le_iff]
    simp only [List.mem_mergeSort, List.forall_mem_map]
  rw [depthLimit, nesting_toJson_le_iff, htree]
  constructor
  · rintro ⟨hdeep, hpaths⟩ r hr
    refine ⟨Nat.succ_le_succ (hpaths r hr), fun nodes hbody n hn t ht => ?_⟩
    exact Nat.add_le_add_right (hfiles.1 hdeep r hr nodes hbody n hn t ht) 5
  · intro hshallow
    refine ⟨hfiles.2 fun r hr nodes hbody n hn t ht => ?_, fun r hr => ?_⟩
    · exact Nat.le_of_add_le_add_right ((hshallow r hr).tree nodes hbody n hn t ht)
    · exact Nat.le_of_add_le_add_right (hshallow r hr).path

end Report

/-! ## numbers -/

theorem TreeEntry.legible_toJson (e : TreeEntry) : e.toJson.Legible := by
  induction e using ind with
  | hfile => simp [toJson, legible_null]
  | hdirectory entries ih =>
    rw [toJson, legible_obj, fields_eq_map, List.forall_mem_map]
    exact ih

theorem KeyFile.legible_toJson (k : KeyFile) : k.toJson.Legible := by
  have hscore : k.score.toNat < 2 ^ 64 := Nat.lt_trans k.score.toNat_lt (by decide)
  simp [toJson, legible_obj, legible_str, ofWord, legible_natural hscore]

theorem Metadata.legible_toJson {m : Metadata} (hlines : m.lineCount < 2 ^ 64)
    (hbytes : m.byteSize < 2 ^ 64) : m.toJson.Legible := by
  simp [toJson, legible_obj, legible_strings, legible_natural hlines, legible_natural hbytes]

theorem Span.legible_toJson {s : Span} (hbytes : s.startByte < 2 ^ 64 ∧ s.endByte < 2 ^ 64)
    (hstart : s.startLine < 2 ^ 64 ∧ s.startColumn < 2 ^ 64)
    (hend : s.endLine < 2 ^ 64 ∧ s.endColumn < 2 ^ 64) : s.toJson.Legible := by
  simp [toJson, legible_obj, legible_natural hbytes.1, legible_natural hbytes.2,
    legible_natural hstart.1, legible_natural hstart.2, legible_natural hend.1,
    legible_natural hend.2]

theorem Node.legible_toJson {n : Node} (hline : n.line < 2 ^ 64)
    (hspan : ∀ s, n.span = some s → s.toJson.Legible)
    (htree : ∀ t, n.tree = some t → t.Legible) : n.toJson.Legible := by
  rw [toJson_eq, legible_obj]
  simp only [List.forall_mem_append, forall_mem_present]
  refine ⟨⟨⟨⟨?_, ?_⟩, ?_⟩, ?_⟩, htree⟩
  · simp [legible_str, legible_natural hline]
  · simp [legible_str]
  · simpa using hspan
  · simp [legible_bool]

theorem Record.legible_toJson {r : Record} (hmetadata : r.metadata.toJson.Legible)
    (hbody : ∀ nodes, r.body = some nodes → ∀ n ∈ nodes, n.toJson.Legible) : r.toJson.Legible := by
  have hlist : ((r.body.map fun nodes => Json.arr (nodes.map Node.toJson)).getD .null).Legible := by
    cases h : r.body with
    | none => exact legible_null
    | some nodes => simpa [legible_arr] using hbody nodes h
  rw [toJson, legible_obj]
  simp only [List.forall_mem_append, forall_mem_present, List.forall_mem_singleton]
  refine ⟨⟨⟨⟨?_, ?_⟩, hlist⟩, ?_⟩, hmetadata⟩
  · simp [legible_str]
  · simp [legible_str]
  · simp [legible_str]

/-- The numbers of a report are those of its records and of its totals by language. -/
theorem Report.legible_toJson {report : Report}
    (hfiles : ∀ r ∈ report.files.toList, r.toJson.Legible)
    (hstats : ∀ s ∈ report.languageStats, s.toJson.Legible) : report.toJson.Legible := by
  have hrecords : report.files.toJson.Legible := by
    rw [RecordSet.toJson, legible_arr, List.forall_mem_map]
    exact hfiles
  have hlanguages : (arr (report.languageStats.map LanguageStats.toJson)).Legible := by
    rw [legible_arr, List.forall_mem_map]
    exact hstats
  have hkeys : (arr (report.keyFiles.map KeyFile.toJson)).Legible := by
    rw [legible_arr, List.forall_mem_map]
    exact fun k _ => k.legible_toJson
  have htree : report.tree.toJson.Legible :=
    (TreeEntry.directory report.tree.entries).legible_toJson
  rw [toJson, legible_obj]
  simp [hrecords, hlanguages, hkeys, htree, legible_str, legible_strings]

theorem RecordSet.toList_ofList_singleton (r : Record) : (ofList [r]).toList = [r] :=
  toList_ofList_of_nodup (by simp)

/-! ## an expression in parentheses -/

namespace Syntax

/-- A node without a field and without errors. -/
def Label.plain (kind : String) (named : Bool) (startByte endByte : Nat) : Label :=
  ⟨kind, named, false, false, false, false, none, startByte, endByte⟩

namespace Tree

/-- A name in so many pairs of parentheses, from a byte on. -/
def parenthesized : Nat → Nat → Tree
  | 0, start => node (.plain "identifier" true start (start + 1)) []
  | k + 1, start =>
    node (.plain "parenthesized_expression" true start (start + 2 * k + 3))
      [node (.plain "(" false start (start + 1)) [], parenthesized k (start + 1),
        node (.plain ")" false (start + 2 * k + 2) (start + 2 * k + 3)) []]

/-- The only statement of a file. -/
def parenthesizedStatement (k : Nat) : Tree :=
  node (.plain "expression_statement" true 0 (2 * k + 2))
    [parenthesized k 0, node (.plain ";" false (2 * k + 1) (2 * k + 2)) []]

def parenthesizedFile (k : Nat) : Tree :=
  node (.plain "program" true 0 (2 * k + 2)) [parenthesizedStatement k]

variable (content : String)

theorem depth_parenthesized (k start : Nat) : (parenthesized k start).depth = k + 1 := by
  induction k generalizing start with
  | zero => rfl
  | succ k ih =>
    simp [parenthesized, depth, depthAll, ih]

theorem plain_of_loose {starts : List Nat} {label : Label} {children : List Tree}
    {child : Json} (hmember : children.any fun t => t.label.isMember)
    (hshown : plainAll content starts children = [(none, child)]) :
    plain content starts (node label children) =
      .obj (("children", .arr [child]) :: ownFields (label.vertex content starts)) := by
  have hset (v : Vertex) : setField "children" (.arr [child]) (ownFields v) =
      ("children", .arr [child]) :: ownFields v :=
    if_pos (by decide : "children" < "end")
  rw [plain, if_pos hmember, hshown]
  simp [assemble, attachAll, looseOf, hset]

theorem nesting_of_loose {v : Vertex} {child : Json} (h : 1 ≤ child.nesting) :
    (obj (("children", .arr [child]) :: ownFields v)).nesting = child.nesting + 2 := by
  simp only [nesting, nestingItems, nestingFields, nestingField, ownFields, positionJson, natural]
  omega

theorem nesting_leafJson (v : Vertex) : (leafJson v).nesting = 3 := by
  have hown : nestingFields (ownFields v) = 2 := by
    simp [nesting, nestingFields, nestingField, ownFields, positionJson, natural]
  rw [leafJson]
  cases v.text with
  | none => simp [nesting, hown]
  | some s =>
    have hnames : ∀ field ∈ ownFields v, "text" ≠ field.1 := by simp [ownFields]
    simp [nesting, nestingFields_setField _ hnames, hown]

theorem plain_parenthesized_succ (starts : List Nat) (k start : Nat) :
    plain content starts (parenthesized (k + 1) start) =
      .obj (("children", .arr [plain content starts (parenthesized k (start + 1))]) ::
        ownFields ((Label.plain "parenthesized_expression" true start (start + 2 * k + 3)).vertex
          content starts)) := by
  refine plain_of_loose content ?_ ?_
  · cases k <;> rfl
  · cases k <;> rfl

theorem plain_parenthesizedStatement (starts : List Nat) (k : Nat) :
    plain content starts (parenthesizedStatement k) =
      .obj (("children", .arr [plain content starts (parenthesized k 0)]) ::
        ownFields ((Label.plain "expression_statement" true 0 (2 * k + 2)).vertex
          content starts)) := by
  refine plain_of_loose content ?_ ?_
  · cases k <;> rfl
  · cases k <;> rfl

theorem nesting_plain_parenthesized (starts : List Nat) (k start : Nat) :
    (plain content starts (parenthesized k start)).nesting = 2 * k + 3 := by
  induction k generalizing start with
  | zero => exact nesting_leafJson _
  | succ k ih =>
    rw [plain_parenthesized_succ, nesting_of_loose (by rw [ih]; omega), ih]
    omega

variable (kind : String) (named : Bool) {start stop : Nat}

theorem spanOf_plain :
    spanOf [0] (.plain kind named start stop) = ⟨start, stop, 1, start, 1, stop⟩ := by
  simp [spanOf, Text.locate, Label.plain]

theorem legible_ownFields (hstart : start < 2 ^ 64) (hstop : stop < 2 ^ 64) :
    ∀ field ∈ ownFields ((Label.plain kind named start stop).vertex content [0]),
      field.2.Legible := by
  have hone : (natural 1).Legible := legible_natural (by decide)
  simp [ownFields, Label.vertex, spanOf_plain, positionJson, legible_obj, legible_str, hone,
    legible_natural hstart, legible_natural hstop]

theorem legible_of_loose (hstart : start < 2 ^ 64) (hstop : stop < 2 ^ 64) {child : Json}
    (hchild : child.Legible) :
    (obj (("children", .arr [child]) ::
      ownFields ((Label.plain kind named start stop).vertex content [0]))).Legible := by
  rw [legible_obj, List.forall_mem_cons]
  exact ⟨legible_arr.2 (by simpa using hchild), legible_ownFields content kind named hstart hstop⟩

theorem legible_plain_parenthesized {k : Nat} (h : start + 2 * k + 1 < 2 ^ 64) :
    (plain content [0] (parenthesized k start)).Legible := by
  induction k generalizing start with
  | zero =>
    rw [parenthesized, plain, if_neg (by simp), leafJson, legible_obj]
    intro field hfield
    rcases mem_setField hfield with rfl | hfield
    · exact legible_str _
    · exact legible_ownFields content _ _ (by omega) h field hfield
  | succ k ih =>
    rw [plain_parenthesized_succ]
    exact legible_of_loose content _ _ (by omega) (by omega) (ih (by omega))

end Tree

end Syntax

/-- An expression in so many pairs of parentheses. -/
def parenthesizedText (k : Nat) : String :=
  String.ofList (List.replicate k '(' ++ 'x' :: (List.replicate k ')' ++ [';']))

/-- The parsers that find it there. -/
def parenthesizedTools (k : Nat) : Toolchain :=
  ⟨fun _ _ => some (.parenthesizedFile k), fun _ _ => .notStarted .notFound⟩

/-- The record of a file with it. -/
def parenthesizedRecord (k : Nat) : Record :=
  .parsed "a.ts" .typeScript .grammar
    (Syntax.plainUnits (parenthesizedText k) (.parenthesizedFile k))
    (.ofContent (parenthesizedText k) (2 * k + 2))

theorem Text.lineStartsFrom_of_not_mem {cs : List Char} (h : '\n' ∉ cs) (offset : Nat) :
    Text.lineStartsFrom offset cs = [] := by
  induction cs generalizing offset with
  | nil => rfl
  | cons c cs ih =>
    rw [List.mem_cons, not_or] at h
    rw [Text.lineStartsFrom, if_neg (Ne.symm h.1), ih h.2]

theorem newline_not_mem_parenthesizedText (k : Nat) : '\n' ∉ (parenthesizedText k).toList := by
  simp [parenthesizedText]

open Syntax in
theorem analyzeContent_parenthesized {k : Nat} (hk : k + 3 ≤ 512) :
    Analysis.analyzeContent (parenthesizedTools k) AnalysisSettings.standard "a.ts" .typeScript
      (parenthesizedText k) (2 * k + 2) = .ok (parenthesizedRecord k) := by
  have hdepth : (Tree.parenthesizedFile k).depth ≤ 512 := by
    simp [Tree.parenthesizedFile, Tree.parenthesizedStatement, Tree.depth, Tree.depthAll,
      Tree.depth_parenthesized]
    omega
  have hstatements := statements_eq_ok_iff_plainUnits.2
    ⟨rfl, hdepth, (rfl : plainUnits (parenthesizedText k) (.parenthesizedFile k) = _)⟩
  have hnodes : Analysis.nodes (parenthesizedTools k) .standard .typeScript "a.ts"
      (parenthesizedText k) .grammar =
        .ok (.ok (plainUnits (parenthesizedText k) (.parenthesizedFile k))) := by
    rw [Analysis.nodes, Analysis.grammarNodes]
    refine congrArg Except.ok ?_
    split
    · rename_i nodes h
      exact congrArg Except.ok (Except.ok.inj (h.symm.trans hstatements))
    · rename_i fault h
      exact absurd (h.symm.trans hstatements) (by simp)
  exact Analysis.analyzeContent_of_ok _ _ _ _ _ rfl hnodes

open Syntax in
theorem parenthesizedRecord_eq (k : Nat) :
    parenthesizedRecord k =
      .parsed "a.ts" .typeScript .grammar
        [statementNode (parenthesizedText k) [0] (.parenthesizedStatement k)
          (Tree.plain (parenthesizedText k) [0] (.parenthesizedStatement k))]
        (.ofContent (parenthesizedText k) (2 * k + 2)) := by
  have hstarts : Text.lineStarts (parenthesizedText k) = [0] := by
    rw [Text.lineStarts, Text.lineStartsFrom_of_not_mem (newline_not_mem_parenthesizedText k)]
  rw [parenthesizedRecord, plainUnits, hstarts]
  rfl

theorem shallow_parenthesizedRecord_iff {k : Nat} :
    (parenthesizedRecord k).Shallow ↔ k ≤ 58 := by
  have hsegments : DirectoryTree.segments "a.ts" = ["a.ts"] := by decide
  have hnesting : (Syntax.Tree.plain (parenthesizedText k) [0]
      (.parenthesizedStatement k)).nesting = 2 * k + 5 := by
    rw [Syntax.Tree.plain_parenthesizedStatement, Syntax.Tree.nesting_of_loose,
      Syntax.Tree.nesting_plain_parenthesized]
    rw [Syntax.Tree.nesting_plain_parenthesized]
    omega
  rw [parenthesizedRecord_eq]
  constructor
  · intro h
    have hdeep := h.tree _ rfl _ List.mem_cons_self _ rfl
    rw [hnesting, depthLimit] at hdeep
    omega
  · intro h
    refine ⟨by simp [Record.parsed, hsegments, depthLimit], ?_⟩
    rintro nodes ⟨⟩ n hn t ht
    rw [List.mem_singleton.1 hn] at ht
    cases ht
    rw [hnesting, depthLimit]
    omega

theorem metadata_parenthesizedRecord (k : Nat) :
    (parenthesizedRecord k).metadata = .ofSize 1 (2 * k + 2) := by
  have hlines : Text.countLines (parenthesizedText k) = 1 := by
    rw [Text.countLines, List.count_eq_zero_of_not_mem (newline_not_mem_parenthesizedText k)]
  have hanonymous : (Syntax.statementNode (parenthesizedText k) [0] (.parenthesizedStatement k)
      (Syntax.Tree.plain (parenthesizedText k) [0] (.parenthesizedStatement k))).isAnonymous := by
    cases k <;> rfl
  rw [parenthesizedRecord_eq]
  simp [Record.parsed, Metadata.collect, Metadata.note, hanonymous, Metadata.ofContent, hlines]

theorem legible_parenthesizedRecord {k : Nat} (hk : k + 3 ≤ 512) :
    (parenthesizedRecord k).toJson.Legible := by
  have hmetadata : (parenthesizedRecord k).metadata.toJson.Legible := by
    rw [metadata_parenthesizedRecord]
    exact Metadata.legible_toJson (by simp [Metadata.ofSize]) (by simp [Metadata.ofSize]; omega)
  have hzero : 0 < 2 ^ 64 := by decide
  have hone : 1 < 2 ^ 64 := by decide
  have hstop : 2 * k + 2 < 2 ^ 64 := by omega
  have hspan : Syntax.Tree.spanOf [0] (Syntax.Tree.parenthesizedStatement k).label =
      ⟨0, 2 * k + 2, 1, 0, 1, 2 * k + 2⟩ := Syntax.Tree.spanOf_plain _ _
  have htree : (Syntax.Tree.plain (parenthesizedText k) [0]
      (.parenthesizedStatement k)).Legible := by
    rw [Syntax.Tree.plain_parenthesizedStatement]
    exact Syntax.Tree.legible_of_loose _ _ _ hzero hstop
      (Syntax.Tree.legible_plain_parenthesized _ (by omega))
  refine Record.legible_toJson hmetadata ?_
  rw [parenthesizedRecord_eq]
  rintro nodes ⟨⟩ n hn
  rw [List.mem_singleton.1 hn, Syntax.statementNode, hspan]
  refine Node.legible_toJson hone ?_ ?_
  · rintro s ⟨⟩
    exact Span.legible_toJson ⟨hzero, hstop⟩ ⟨hone, hzero⟩ ⟨hone, hstop⟩
  · rintro t ⟨⟩
    exact htree

theorem languageStats_parenthesizedRecord (k : Nat) :
    languageStats (.ofList [parenthesizedRecord k]) =
      [⟨(parenthesizedRecord k).language, 1, 0, 0⟩] := by
  rw [languageStats, RecordSet.toList_ofList_singleton]
  simp only [List.foldl, LanguageStats.tally, List.mergeSort_singleton, LanguageStats.add,
    metadata_parenthesizedRecord]
  rfl

theorem Report.legible_parenthesized {k : Nat} (hk : k + 3 ≤ 512) (settings : Settings) :
    (ofRecords settings (.ofList [parenthesizedRecord k])).toJson.Legible := by
  refine legible_toJson ?_ ?_
  · intro r hr
    rw [ofRecords, RecordSet.toList_ofList_singleton, List.mem_singleton] at hr
    rw [hr]
    exact legible_parenthesizedRecord hk
  · intro s hs
    rw [ofRecords, languageStats_parenthesizedRecord, List.mem_singleton] at hs
    rw [hs]
    simp [LanguageStats.toJson, legible_obj, legible_str, legible_natural]

/-! ## reading a report -/

namespace Report

/-- **Which reports can be read.**  The report on analysed texts, written as JSON text, is read as
the same report exactly if no path has as many names as the reader allows levels, and no tree of a
unit comes within five levels of that; otherwise the text is refused.  Whole numbers are assumed to
fit into 64 bits, and others to be read as they are written. -/
theorem read_render_eq_some_iff {settings : Settings} {pushed : List Record}
    (hmade : ∀ r ∈ pushed, ∃ tools config path language content byteSize,
      Analysis.analyzeContent tools config path language content byteSize = .ok r)
    (hlegible : (ofRecords settings (.ofList pushed)).toJson.Legible) (detailed color : Bool) :
    let report := ofRecords settings (.ofList pushed)
    let text := report.render .json detailed color
    ((Json.read text).bind ofJson? = some report ↔ ∀ r ∈ report.files.toList, r.Shallow) ∧
      ((∃ r ∈ report.files.toList, ¬r.Shallow) → Json.read text = none) := by
  intro report text
  have hread : Json.read text =
      if report.toJson.nesting ≤ depthLimit then some report.toJson.canonical else none :=
    readWithin_pretty depthLimit hlegible
  have hdecode : ofJson? report.toJson.canonical = some report := by
    refine ofJson?_toJson rearranges_canonical rfl fun r hr => ?_
    obtain ⟨tools, config, path, language, content, byteSize, hrecord⟩ :=
      hmade r (RecordSet.mem_of_mem_ofList hr)
    exact Record.ofJson?_canonical fun nodes hbody => Analysis.tidy_analyzeContent hrecord hbody
  have hdeep : report.toJson.nesting ≤ depthLimit ↔ ∀ r ∈ report.files.toList, r.Shallow :=
    nesting_toJson_ofRecords_le_iff
  refine ⟨?_, ?_⟩
  · rw [hread, ← hdeep]
    split_ifs with hlimit
    · exact iff_of_true hdecode hlimit
    · exact iff_of_false (by simp) hlimit
  · rintro ⟨r, hr, hshallow⟩
    rw [hread, if_neg fun hlimit => hshallow (hdeep.1 hlimit r hr)]

/-- A name in as many parentheses as can be read. -/
theorem read_render_eq_some_iff_parenthesized :
    let record := parenthesizedRecord 58
    let report := ofRecords .standard (.ofList [record])
    Analysis.analyzeContent (parenthesizedTools 58) .standard "a.ts" .typeScript
        (parenthesizedText 58) 118 = .ok record ∧
      record.Shallow ∧ report.toJson.Legible ∧
      (Json.read (report.render .json false false)).bind ofJson? = some report := by
  intro record report
  have hk : 58 + 3 ≤ 512 := by decide
  have hrecord := analyzeContent_parenthesized hk
  have hshallow : record.Shallow := shallow_parenthesizedRecord_iff.2 (Nat.le_refl 58)
  have hlegible : report.toJson.Legible := legible_parenthesized hk .standard
  have hmade : ∀ r ∈ [record], ∃ tools config path language content byteSize,
      Analysis.analyzeContent tools config path language content byteSize = .ok r := by
    intro r hr
    rw [List.mem_singleton.1 hr]
    exact ⟨_, _, _, _, _, _, hrecord⟩
  have hread := @read_render_eq_some_iff .standard [record] hmade hlegible false false
  refine ⟨hrecord, hshallow, hlegible, hread.1.2 fun r hr => ?_⟩
  rw [List.mem_singleton.1 (RecordSet.mem_of_mem_ofList hr)]
  exact hshallow

/-- One pair of parentheses more: the settings are the standard ones and the parser is trusted with
the file, but the report cannot be read. -/
theorem read_render_parenthesized_eq_none :
    let record := parenthesizedRecord 59
    let report := ofRecords .standard (.ofList [record])
    Settings.standard.check = .ok .standard ∧
      Analysis.analyzeContent (parenthesizedTools 59) .standard "a.ts" .typeScript
        (parenthesizedText 59) 120 = .ok record ∧
      record.strategy = some .grammar ∧ report.toJson.Legible ∧
      Json.read (report.render .json false false) = none := by
  intro record report
  have hk : 59 + 3 ≤ 512 := by decide
  have hlegible : report.toJson.Legible := legible_parenthesized hk .standard
  have hdeep : ¬report.toJson.nesting ≤ depthLimit := by
    intro hlimit
    have hshallow := nesting_toJson_ofRecords_le_iff.1 hlimit record
      (by simp [RecordSet.toList_ofList_singleton])
    exact absurd (shallow_parenthesizedRecord_iff.1 hshallow) (by decide)
  have hread : Json.read (report.render .json false false) = none := by
    have := readWithin_pretty depthLimit hlegible
    rwa [if_neg hdeep] at this
  exact ⟨rfl, analyzeContent_parenthesized hk, rfl, hlegible, hread⟩

end Report

end SourceAtlas
