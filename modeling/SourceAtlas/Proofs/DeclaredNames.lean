import SourceAtlas.Proofs.RecordInvariant

/-!
The names that a Python file declares, and the names in its record.

* `Interpreter.Declares`: the names that a statement of a dump declares, by the kind of statement.
* `Interpreter.exists_node_of_declares`: each of them is the name of a unit of its family.
* `Interpreter.declared_names_kept`: each of them is in the record, unless it is the name that
  stands for none.
-/

namespace SourceAtlas.Interpreter

/-- A statement of a dump declares a name in a family. -/
inductive Declares (statement : Json) : Family → String → Prop
  /-- An import declares every module that it lists. -/
  | plainImport {aliases : List Json} {entry : Json} {name : String}
      (htype : nameIn statement "type" = some "Import")
      (haliases : statement.get? "names" = some (.arr aliases)) (hentry : entry ∈ aliases)
      (hname : nameIn entry "name" = some name) : Declares statement .imports name
  | importFrom (htype : nameIn statement "type" = some "ImportFrom") :
      Declares statement .imports (fromName statement)
  | function {type name : String} (htype : nameIn statement "type" = some type)
      (hfunction : type = "FunctionDef" ∨ type = "AsyncFunctionDef")
      (hname : nameIn statement "name" = some name) : Declares statement .functions name
  | classDef {name : String} (htype : nameIn statement "type" = some "ClassDef")
      (hname : nameIn statement "name" = some name) : Declares statement .classes name

variable {statement : Json} {family : Family} {name : String}

theorem relativeModule_of_ne {found : Option String} (h : relativeModule statement = .ok found)
    (hne : fromName statement ≠ "") : found = some (fromName statement) := by
  unfold relativeModule at h
  split at h
  · rw [if_neg fun hempty => hne (String.isEmpty_iff.1 hempty)] at h
    exact (Except.ok.inj h).symm
  · cases h

/-- All statements but imports are named by one field. -/
theorem mem_statementNames_of_ne {type : String} {names : List (Option String)}
    (h : statementNames type statement = .ok names) (himport : type ≠ "Import")
    (hfrom : type ≠ "ImportFrom") (hname : nameIn statement "name" = some name) :
    some name ∈ names := by
  unfold statementNames at h
  split at h
  · exact absurd rfl himport
  · exact absurd rfl hfrom
  · cases h
    exact List.mem_singleton.2 hname.symm

/-- The type of a statement decides its family, and the name is among those that are read off. -/
theorem Declares.exists_type (h : Declares statement family name) (hne : name ≠ "") :
    ∃ type, nameIn statement "type" = some type ∧
      (NodeKind.ofText type).family? = some family ∧
      ∀ names, statementNames type statement = .ok names → some name ∈ names := by
  cases h with
  | plainImport htype haliases hentry hname =>
    refine ⟨_, htype, by decide, fun names h => ?_⟩
    simp only [statementNames, haliases, Option.bind_some, Json.arr?] at h
    cases h
    exact List.mem_map.2 ⟨_, hentry, hname⟩
  | importFrom htype =>
    refine ⟨_, htype, by decide, fun names h => ?_⟩
    obtain ⟨found, hfound, rfl⟩ := Except.map_eq_ok_iff.1 h
    rw [relativeModule_of_ne hfound hne]
    exact List.mem_singleton_self _
  | function htype hfunction hname =>
    rcases hfunction with rfl | rfl <;>
      exact ⟨_, htype, by decide,
        fun names h => mem_statementNames_of_ne h (by decide) (by decide) hname⟩
  | classDef htype hname =>
    exact ⟨_, htype, by decide,
      fun names h => mem_statementNames_of_ne h (by decide) (by decide) hname⟩

theorem exists_node_of_declares {starts : List Nat} {nodes : List Node}
    (hnodes : statementNodes starts statement = .ok nodes) (h : Declares statement family name)
    (hne : name ≠ "") : ∃ n ∈ nodes, n.kind.family? = some family ∧ n.name = name := by
  obtain ⟨type, htype, hfamily, hnames⟩ := h.exists_type hne
  simp only [statementNodes, htype] at hnodes
  obtain ⟨span, -, hnodes⟩ := Except.bind_eq_ok_iff.1 hnodes
  obtain ⟨names, hfound, rfl⟩ := Except.map_eq_ok_iff.1 hnodes
  refine ⟨_, List.mem_map.2 ⟨_, hnames names hfound, rfl⟩, hfamily, ?_⟩
  simp [Node.ofParse, Node.nameOr, hne]

theorem exists_body_of_statements? {content : String} {dump : Json} {nodes : List Node}
    (h : statements? content dump = .ok (some nodes)) :
    ∃ body, dump.get? "body" = some (.arr body) := by
  by_contra! hbody
  rw [statements?_of_no_body content hbody] at h
  cases h

/-- **Every declared name is kept but one.**  A name that a statement of an accepted dump declares
is in the record that is made of the units of the dump, in the set of its family.  Only the name
that stands for units without one is not put there. -/
theorem declared_names_kept {content : String} {dump : Json} {nodes : List Node}
    (h : statements? content dump = .ok (some nodes)) (path : String) (language : Language)
    (strategy : Strategy) (metadata : Metadata) :
    ∃ body, dump.get? "body" = some (.arr body) ∧
      ∀ statement ∈ body, ∀ family name, Declares statement family name → name ≠ "" →
        (name ∈ (Record.parsed path language strategy nodes metadata).metadata.names family ↔
          name ≠ anonymous ∨ name ∈ metadata.names family) := by
  obtain ⟨body, hbody⟩ := exists_body_of_statements? h
  refine ⟨body, hbody, fun statement hstatement family name hdeclares hne => ?_⟩
  obtain ⟨units, hunits⟩ := exists_statementNodes_iff.2
    ((exists_statements?_iff_fits hbody).1 ⟨nodes, h⟩ statement hstatement)
  obtain ⟨n, hn, hfamily, hname⟩ := exists_node_of_declares hunits hdeclares hne
  rw [Record.parsed, Metadata.mem_names_collect]
  constructor
  · rintro (hknown | ⟨m, -, -, -, hnamed⟩)
    · exact Or.inr hknown
    · exact Or.inl hnamed
  · rintro (hnamed | hknown)
    · have hmem : n ∈ nodes :=
        (mem_statements? hbody h).2 ⟨statement, hstatement, units, hunits, hn⟩
      exact Or.inr ⟨n, hmem, hfamily, hname, hnamed⟩
    · exact Or.inl hknown

/-- Two modules in one import, a module two levels up, a function and a class are all kept. -/
theorem declared_names_kept_service :
    let imports : Json := .obj [("type", .str "Import"),
      ("names", .arr [.obj [("name", .str "os")], .obj [("name", .str "sys")]])]
    let core : Json := .obj [("type", .str "ImportFrom"), ("level", .natural 2),
      ("module", .str "core")]
    let go : Json := .obj [("type", .str "AsyncFunctionDef"), ("name", .str "go")]
    let service : Json := .obj [("type", .str "ClassDef"), ("name", .str "Service")]
    let dump : Json := .obj [("body", .arr [imports, core, go, service])]
    ∃ nodes, statements? "import os, sys" dump = .ok (some nodes) ∧
      let found := (Record.parsed "a.py" .python .interpreter nodes .blank).metadata
      "os" ∈ found.importNames ∧ "sys" ∈ found.importNames ∧ "..core" ∈ found.importNames ∧
        "go" ∈ found.functionNames ∧ "Service" ∈ found.classNames := by
  intro imports core go service dump
  obtain ⟨nodes, hnodes⟩ : ∃ nodes, statements? "import os, sys" dump = .ok (some nodes) := ⟨_, rfl⟩
  obtain ⟨body, hbody, hkept⟩ := declared_names_kept hnodes "a.py" .python .interpreter .blank
  cases hbody
  have hcore : fromName core = "..core" := by decide
  have hos := hkept imports (by simp) .imports "os"
    (.plainImport rfl rfl List.mem_cons_self rfl) (by decide)
  have hsys := hkept imports (by simp) .imports "sys"
    (.plainImport rfl rfl (List.mem_cons_of_mem _ List.mem_cons_self) rfl) (by decide)
  have hdots := hkept core (by simp) .imports "..core" (hcore ▸ .importFrom rfl) (by decide)
  have hgo := hkept go (by simp) .functions "go" (.function rfl (.inr rfl) rfl) (by decide)
  have hservice := hkept service (by simp) .classes "Service" (.classDef rfl rfl) (by decide)
  exact ⟨nodes, hnodes, hos.2 (.inl (by decide)), hsys.2 (.inl (by decide)),
    hdots.2 (.inl (by decide)), hgo.2 (.inl (by decide)), hservice.2 (.inl (by decide))⟩

/-- Two imports, a function and a class of the name that stands for none: the record has no names at
all. -/
theorem declared_anonymous_lost :
    let imports : Json := .obj [("type", .str "Import"),
      ("names", .arr [.obj [("name", .str "anonymous")]])]
    let source : Json := .obj [("type", .str "ImportFrom"), ("level", .natural 0),
      ("module", .str "anonymous")]
    let function : Json := .obj [("type", .str "FunctionDef"), ("name", .str "anonymous")]
    let blueprint : Json := .obj [("type", .str "ClassDef"), ("name", .str "anonymous")]
    let dump : Json := .obj [("body", .arr [imports, source, function, blueprint])]
    (Declares imports .imports "anonymous" ∧ Declares source .imports "anonymous" ∧
      Declares function .functions "anonymous" ∧ Declares blueprint .classes "anonymous") ∧
    ∃ nodes, statements? "import anonymous" dump = .ok (some nodes) ∧
      let found := (Record.parsed "a.py" .python .interpreter nodes .blank).metadata
      "anonymous" ∉ found.importNames ∧ "anonymous" ∉ found.functionNames ∧
        "anonymous" ∉ found.classNames := by
  intro imports source function blueprint dump
  have hsource : fromName source = "anonymous" := by decide
  refine ⟨⟨.plainImport rfl rfl List.mem_cons_self rfl, hsource ▸ .importFrom rfl,
    .function rfl (.inl rfl) rfl, .classDef rfl rfl⟩, _, rfl, ?_⟩
  decide

end SourceAtlas.Interpreter
