import SourceAtlas.Proofs.DescribedObjects
import SourceAtlas.Proofs.Extraction
import SourceAtlas.Proofs.Fallback
import SourceAtlas.Proofs.JsonLexemes
import SourceAtlas.Proofs.PlainDescription
import SourceAtlas.Proofs.RecordJson

/-!
What the units of an analysed text have in common.

* `Node.Tidy`: a unit that is storable and whose tree has its fields sorted.
* `Syntax.Tree.sorted_plain`: the description of a syntax tree is sorted.
* `Analysis.tidy_analyzeContent`: whatever strategy finds them, the units of a text are tidy.
-/

namespace SourceAtlas

open Json

namespace Json

theorem sorted_of_get? {v w : Json} {name : String} (hv : v.Sorted) (h : v.get? name = some w) :
    w.Sorted := by
  cases v with
  | obj fields =>
    exact (sorted_obj.1 hv).2 (name, w) (Entries.mem_of_lookup h)
  | _ => contradiction

end Json

namespace Syntax

/-! ## descriptions of syntax trees -/

theorem sorted_ownFields (v : Vertex) : (obj (ownFields v)).Sorted := by
  have hplace : ["column", "line"].Pairwise (· < ·) := by decide
  have hends : ["end", "start"].Pairwise (· < ·) := by decide
  have hown : ["end", "loc", "start", "type"].Pairwise (· < ·) := by decide
  have hposition (line column : Nat) : (positionJson line column).Sorted := by
    rw [positionJson, sorted_obj]
    exact ⟨increasing_iff_names.2 hplace, by simp [natural]⟩
  have hloc : (obj [("end", positionJson v.span.endLine v.span.endColumn),
      ("start", positionJson v.span.startLine v.span.startColumn)]).Sorted := by
    rw [sorted_obj]
    exact ⟨increasing_iff_names.2 hends, by simp [hposition]⟩
  rw [ownFields, sorted_obj]
  exact ⟨increasing_iff_names.2 hown, by simp [natural, hloc]⟩

theorem increasing_attach {fields : List (String × Json)} (h : Increasing fields) (field : String)
    (value : Json) : Increasing (attach fields field value) := by
  unfold attach
  split <;> exact increasing_setField h

theorem inOrder_assemble (v : Vertex) (shown : List (Option String × Json)) :
    (assemble v shown).InOrder := by
  have hfields : Increasing (attachAll (ownFields v) shown) := by
    refine List.foldlRecOn (motive := Increasing) shown _ (sorted_obj.1 (sorted_ownFields v)).1
      fun fields hfields child _ => ?_
    obtain ⟨field, value⟩ := child
    cases field with
    | none => exact hfields
    | some field => exact increasing_attach hfields field value
  show Increasing _
  split
  · exact hfields
  · exact increasing_setField hfields

theorem sorted_assemble (v : Vertex) {shown : List (Option String × Json)}
    (h : ∀ child ∈ shown, child.2.Sorted) : (assemble v shown).Sorted :=
  throughout_assemble (fun _ => trivial) (inOrder_assemble v shown)
    (sorted_obj.1 (sorted_ownFields v)).2 h

theorem sorted_leafJson (v : Vertex) : (leafJson v).Sorted := by
  obtain ⟨hown, hfields⟩ := sorted_obj.1 (sorted_ownFields v)
  refine throughout_leafJson ?_ (fun _ => trivial) hfields
  rw [leafJson]
  cases v.text with
  | none => exact hown
  | some s => exact increasing_setField hown

namespace Tree

mutual

theorem sorted_plain (content : String) (starts : List Nat) (t : Tree) :
    (plain content starts t).Sorted := by
  match t with
  | node label children =>
    rw [plain]
    split
    · exact sorted_assemble _ (sorted_plainAll content starts children)
    · exact sorted_leafJson _

theorem sorted_plainAll (content : String) (starts : List Nat) (ts : List Tree) :
    ∀ child ∈ plainAll content starts ts, child.2.Sorted := by
  match ts with
  | [] => simp [plainAll]
  | t :: ts =>
    have hrest := sorted_plainAll content starts ts
    rw [plainAll]
    split
    · exact List.forall_mem_cons.2 ⟨sorted_plain content starts t, hrest⟩
    · exact hrest

end

theorem plain_ne_null (content : String) (starts : List Nat) (t : Tree) :
    plain content starts t ≠ .null := by
  cases t with
  | node label children =>
    rw [plain]
    split <;> simp [assemble, leafJson]

end Tree

/-- The units of the statements of a tree, each with its own description. -/
def plainUnits (content : String) (root : Tree) : List Node :=
  (topLevel root).map fun entry =>
    statementNode content (Text.lineStarts content) entry.1
      (entry.1.plain content (Text.lineStarts content))

/-- A tree gives these units if it marks no error and is not too deep. -/
theorem statements_eq_ok_iff_plainUnits {limit : Nat} {content : String} {root : Tree}
    {nodes : List Node} :
    statements limit content (some root) = .ok nodes ↔
      root.label.hasError = false ∧ root.depth ≤ limit ∧ nodes = plainUnits content root := by
  obtain ⟨met', run, hrun, -⟩ := describesEach_topLevel content root
  have hdepth : root.depthWithin limit ≤ limit ↔ root.depth ≤ limit := by
    rw [← Nat.not_lt, Tree.lt_depthWithin_iff, Nat.not_lt]
  rw [statements_eq_ok_iff, hdepth, Graph.describeAll_eq_of_describesEach hrun, List.zipWith_map,
    List.zipWith_self]
  rfl

end Syntax

/-! ## units -/

/-- A unit that is storable and whose tree has its fields sorted. -/
structure Node.Tidy (n : Node) : Prop where
  storable : n.Storable
  sorted : ∀ t, n.tree = some t → t.Sorted

theorem Node.tidy_ofParse {tree : Json} (type : String) (name : Option String) (span : Span)
    (exported : Bool) (hnull : tree ≠ .null) (hsorted : tree.Sorted) :
    (Node.ofParse type name span exported tree).Tidy := by
  refine ⟨⟨NodeKind.ofText_text_eq_iff.1 (NodeKind.ofText_text_ofText type), ?_⟩, ?_⟩
  · simpa [Node.ofParse] using hnull
  · rintro t ⟨⟩
    exact hsorted

theorem Node.tidy_ofLine {kind : NodeKind} (hkind : kind ∈ NodeKind.named) (name : Option String)
    (line : Nat) (content : String) : (Node.ofLine kind name line content).Tidy := by
  refine ⟨⟨?_, by simp [Node.ofLine]⟩, by simp [Node.ofLine]⟩
  rintro other - rfl
  exact NodeKind.grammar_not_mem_named _ hkind

namespace Interpreter

theorem tidy_statementNodes {starts : List Nat} {statement : Json} {nodes : List Node}
    (h : statement.Sorted) (hnodes : statementNodes starts statement = .ok nodes) :
    ∀ n ∈ nodes, n.Tidy := by
  intro n hn
  obtain ⟨type, span, names, htype, -, -, name, -, rfl⟩ := (mem_statementNodes hnodes).1 hn
  refine Node.tidy_ofParse _ _ _ _ ?_ h
  rintro rfl
  contradiction

theorem Outcome.Prints.sorted {seconds : Nat} {outcome : Outcome} {body : List Json}
    (h : outcome.Prints seconds body) : ∀ statement ∈ body, statement.Sorted := by
  obtain ⟨-, stdout, -, dump, -, -, hread, -, hbody⟩ := h
  exact sorted_arr.1 (sorted_of_get? (sorted_of_read hread) hbody)

end Interpreter

namespace Declaration

theorem kind_mem_named_of_mem_catalog (language : Language) :
    ∀ rule ∈ catalog language, rule.kind ∈ NodeKind.named := by
  cases language <;> decide

theorem tidy_extract (language : Language) (width : Nat) (content : String) :
    ∀ n ∈ extract language width content, n.Tidy := by
  intro n hn
  obtain ⟨_, line, -, hn⟩ := mem_allNodes_iff.1 ((distinct_sublist [] _).subset hn)
  obtain ⟨-, rule, hrule, hnode⟩ := mem_lineNodes_iff.1 hn
  obtain ⟨kept, -, -, rfl⟩ := Rule.node?_eq_some_iff.1 hnode
  exact Node.tidy_ofLine (kind_mem_named_of_mem_catalog language rule hrule) _ _ _

end Declaration

namespace Analysis

variable (tools : Toolchain) (settings : AnalysisSettings)

theorem tidy_grammarNodes {path content : String} {found : List Node}
    (h : grammarNodes tools settings path content = .ok found) : ∀ n ∈ found, n.Tidy := by
  rw [grammarNodes] at h
  split at h
  · rename_i nodes hstatements
    cases h
    cases htree : tools.grammar (Syntax.Dialect.ofPath path) content with
    | none =>
      rw [htree] at hstatements
      contradiction
    | some root =>
      rw [htree] at hstatements
      obtain ⟨-, -, rfl⟩ := Syntax.statements_eq_ok_iff_plainUnits.1 hstatements
      intro n hn
      obtain ⟨entry, -, rfl⟩ := List.mem_map.1 hn
      exact Node.tidy_ofParse _ _ _ _ (entry.1.plain_ne_null content _)
        (entry.1.sorted_plain content _)
  · contradiction

theorem tidy_interpreterNodes {settings : InterpreterSettings} {content : String}
    {found : List Node} (h : interpreterNodes tools settings content = .ok (.ok found)) :
    ∀ n ∈ found, n.Tidy := by
  rw [interpreterNodes, Except.map_eq_ok_iff] at h
  obtain ⟨units, hunits, h⟩ := h
  rcases Interpreter.unusable_or_prints settings.seconds
    (tools.interpreter settings.command content) with hunusable | ⟨body, hprints⟩
  · obtain ⟨fault, hfault⟩ := hunusable.exists_fault settings.command content
    cases hfault.symm.trans hunits
    cases h
  · rw [Interpreter.statements_of_prints hprints, Except.map_eq_ok_iff] at hunits
    obtain ⟨lists, hlists, rfl⟩ := hunits
    cases h
    intro n hn
    obtain ⟨nodes, hnodes, hn⟩ := List.mem_flatten.1 hn
    obtain ⟨statement, hstatement, hnodes⟩ := (mem_iff_of_mapM_eq_ok hlists).1 hnodes
    exact Interpreter.tidy_statementNodes (hprints.sorted statement hstatement) hnodes n hn

/-- Whatever strategy finds them, units are tidy. -/
theorem tidy_nodes {language : Language} {path content : String} {strategy : Strategy}
    {found : List Node}
    (h : nodes tools settings language path content strategy = .ok (.ok found)) :
    ∀ n ∈ found, n.Tidy := by
  cases strategy with
  | grammar => exact tidy_grammarNodes tools settings (Except.ok.inj h)
  | interpreter => exact tidy_interpreterNodes tools h
  | patterns =>
    cases h
    exact Declaration.tidy_extract language _ content

variable {tools settings}

theorem exists_nodes_of_analyzeContent {path : String} {language : Language} {content : String}
    {byteSize : Nat} {record : Record}
    (h : analyzeContent tools settings path language content byteSize = .ok record) :
    ∃ strategy found, nodes tools settings language path content strategy = .ok (.ok found) ∧
      record.body = some found := by
  unfold analyzeContent at h
  split at h
  · cases h
    exact ⟨.patterns, _, rfl, rfl⟩
  · rename_i strategy _
    obtain ⟨found, hfound, rfl⟩ := Except.map_eq_ok_iff.1 h
    cases found with
    | ok found => exact ⟨strategy, found, hfound, rfl⟩
    | error failure => exact ⟨.patterns, _, rfl, rfl⟩

/-- The units of an analysed text are tidy. -/
theorem tidy_analyzeContent {path : String} {language : Language} {content : String}
    {byteSize : Nat} {record : Record} {found : List Node}
    (h : analyzeContent tools settings path language content byteSize = .ok record)
    (hbody : record.body = some found) : ∀ n ∈ found, n.Tidy := by
  obtain ⟨strategy, nodes, hnodes, hrecord⟩ := exists_nodes_of_analyzeContent h
  cases Option.some.inj (hrecord.symm.trans hbody)
  exact tidy_nodes tools settings hnodes

end Analysis

end SourceAtlas
