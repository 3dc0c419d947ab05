import SourceAtlas.Proofs.Traversal
import SourceAtlas.Proofs.SyntaxDepth
import SourceAtlas.Syntax.Statement

/-!
Syntax trees are described node by node, without any memory.

* `Tree.plain`: the description of a tree by recursion over the tree alone.
* `Tree.describes_plain`: it is what the description of the numbered nodes of the tree finds, and no
  node is met again then.
* `statements_describe_alone`: the units of a file carry these descriptions, although all statements
  are described with one memory.
-/

namespace SourceAtlas.Syntax

/-- A child is listed with its parent: it has a rule of its own or a field. -/
def Label.isMember (l : Label) : Bool := l.named || l.field.isSome

/-- A child is described with its parent. -/
def Label.isShown (l : Label) : Bool := l.isMember && !l.extra && l.field.all isShownField

/-- A node by itself, without its children. -/
def Label.vertex (content : String) (starts : List Nat) (l : Label) : Vertex where
  kind := l.kind
  text := if l.named then some (Tree.textOf content l) else none
  extra := l.extra
  span := Tree.spanOf starts l
  children := []

/-- Fields with the descriptions of the children that stand in one. -/
def attachAll (fields : List (String × Json)) (shown : List (Option String × Json)) :
    List (String × Json) :=
  shown.foldl (fun done child => (child.1.map fun field => attach done field child.2).getD done)
    fields

/-- The descriptions of the children that stand in no field. -/
def looseOf (shown : List (Option String × Json)) : List Json :=
  (shown.filter fun child => child.1.isNone).map Prod.snd

/-- The description of a node with the given descriptions of its children. -/
def assemble (v : Vertex) (shown : List (Option String × Json)) : Json :=
  let fields := attachAll (ownFields v) shown
  .obj (if (looseOf shown).isEmpty then fields
    else Json.setField "children" (.arr (looseOf shown)) fields)

namespace Tree

mutual

/-- The description of a tree. Every child is described by itself. -/
def plain (content : String) (starts : List Nat) : Tree → Json
  | node label children =>
    if children.any fun t => t.label.isMember then
      assemble (label.vertex content starts) (plainAll content starts children)
    else leafJson (label.vertex content starts)

/-- The fields and descriptions of the children that are described. -/
def plainAll (content : String) (starts : List Nat) : List Tree → List (Option String × Json)
  | [] => []
  | t :: ts =>
    let rest := plainAll content starts ts
    if t.label.isShown then (t.label.field, plain content starts t) :: rest else rest

end

/-! ## the nodes of a tree in a graph -/

variable {content : String} {starts : List Nat}

mutual

theorem length_vertices (next : Nat) (t : Tree) :
    (vertices content starts next t).length = t.size := by
  match t with
  | node label children => simp [vertices, size, length_verticesAll (next + 1) children]

theorem length_verticesAll (next : Nat) (ts : List Tree) :
    (verticesAll content starts next ts).length = sizeAll ts := by
  match ts with
  | [] => rfl
  | t :: ts =>
    rw [verticesAll, List.length_append, length_vertices next t,
      length_verticesAll (next + t.size) ts, sizeAll]

end

/-- The nodes in a list stand in a graph from a number on. -/
def StandAt (g : Graph) (next : Nat) (vs : List Vertex) : Prop :=
  ∀ i v, vs[i]? = some v → g.vertices[next + i]? = some v

variable {g : Graph} {next : Nat} {v : Vertex} {vs ws : List Vertex}

theorem StandAt.head (h : StandAt g next (v :: vs)) : g.vertices[next]? = some v :=
  h 0 v rfl

theorem StandAt.tail (h : StandAt g next (v :: vs)) : StandAt g (next + 1) vs := by
  intro i w hw
  have := h (i + 1) w hw
  rwa [Nat.add_assoc, Nat.add_comm 1 i]

theorem StandAt.left (h : StandAt g next (vs ++ ws)) : StandAt g next vs := by
  intro i w hw
  refine h i w ?_
  rw [List.getElem?_append_left (List.getElem?_eq_some_iff.1 hw).1]
  exact hw

theorem StandAt.right (h : StandAt g next (vs ++ ws)) : StandAt g (next + vs.length) ws := by
  intro i w hw
  have := h (vs.length + i) w (by rw [List.getElem?_append_right (by omega)]; simpa using hw)
  rwa [← Nat.add_assoc] at this

/-- What follows the first of several trees stands behind its nodes. -/
theorem StandAt.rest {t : Tree} {ts : List Tree}
    (h : StandAt g next (verticesAll content starts next (t :: ts))) :
    StandAt g (next + t.size) (verticesAll content starts (next + t.size) ts) := by
  have hright := h.right
  rwa [length_vertices] at hright

/-- The first node of a tree is its root. -/
theorem getElem?_of_standAt {t : Tree} (h : StandAt g next (vertices content starts next t)) :
    g.vertices[next]? =
      some { t.label.vertex content starts with children := numbered (next + 1) t.children } := by
  cases t with
  | node label children => exact h.head

theorem keeps_of_standAt {t : Tree} (h : StandAt g next (vertices content starts next t)) :
    g.keeps (t.label.field, next) = (!t.label.extra && t.label.field.all isShownField) := by
  simp [Graph.keeps, getElem?_of_standAt h, Label.vertex]

theorem numbered_eq_nil_iff {ts : List Tree} :
    numbered next ts = [] ↔ (ts.any fun t => t.label.isMember) = false := by
  induction ts generalizing next with
  | nil => simp [numbered]
  | cons t ts ih =>
    rw [numbered, List.any_cons]
    by_cases hmember : t.label.isMember
    · have hshown : (t.label.named || t.label.field.isSome) = true := hmember
      simp [hmember, hshown]
    · have hhidden : (t.label.named || t.label.field.isSome) = false := by
        simpa [Label.isMember] using hmember
      have hfalse : t.label.isMember = false := by simpa using hmember
      simp only [hhidden, hfalse, Bool.false_eq_true, if_false, Bool.false_or]
      exact ih

/-! ## descriptions of trees -/

/-- A draft with the descriptions of several children, the nodes in `met` being met then. -/
def addAll (d : Draft) (shown : List (Option String × Json)) (met : List Nat) : Draft where
  fields := attachAll d.fields shown
  loose := d.loose ++ looseOf shown
  met := met

theorem addAll_nil (d : Draft) : addAll d [] d.met = d := by
  simp [addAll, attachAll, looseOf]

theorem addAll_cons (d : Draft) (field : Option String) (value : Json)
    (shown : List (Option String × Json)) (met met' : List Nat) :
    addAll d ((field, value) :: shown) met' = addAll (d.add field value met) shown met' := by
  cases field <;> simp [addAll, Draft.add, attachAll, looseOf]

mutual

/-- The tree from a number on is described by recursion over it alone, if only smaller numbers were
met before. -/
theorem describes_plain (t : Tree) {next : Nat} {met : List Nat}
    (hg : StandAt g next (vertices content starts next t)) (hmet : ∀ x ∈ met, x < next) :
    ∃ met' run, g.Describes met next (plain content starts t) met' run ∧
      (∀ x ∈ met', x < next + t.size) ∧ ∀ id, .again id ∉ run := by
  match t with
  | node label children =>
    have hnew : next ∉ met := fun hmem => Nat.lt_irrefl _ (hmet next hmem)
    have hmet' : ∀ x ∈ next :: met, x < next + 1 := by
      intro x hx
      rcases List.mem_cons.1 hx with rfl | hx
      · exact Nat.lt_succ_self x
      · exact Nat.lt_succ_of_lt (hmet x hx)
    have hfound := getElem?_of_standAt hg
    cases hmembers : children.any fun t => t.label.isMember with
    | false =>
      have hchildless : numbered (next + 1) children = [] := numbered_eq_nil_iff.2 hmembers
      have hleaf := Graph.Describes.leaf hnew hfound hchildless
      refine ⟨next :: met, [.first next], ?_, fun x hx => ?_, by simp⟩
      · rw [plain, hmembers]
        exact hleaf
      · have := hmet' x hx
        rw [size]
        omega
    | true =>
      have hinner : numbered (next + 1) children ≠ [] := by
        rw [Ne, numbered_eq_nil_iff, hmembers]
        simp
      obtain ⟨met', run, hfills, hbound, hrun⟩ := fills_plain children
        (d := ⟨ownFields (label.vertex content starts), [], next :: met⟩) hg.tail hmet'
      refine ⟨met', .first next :: run, ?_, fun x hx => ?_, by simpa using hrun⟩
      · rw [plain, hmembers]
        exact .node hnew hfound hinner hfills
      · have := hbound x hx
        rw [size]
        omega

theorem fills_plain (ts : List Tree) {next : Nat} {d : Draft}
    (hg : StandAt g next (verticesAll content starts next ts)) (hmet : ∀ x ∈ d.met, x < next) :
    ∃ met' run, g.Fills d (numbered next ts) (addAll d (plainAll content starts ts) met') run ∧
      (∀ x ∈ met', x < next + sizeAll ts) ∧ ∀ id, .again id ∉ run := by
  match ts with
  | [] =>
    refine ⟨d.met, [], ?_, hmet, by simp⟩
    rw [plainAll, addAll_nil]
    exact .nil d
  | t :: ts =>
    have hfirst : StandAt g next (vertices content starts next t) := hg.left
    have hrest := hg.rest
    have hlater : ∀ x ∈ d.met, x < next + t.size :=
      fun x hx => Nat.lt_of_lt_of_le (hmet x hx) (Nat.le_add_right _ _)
    have hkeeps := keeps_of_standAt hfirst
    rw [numbered, plainAll, sizeAll, ← Nat.add_assoc]
    by_cases hmember : t.label.isMember
    · have hlisted : (t.label.named || t.label.field.isSome) = true := hmember
      rw [if_pos hlisted]
      cases hshown : (!t.label.extra && t.label.field.all isShownField) with
      | true =>
        have hisShown : t.label.isShown = true := by
          rw [Label.isShown, Bool.and_assoc, hmember, hshown]
          rfl
        rw [if_pos hisShown]
        obtain ⟨met₁, run, hdescribes, hbound₁, hrun⟩ := describes_plain t hfirst hmet
        obtain ⟨met₂, runs, hfills, hbound₂, hruns⟩ := fills_plain ts
          (d := d.add t.label.field (plain content starts t) met₁) hrest (by simpa using hbound₁)
        refine ⟨met₂, run ++ runs, ?_, hbound₂, fun id => by simp [hrun id, hruns id]⟩
        rw [addAll_cons d _ _ _ met₁ met₂]
        exact .keep (hkeeps.trans hshown) hdescribes hfills
      | false =>
        have hisShown : t.label.isShown = false := by
          rw [Label.isShown, Bool.and_assoc, hmember, hshown]
          rfl
        rw [hisShown]
        obtain ⟨met', run, hfills, hbound, hrun⟩ := fills_plain ts hrest hlater
        exact ⟨met', run, .skip (hkeeps.trans hshown) hfills, hbound, hrun⟩
    · have hlisted : (t.label.named || t.label.field.isSome) = false := by
        simpa [Label.isMember] using hmember
      have hisShown : t.label.isShown = false := by
        simp [Label.isShown, hmember]
      rw [hlisted, hisShown]
      exact fills_plain ts hrest hlater

end

/-- Trees that follow each other, some of them left out, are each described alone. -/
theorem describesEach_plain (select : Tree × Nat → Bool) (ts : List Tree) {next : Nat}
    {met : List Nat} (hg : StandAt g next (verticesAll content starts next ts))
    (hmet : ∀ x ∈ met, x < next) :
    ∃ met' run, g.DescribesEach met (((withNumbers next ts).filter select).map Prod.snd)
        (((withNumbers next ts).filter select).map fun entry => plain content starts entry.1)
        met' run ∧ ∀ id, .again id ∉ run := by
  induction ts generalizing next met with
  | nil => exact ⟨met, [], .nil met, by simp⟩
  | cons t ts ih =>
    rw [withNumbers]
    cases hselect : select (t, next) with
    | true =>
      obtain ⟨met₁, run, hdescribes, hbound, hrun⟩ := describes_plain t hg.left hmet
      obtain ⟨met₂, runs, heach, hruns⟩ := ih hg.rest hbound
      rw [List.filter_cons_of_pos hselect]
      exact ⟨met₂, run ++ runs, .cons hdescribes heach, fun id => by simp [hrun id, hruns id]⟩
    | false =>
      rw [List.filter_cons_of_neg (by simp [hselect])]
      exact ih hg.rest fun x hx => Nat.lt_of_lt_of_le (hmet x hx) (Nat.le_add_right _ _)

/-- The children of the root stand in the graph of a tree from number one on. -/
theorem standAt_graph (content : String) (root : Tree) :
    StandAt (root.graph content) 1
      (verticesAll content (Text.lineStarts content) 1 root.children) := by
  have hall : StandAt (root.graph content) 0
      (vertices content (Text.lineStarts content) 0 root) := by
    intro i v hv
    rw [Nat.zero_add, graph, List.getElem?_toArray]
    exact hv
  cases root with
  | node label children => exact hall.tail

end Tree

/-! ## statements -/

/-- The statements of a tree are described alone, and in the run that describes them no node is met
again. -/
theorem describesEach_topLevel (content : String) (root : Tree) :
    ∃ met' run, (root.graph content).DescribesEach [] ((topLevel root).map Prod.snd)
        ((topLevel root).map fun entry => entry.1.plain content (Text.lineStarts content))
        met' run ∧ ∀ id, .again id ∉ run :=
  Tree.describesEach_plain _ root.children (Tree.standAt_graph content root) (by simp)

@[simp]
theorem tree_statementNode (content : String) (starts : List Nat) (t : Tree) (description : Json) :
    (statementNode content starts t description).tree = some description := rfl

theorem statements_eq_ok_iff {limit : Nat} {content : String} {root : Tree} {nodes : List Node} :
    statements limit content (some root) = .ok nodes ↔
      root.label.hasError = false ∧ root.depthWithin limit ≤ limit ∧
        nodes = List.zipWith (statementNode content (Text.lineStarts content))
          ((topLevel root).map Prod.fst)
          ((root.graph content).describeAll [] ((topLevel root).map Prod.snd)).1 := by
  rw [statements]
  cases root.label.hasError with
  | true => simp
  | false =>
    by_cases hdeep : limit < root.depthWithin limit
    · simp [hdeep]
    · simp [hdeep, Nat.not_lt.1 hdeep, eq_comm]

/-- **Statements are described alone.**  Each unit of a tree that gives units carries the
description of its statement by recursion over that statement only.  In the one run that describes
all of them with a common memory, no node is met again. -/
theorem statements_describe_alone {limit : Nat} {content : String} {root : Tree}
    {nodes : List Node} (h : statements limit content (some root) = .ok nodes) :
    nodes = (topLevel root).map (fun entry =>
        statementNode content (Text.lineStarts content) entry.1
          (entry.1.plain content (Text.lineStarts content))) ∧
      nodes.map Node.tree =
        (topLevel root).map (fun entry => some (entry.1.plain content (Text.lineStarts content))) ∧
      ∃ met' run, (root.graph content).DescribesEach [] ((topLevel root).map Prod.snd)
          (nodes.filterMap Node.tree) met' run ∧ ∀ id, .again id ∉ run := by
  obtain ⟨met', run, hrun, hagain⟩ := describesEach_topLevel content root
  obtain ⟨-, -, hnodes⟩ := statements_eq_ok_iff.1 h
  rw [Graph.describeAll_eq_of_describesEach hrun, List.zipWith_map, List.zipWith_self] at hnodes
  have htrees : nodes.map Node.tree =
      (topLevel root).map fun entry => some (entry.1.plain content (Text.lineStarts content)) := by
    simp [hnodes, Function.comp_def]
  have hvalues : nodes.filterMap Node.tree =
      (topLevel root).map fun entry => entry.1.plain content (Text.lineStarts content) := by
    simp [hnodes, List.filterMap_map, Function.comp_def]
  exact ⟨hnodes, htrees, met', run, hvalues ▸ hrun, hagain⟩

/-- A tree with two statements that look alike: each is described in full. -/
theorem statements_describe_alone_twins :
    let name : Tree := .node { (default : Label) with kind := "identifier", named := true } []
    let twin : Tree :=
      .node { (default : Label) with kind := "expression_statement", named := true } [name]
    let root : Tree :=
      .node { (default : Label) with kind := "program", named := true } [twin, twin]
    ∃ nodes, statements 3 "" (some root) = .ok nodes ∧
      nodes.map Node.tree = [some (twin.plain "" [0]), some (twin.plain "" [0])] := by
  intro name twin root
  have hdepth : root.depthWithin 3 ≤ 3 :=
    Nat.le_of_not_lt fun h => absurd (Tree.lt_depthWithin_iff.1 h) (by decide)
  obtain ⟨nodes, hok⟩ : ∃ nodes, statements 3 "" (some root) = .ok nodes :=
    ⟨_, statements_eq_ok_iff.2 ⟨rfl, hdepth, rfl⟩⟩
  exact ⟨nodes, hok, (statements_describe_alone hok).2.1⟩

end SourceAtlas.Syntax
