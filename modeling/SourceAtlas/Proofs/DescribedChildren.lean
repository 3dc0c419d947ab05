import SourceAtlas.Proofs.DescribedObjects

/-!
The children in a description: none gets lost, and none changes its place.

* `collected`: what a field holds whose children have given descriptions.
* `Graph.describe_ne_arr`: no description is an array, so that an array in a field always stands for
  several children.
* `Graph.results`: the descriptions of the children in a field, when all children of a node are
  described in turn.
* `Graph.described_children`: every field of an object holds just these, and the children without a
  field are listed under `children`.
-/

namespace SourceAtlas.Syntax

/-- What a field holds whose children have the given descriptions. A single one stands for
itself. -/
def collected : List Json → Option Json
  | [] => none
  | [value] => some value
  | values => some (.arr values)

/-- The list of the given descriptions; there is none of nothing. -/
def listed (values : List Json) : Option Json := if values = [] then none else some (.arr values)

/-- Values that are added to a field one after the other are collected there, as long as none of
them looks like a collection itself. -/
theorem foldl_attached_none {values : List Json}
    (h : ∀ value ∈ values, ∀ items, value ≠ .arr items) :
    values.foldl (fun old value => some (attached old value)) none = collected values := by
  cases values with
  | nil => rfl
  | cons first rest =>
    have hfirst := h first List.mem_cons_self
    rw [List.foldl_cons]
    show rest.foldl _ (some first) = _
    rw [foldl_attached_of_ne_arr hfirst]
    cases rest with
    | nil => rfl
    | cons second rest => rfl

/-- A node has no own field of any other name. -/
theorem lookup_ownFields {name : String} (h : name ∉ ["type", "loc", "start", "end"]) (v : Vertex) :
    (ownFields v).lookup name = none := by
  rw [List.lookup_eq_none_iff]
  intro field hfield
  simp only [ownFields, List.mem_cons, List.not_mem_nil, or_false] at hfield
  simp only [List.mem_cons, List.not_mem_nil, or_false, not_or] at h
  obtain ⟨htype, hloc, hstart, hend⟩ := h
  rcases hfield with rfl | rfl | rfl | rfl
  · simpa using hend
  · simpa using hloc
  · simpa using hstart
  · simpa using htype

/-- The children without a field are listed, unless a child takes the name of the list. -/
theorem get?_assemble_children (v : Vertex) {shown : List (Option String × Json)}
    (h : inField "children" shown = []) :
    (assemble v shown).get? "children" = listed (looseOf shown) := by
  rw [assemble, listed]
  by_cases hloose : looseOf shown = []
  · rw [hloose, if_pos rfl, List.isEmpty_nil, if_pos rfl, Json.get?, lookup_attachAll, h]
    exact lookup_ownFields (by decide) v
  · rw [if_neg hloose, if_neg (by simpa using hloose), Json.get?, Json.lookup_setField, if_pos rfl]

namespace Graph

variable {g : Graph}

/-- A node is described by an object, a mark or nothing at all. -/
theorem describe_ne_arr (g : Graph) (met : List Nat) (id : Nat) (items : List Json) :
    (g.describe met id).1 ≠ .arr items := by
  by_cases old : id ∈ met
  · rw [describe_of_mem old]
    simp [metMark]
  · cases found : g.vertices[id]? with
    | none =>
      rw [describe_of_missing old found]
      simp
    | some v =>
      rw [describe_of_found old found]
      split
      · simp [leafJson]
      · simp [assemble]

/-! ## children in turn -/

/-- The descriptions of the children in a field, in order. All children that are kept, whatever
their fields, are described one after the other with a common memory. -/
def results (g : Graph) (met : List Nat) (field : Option String)
    (children : List (Option String × Nat)) : List Json :=
  let kept := children.filter g.keeps
  ((kept.zip (g.describeAll met (kept.map Prod.snd)).1).filter fun turn =>
    turn.1.1 == field).map Prod.snd

theorem shown_eq_zip (g : Graph) (met : List Nat) (children : List (Option String × Nat)) :
    g.shown met children =
      ((children.filter g.keeps).zip
        (g.describeAll met ((children.filter g.keeps).map Prod.snd)).1).map
          fun turn => (turn.1.1, turn.2) := by
  induction children generalizing met with
  | nil => rfl
  | cons child rest ih =>
    rw [shown, calls]
    split <;> rename_i hkeeps
    · have hrest := ih (g.describe met child.2).2
      rw [List.filter_cons_of_pos hkeeps, List.map_cons, List.map_cons, describeAll_cons,
        List.zip_cons_cons, List.map_cons, ← hrest]
      rfl
    · rw [List.filter_cons_of_neg hkeeps]
      exact ih met

theorem results_eq_filter (g : Graph) (met : List Nat) (field : Option String)
    (children : List (Option String × Nat)) :
    g.results met field children =
      ((g.shown met children).filter fun child => child.1 == field).map Prod.snd := by
  rw [shown_eq_zip, List.filter_map, List.map_map]
  rfl

theorem inField_shown (g : Graph) (met : List Nat) (name : String)
    (children : List (Option String × Nat)) :
    inField name (g.shown met children) = g.results met (some name) children :=
  (results_eq_filter g met (some name) children).symm

theorem looseOf_shown (g : Graph) (met : List Nat) (children : List (Option String × Nat)) :
    looseOf (g.shown met children) = g.results met none children := by
  rw [results_eq_filter, looseOf]
  congr 1
  refine List.filter_congr fun child _ => ?_
  cases child.1 <;> rfl

theorem ne_arr_of_mem_results {met : List Nat} {field : Option String}
    {children : List (Option String × Nat)} {value : Json}
    (h : value ∈ g.results met field children) (items : List Json) : value ≠ .arr items := by
  rw [results_eq_filter] at h
  obtain ⟨child, hchild, rfl⟩ := List.mem_map.1 h
  obtain ⟨call, -, rfl⟩ := List.mem_map.1 (List.mem_of_mem_filter hchild)
  exact describe_ne_arr g call.met call.id items

/-- There are as many descriptions as children that are kept in the field. -/
theorem length_results (g : Graph) (met : List Nat) (field : Option String)
    (children : List (Option String × Nat)) :
    (g.results met field children).length =
      children.countP fun child => child.1 == field && g.keeps child := by
  have hfields : (g.shown met children).map Prod.fst = (children.filter g.keeps).map Prod.fst := by
    rw [← map_field_calls g met, shown, List.map_map]
    rfl
  calc (g.results met field children).length
      = (g.shown met children).countP (fun child => child.1 == field) := by
        rw [results_eq_filter, List.length_map, List.countP_eq_length_filter]
    _ = ((g.shown met children).map Prod.fst).countP (· == field) := by
        rw [List.countP_map]
        rfl
    _ = children.countP fun child => child.1 == field && g.keeps child := by
        rw [hfields, List.countP_map, List.countP_filter]
        rfl

/-- No child is described that stands in a field for the way back or for internal use. -/
theorem results_of_hidden {met : List Nat} {name : String}
    (h : name = "parent" ∨ name.toList.head? = some '_') (children : List (Option String × Nat)) :
    g.results met (some name) children = [] := by
  rw [← List.length_eq_zero_iff, length_results, List.countP_eq_zero]
  rintro ⟨field, id⟩ -
  simp only [Bool.and_eq_true, beq_iff_eq, not_and]
  rintro rfl hkeeps
  obtain ⟨hparent, hinternal⟩ := (keeps_iff.1 hkeeps).2 name rfl
  exact h.elim hparent hinternal

/-! ## fields of an object -/

/-- **The children in a description.**  A node with children that is described for the first time
becomes an object.  Apart from the node's own fields, each field of the object holds the
descriptions of the children that stand in it and are kept, in order: nothing if there are none, the
description itself of a single one, an array of several.  The children without a field are listed in
order under `children`, if no child takes that name. -/
theorem described_children {met : List Nat} {id : Nat} {v : Vertex} (new : id ∉ met)
    (found : g.vertices[id]? = some v) (inner : v.children ≠ []) :
    ∃ fields, (g.describe met id).1 = .obj fields ∧
      (∀ name ∉ ["type", "loc", "start", "end", "children"],
        fields.lookup name = collected (g.results (id :: met) (some name) v.children)) ∧
      (¬ g.TakesField v "children" →
        fields.lookup "children" = listed (g.results (id :: met) none v.children)) ∧
      (∀ field, (g.results (id :: met) field v.children).length =
        v.children.countP fun child => child.1 == field && g.keeps child) ∧
      ∀ name, name = "parent" ∨ name.toList.head? = some '_' →
        g.results (id :: met) (some name) v.children = [] := by
  have hdescribe := describe_of_found new found
  rw [if_neg inner] at hdescribe
  refine ⟨_, hdescribe, ?_, ?_, fun field => length_results g _ field _,
    fun name hname => results_of_hidden hname _⟩
  · intro name hname
    have hchildren : name ≠ "children" := fun e => hname (by simp [e])
    have hown : name ∉ ["type", "loc", "start", "end"] :=
      fun h => hname (List.mem_append_left ["children"] h)
    have hget := get?_assemble v (g.shown (id :: met) v.children) hchildren
    rw [lookup_attachAll, lookup_ownFields hown, inField_shown,
      foldl_attached_none fun _ => ne_arr_of_mem_results] at hget
    exact hget
  · intro hfree
    have hget := get?_assemble_children v ((inField_shown_eq_nil_iff (id :: met)).2 hfree)
    rw [looseOf_shown] at hget
    exact hget

/-- A class with a name and two decorators, one of which stands in an internal field before. The
class itself is its third decorator, and its name comes again without a field. -/
def decoratedClass : Vertex :=
  { (default : Vertex) with kind := "class_declaration", children :=
    [(some "decorator", 1), (none, 2), (some "_internal", 3), (some "name", 4),
      (some "decorator", 3), (none, 4), (some "parent", 0), (some "decorator", 0)] }

def decoratedGraph : Graph :=
  ⟨#[decoratedClass, { (default : Vertex) with kind := "decorator", text := some "@a" },
    { (default : Vertex) with kind := "comment", extra := true },
    { (default : Vertex) with kind := "decorator", text := some "@b" },
    { (default : Vertex) with kind := "identifier", text := some "A" }]⟩

theorem described_children_decoratedGraph :
    0 ∉ ([] : List Nat) ∧ decoratedGraph.vertices[0]? = some decoratedClass ∧
      decoratedClass.children ≠ [] ∧ ¬ decoratedGraph.TakesField decoratedClass "children" ∧
      ∃ fields, (decoratedGraph.describe [] 0).1 = .obj fields ∧
        (∃ first second, fields.lookup "decorator" = some (.arr [first, second, metMark]) ∧
          first.get? "text" = some (.str "@a") ∧ second.get? "text" = some (.str "@b")) ∧
        (∃ name, fields.lookup "name" = some name ∧ name.get? "text" = some (.str "A")) ∧
        fields.lookup "_internal" = none ∧ fields.lookup "parent" = none ∧
        fields.lookup "children" = some (.arr [metMark]) := by
  have hnew : 0 ∉ ([] : List Nat) := by simp
  have hinner : decoratedClass.children ≠ [] := List.cons_ne_nil _ _
  have hfree : ¬ decoratedGraph.TakesField decoratedClass "children" :=
    (inField_shown_eq_nil_iff [0]).1 rfl
  obtain ⟨fields, hobject, hfields, hchildren, -, hhidden⟩ :=
    described_children (g := decoratedGraph) hnew rfl hinner
  refine ⟨hnew, rfl, hinner, hfree, fields, hobject, ⟨_, _, hfields _ (by decide), rfl, rfl⟩,
    ⟨_, hfields _ (by decide), rfl⟩, ?_, ?_, hchildren hfree⟩
  · rw [hfields _ (by decide), hhidden _ (Or.inr rfl)]
    rfl
  · rw [hfields _ (by decide), hhidden _ (Or.inl rfl)]
    rfl

end Graph

end SourceAtlas.Syntax
