import SourceAtlas.Proofs.JsonValues
import SourceAtlas.Proofs.PlainDescription

/-!
The objects in a description.

* `Graph.calls`: the children that are described with a node, in order, each with the nodes that
  were met before its turn.
* `Graph.describe_of_found`: a description as an equation, without any bound on its depth;
  `Graph.describe_induct` is the induction that goes with it.
* `Graph.ComesTo`: the nodes that a description comes to on its way.
* `Graph.described_objects`: every object in a description belongs to a node or to its location, and
  the object of a node has the node's own fields exactly where no described child takes their names.
-/

namespace SourceAtlas.Syntax

/-! ## fields that are filled -/

/-- The descriptions of the children in a field, in order. -/
def inField (name : String) (shown : List (Option String × Json)) : List Json :=
  (shown.filter fun child => child.1 == some name).map Prod.snd

/-- A field to which one more value is added. -/
def attached : Option Json → Json → Json
  | none, value => value
  | some (.arr items), value => .arr (items ++ [value])
  | some first, value => .arr [first, value]

theorem attached_of_ne_arr {first : Json} (h : ∀ items, first ≠ .arr items) (value : Json) :
    attached (some first) value = .arr [first, value] := by
  cases first with
  | arr items => exact absurd rfl (h items)
  | _ => rfl

theorem lookup_attach (fields : List (String × Json)) (field name : String) (value : Json) :
    (attach fields field value).lookup name =
      if name = field then some (attached (fields.lookup field) value) else fields.lookup name := by
  unfold attach
  split <;> rename_i hfield <;> rw [Json.lookup_setField, hfield]
  · rfl
  · rfl
  · rename_i hnot
    split
    · unfold attached
      split <;> simp_all
    · rfl

/-- A field holds what was there before, and then the values of its children one after the other. -/
theorem lookup_attachAll (fields : List (String × Json)) (shown : List (Option String × Json))
    (name : String) :
    (attachAll fields shown).lookup name =
      (inField name shown).foldl (fun old value => some (attached old value))
        (fields.lookup name) := by
  induction shown generalizing fields with
  | nil => rfl
  | cons child shown ih =>
    obtain ⟨field, value⟩ := child
    cases field with
    | none => exact ih fields
    | some field =>
      have hstep : attachAll fields ((some field, value) :: shown) =
          attachAll (attach fields field value) shown := rfl
      rw [hstep, ih, lookup_attach]
      by_cases hname : name = field
      · subst hname
        simp [inField]
      · have hne : ¬ field = name := fun e => hname e.symm
        simp [inField, hname, hne]

theorem foldl_attached_arr (items values : List Json) :
    values.foldl (fun old value => some (attached old value)) (some (.arr items)) =
      some (.arr (items ++ values)) := by
  induction values generalizing items with
  | nil => simp
  | cons value values ih =>
    rw [List.foldl_cons]
    show values.foldl _ (some (Json.arr (items ++ [value]))) = _
    rw [ih, List.append_assoc]
    rfl

/-- Values that are added to a single one make an array with it in front. -/
theorem foldl_attached_of_ne_arr {first : Json} (hfirst : ∀ items, first ≠ .arr items)
    (values : List Json) :
    values.foldl (fun old value => some (attached old value)) (some first) =
      some (if values = [] then first else .arr (first :: values)) := by
  cases values with
  | nil => rfl
  | cons value values =>
    rw [List.foldl_cons, attached_of_ne_arr hfirst, foldl_attached_arr, if_neg (by simp)]
    rfl

/-- The loose children are listed under a name of their own. -/
theorem get?_assemble (v : Vertex) (shown : List (Option String × Json)) {name : String}
    (hname : name ≠ "children") :
    (assemble v shown).get? name = (attachAll (ownFields v) shown).lookup name := by
  rw [assemble]
  split
  · rfl
  · rw [Json.get?, Json.lookup_setField, if_neg hname]

theorem get?_leafJson (v : Vertex) {name : String} (hname : name ≠ "text") :
    (leafJson v).get? name = (ownFields v).lookup name := by
  rw [leafJson]
  cases v.text with
  | none => rfl
  | some s =>
    show (Json.setField "text" (.str s) (ownFields v)).lookup name = _
    rw [Json.lookup_setField, if_neg hname]

theorem mem_attach {fields : List (String × Json)} {field : String} {value : Json}
    {f : String × Json} (h : f ∈ attach fields field value) :
    f = (field, attached (fields.lookup field) value) ∨ f ∈ fields := by
  unfold attach at h
  split at h <;> rename_i hlookup <;> rw [hlookup]
  · exact Json.mem_setField h
  · exact Json.mem_setField h
  · rename_i first hsingle
    rw [attached_of_ne_arr hsingle]
    exact Json.mem_setField h

/-- A property of the values in the fields of a description, if the own fields have it, the array of
loose children has it, and one more value from a child does not change it. -/
theorem forall_mem_assemble {P Q : Json → Prop}
    (hattached : ∀ old value, (∀ w, old = some w → P w) → Q value → P (attached old value))
    {v : Vertex} {shown : List (Option String × Json)} (hown : ∀ f ∈ ownFields v, P f.2)
    (hshown : ∀ child ∈ shown, Q child.2) (hloose : P (.arr (looseOf shown))) :
    ∃ fields, assemble v shown = .obj fields ∧ ∀ f ∈ fields, P f.2 := by
  have hattachAll : ∀ f ∈ attachAll (ownFields v) shown, P f.2 := by
    refine List.foldlRecOn (motive := fun fields : List (String × Json) => ∀ f ∈ fields, P f.2)
      shown _ hown fun fields hfields child hchild => ?_
    obtain ⟨field, value⟩ := child
    cases field with
    | none => exact hfields
    | some field =>
      intro f hf
      rcases mem_attach hf with rfl | hf
      · refine hattached _ _ (fun w hw => ?_) (hshown _ hchild)
        exact hfields (field, w) (Entries.mem_of_lookup hw)
      · exact hfields f hf
  refine ⟨_, rfl, fun f hf => ?_⟩
  split at hf
  · exact hattachAll f hf
  · rcases Json.mem_setField hf with rfl | hf
    · exact hloose
    · exact hattachAll f hf

theorem forall_mem_looseOf {Q : Json → Prop} {shown : List (Option String × Json)}
    (hshown : ∀ child ∈ shown, Q child.2) : ∀ w ∈ looseOf shown, Q w := by
  intro w hw
  obtain ⟨child, hchild, rfl⟩ := List.mem_map.1 hw
  exact hshown child (List.mem_of_mem_filter hchild)

section Throughout

variable {P : Json → Prop}

theorem throughout_attached (harr : ∀ items, P (.arr items)) {old : Option Json} {value : Json}
    (hold : ∀ w, old = some w → w.Throughout P) (hvalue : value.Throughout P) :
    (attached old value).Throughout P := by
  unfold attached
  split
  · exact hvalue
  · have hitems := (Json.throughout_arr.1 (hold _ rfl)).2
    refine Json.throughout_arr.2 ⟨harr _, fun w hw => ?_⟩
    rcases List.mem_append.1 hw with hw | hw
    · exact hitems w hw
    · exact List.mem_singleton.1 hw ▸ hvalue
  · exact Json.throughout_arr.2 ⟨harr _, by simp [hold _ rfl, hvalue]⟩

/-- A property of the own fields and of the children's descriptions is one of the whole object, if
arrays have it. -/
theorem throughout_assemble (harr : ∀ items, P (.arr items)) {v : Vertex}
    {shown : List (Option String × Json)} (hobject : P (assemble v shown))
    (hown : ∀ field ∈ ownFields v, field.2.Throughout P)
    (hshown : ∀ child ∈ shown, child.2.Throughout P) : (assemble v shown).Throughout P := by
  have hloose : (Json.arr (looseOf shown)).Throughout P :=
    Json.throughout_arr.2 ⟨harr _, forall_mem_looseOf hshown⟩
  obtain ⟨fields, hassemble, hfields⟩ := forall_mem_assemble
    (fun _ _ hold hvalue => throughout_attached harr hold hvalue) hown hshown hloose
  rw [hassemble] at hobject ⊢
  exact Json.throughout_obj.2 ⟨hobject, hfields⟩

theorem throughout_leafJson {v : Vertex} (hobject : P (leafJson v)) (hstr : ∀ s, P (.str s))
    (hown : ∀ field ∈ ownFields v, field.2.Throughout P) : (leafJson v).Throughout P := by
  rw [leafJson] at hobject ⊢
  refine Json.throughout_obj.2 ⟨hobject, ?_⟩
  cases v.text with
  | none => exact hown
  | some s =>
    intro field hfield
    rcases Json.mem_setField hfield with rfl | hfield
    · exact hstr s
    · exact hown field hfield

end Throughout

namespace Graph

variable {g : Graph}

/-! ## descriptions as equations -/

/-- A child whose turn has come: its field, the nodes met before, and the child itself. -/
structure Call where
  field : Option String
  met : List Nat
  id : Nat

/-- The children that are described, in order. -/
def calls (g : Graph) (met : List Nat) : List (Option String × Nat) → List Call
  | [] => []
  | child :: rest =>
    if g.keeps child then ⟨child.1, met, child.2⟩ :: g.calls (g.describe met child.2).2 rest
    else g.calls met rest

/-- The fields and descriptions of the children. -/
def shown (g : Graph) (met : List Nat) (children : List (Option String × Nat)) :
    List (Option String × Json) :=
  (g.calls met children).map fun call => (call.field, (g.describe call.met call.id).1)

theorem map_field_calls (g : Graph) (met : List Nat) (children : List (Option String × Nat)) :
    (g.calls met children).map Call.field = (children.filter g.keeps).map Prod.fst := by
  induction children generalizing met with
  | nil => rfl
  | cons child rest ih =>
    rw [calls]
    split <;> rename_i hkeeps
    · rw [List.map_cons, ih, List.filter_cons_of_pos hkeeps, List.map_cons]
    · rw [ih, List.filter_cons_of_neg hkeeps]

theorem exists_describes (g : Graph) (met : List Nat) (id : Nat) :
    ∃ run, Describes g met id (g.describe met id).1 (g.describe met id).2 run :=
  describe_eq_iff.1 rfl

theorem subset_met_of_mem_calls {met : List Nat} {children : List (Option String × Nat)}
    {call : Call} (h : call ∈ g.calls met children) : met ⊆ call.met := by
  induction children generalizing met with
  | nil => cases h
  | cons child rest ih =>
    rw [calls] at h
    split at h
    · obtain ⟨run, hrun⟩ := exists_describes g met child.2
      rcases List.mem_cons.1 h with rfl | h
      · exact List.Subset.refl _
      · refine List.Subset.trans ?_ (ih h)
        rw [hrun.met_eq]
        exact List.subset_append_right _ _
    · exact ih h

/-- The draft that children fill. -/
theorem Fills.eq_addAll {d d' : Draft} {children : List (Option String × Nat)}
    {run : List Meeting} (h : Fills g d children d' run) :
    d' = Tree.addAll d (g.shown d.met children) d'.met := by
  induction children generalizing d run with
  | nil =>
    cases h with
    | nil => exact (Tree.addAll_nil d').symm
  | cons child rest ih =>
    cases h with
    | skip dropped more =>
      have hmore := ih more
      rw [shown, calls, if_neg (by simp [dropped])]
      exact hmore
    | keep kept here more =>
      have hhere := describe_eq_iff.2 ⟨_, here⟩
      have hmore := ih more
      rw [Draft.met_add] at hmore
      rw [shown, calls, if_pos kept, List.map_cons, hhere, Tree.addAll_cons]
      exact hmore

theorem describe_of_mem {met : List Nat} {id : Nat} (old : id ∈ met) :
    g.describe met id = (metMark, met) :=
  describe_eq_iff.2 ⟨_, .again old⟩

theorem describe_of_missing {met : List Nat} {id : Nat} (new : id ∉ met)
    (absent : g.vertices[id]? = none) : g.describe met id = (.null, id :: met) :=
  describe_eq_iff.2 ⟨_, .missing new absent⟩

/-- A node that is new is described by its own fields and those of its children. -/
theorem describe_of_found {met : List Nat} {id : Nat} {v : Vertex} (new : id ∉ met)
    (found : g.vertices[id]? = some v) :
    (g.describe met id).1 = if v.children = [] then leafJson v
      else assemble v (g.shown (id :: met) v.children) := by
  obtain ⟨run, hrun⟩ := exists_describes g met id
  generalize (g.describe met id).1 = value at hrun ⊢
  generalize (g.describe met id).2 = met' at hrun
  cases hrun with
  | again old => exact absurd old new
  | missing _ absent =>
    rw [absent] at found
    cases found
  | leaf _ found' childless =>
    cases found.symm.trans found'
    rw [if_pos childless]
  | node _ found' inner below =>
    cases found.symm.trans found'
    rw [if_neg inner, below.eq_addAll]
    rfl

/-- Induction over the nodes that a description comes to: a property of a node may be derived from
that of the children that are described with it. -/
theorem describe_induct {P : List Nat → Nat → Prop}
    (step : ∀ met id, (∀ v, id ∉ met → g.vertices[id]? = some v →
      ∀ call ∈ g.calls (id :: met) v.children, P call.met call.id) → P met id)
    (met : List Nat) (id : Nat) : P met id := by
  -- with every level, one node less is to be met
  induction hn : g.unmet met using Nat.strongRecOn generalizing met id with
  | ind n ih =>
    refine step met id fun v new found call hcall => ?_
    have hless := unmet_cons_lt new found
    have hanti := unmet_anti (g := g) (subset_met_of_mem_calls hcall)
    exact ih (g.unmet call.met) (by omega) call.met call.id rfl

/-! ## the nodes on the way -/

/-- The description of node `id`, when the nodes in `met` were met before, comes to node `n` when
those in `met'` were met. -/
inductive ComesTo (g : Graph) : List Nat → Nat → List Nat → Nat → Prop
  | here (met : List Nat) (id : Nat) : ComesTo g met id met id
  | child {met met' : List Nat} {id n : Nat} {v : Vertex} {call : Call} (new : id ∉ met)
      (found : g.vertices[id]? = some v) (turn : call ∈ g.calls (id :: met) v.children)
      (more : ComesTo g call.met call.id met' n) : ComesTo g met id met' n

/-- A child that is described with its parent stands in a field. -/
def TakesField (g : Graph) (v : Vertex) (name : String) : Prop :=
  ∃ child ∈ v.children, g.keeps child = true ∧ child.1 = some name

theorem inField_shown_eq_nil_iff (met : List Nat) {v : Vertex} {name : String} :
    inField name (g.shown met v.children) = [] ↔ ¬ g.TakesField v name := by
  have hmem : some name ∈ (g.calls met v.children).map Call.field ↔ g.TakesField v name := by
    rw [map_field_calls]
    simp [TakesField, and_assoc]
  rw [← hmem, inField, shown, List.map_eq_nil_iff, List.filter_eq_nil_iff]
  simp

/-- An own field of a new node is what it should be, exactly if no child takes its name. -/
theorem get?_describe_eq_iff {met : List Nat} {id : Nat} {v : Vertex} {name : String} {own : Json}
    (new : id ∉ met) (found : g.vertices[id]? = some v)
    (hown : (ownFields v).lookup name = some own) (hsingle : ∀ items, own ≠ .arr items)
    (hchildren : name ≠ "children") (htext : name ≠ "text") :
    (g.describe met id).1.get? name = some own ↔ ¬ g.TakesField v name := by
  rw [describe_of_found new found]
  by_cases hleaf : v.children = []
  · have hnone : ¬ g.TakesField v name := by
      rintro ⟨child, hchild, -⟩
      rw [hleaf] at hchild
      cases hchild
    rw [if_pos hleaf, get?_leafJson v htext, hown]
    exact iff_of_true rfl hnone
  · rw [if_neg hleaf, get?_assemble v _ hchildren, lookup_attachAll, hown,
      foldl_attached_of_ne_arr hsingle, ← inField_shown_eq_nil_iff (id :: met)]
    split
    · rename_i hnil
      exact iff_of_true rfl hnil
    · rename_i hvalues
      refine iff_of_false ?_ hvalues
      rw [Option.some.injEq]
      exact fun e => hsingle _ e.symm

/-! ## all objects -/

/-- Where a node begins and ends, by line and column. -/
def locationJson (s : Span) : Json :=
  .obj [("end", positionJson s.endLine s.endColumn),
    ("start", positionJson s.startLine s.startColumn)]

/-- An object that tells where a node stands. -/
def IsLocation (s : Span) (value : Json) : Prop :=
  value = locationJson s ∨ value = positionJson s.startLine s.startColumn ∨
    value = positionJson s.endLine s.endColumn

/-- A value that, if it is an object, belongs to a node that the description of `id` comes to: it is
the description of this node, or tells where it stands. -/
def Belongs (g : Graph) (met : List Nat) (id : Nat) (value : Json) : Prop :=
  ∀ fields, value = .obj fields → ∃ met' n v, g.ComesTo met id met' n ∧ n ∉ met' ∧
    g.vertices[n]? = some v ∧ (value = (g.describe met' n).1 ∨ IsLocation v.span value)

theorem throughout_ownFields {P : Json → Prop} (hint : ∀ n, P (.int n)) (hstr : ∀ s, P (.str s))
    {v : Vertex} (hlocation : ∀ value, IsLocation v.span value → P value) :
    ∀ field ∈ ownFields v, field.2.Throughout P := by
  have hposition : ∀ line column, P (positionJson line column) →
      (positionJson line column).Throughout P := by
    intro line column h
    have hnatural (n : Nat) : (Json.natural n).Throughout P := hint n
    refine Json.throughout_obj.2 ⟨h, ?_⟩
    simp [hnatural]
  have hloc : (locationJson v.span).Throughout P := by
    have hends := hposition _ _ (hlocation _ (Or.inr (Or.inr rfl)))
    have hstarts := hposition _ _ (hlocation _ (Or.inr (Or.inl rfl)))
    refine Json.throughout_obj.2 ⟨hlocation _ (Or.inl rfl), ?_⟩
    simp [hends, hstarts]
  intro field hfield
  simp only [ownFields, List.mem_cons, List.not_mem_nil, or_false] at hfield
  rcases hfield with rfl | rfl | rfl | rfl
  · exact hint _
  · exact hloc
  · exact hint _
  · exact hstr _

/-- Every object in a description belongs to a node on the way. -/
theorem throughout_describe (g : Graph) (met : List Nat) (id : Nat) :
    (g.describe met id).1.Throughout (g.Belongs met id) := by
  -- the claim is made for every property that the objects on the way have
  suffices h : ∀ P : Json → Prop, (∀ value, (∀ fields, value ≠ .obj fields) → P value) →
      (∀ met' n v, g.ComesTo met id met' n → n ∉ met' → g.vertices[n]? = some v →
        P (g.describe met' n).1 ∧ ∀ value, IsLocation v.span value → P value) →
      (g.describe met id).1.Throughout P by
    refine h _ (fun value hvalue fields hfields => absurd hfields (hvalue fields)) ?_
    intro met' n v hcomes hnew hfound
    exact ⟨fun _ _ => ⟨met', n, v, hcomes, hnew, hfound, Or.inl rfl⟩,
      fun value hvalue _ _ => ⟨met', n, v, hcomes, hnew, hfound, Or.inr hvalue⟩⟩
  intro P hother
  induction met, id using describe_induct (g := g) with
  | step met id ih =>
    intro hway
    by_cases old : id ∈ met
    · rw [describe_of_mem old]
      exact hother metMark (by simp [metMark])
    · cases found : g.vertices[id]? with
      | none =>
        rw [describe_of_missing old found]
        exact hother .null (by simp)
      | some v =>
        obtain ⟨hobject, hlocation⟩ := hway met id v (.here met id) old found
        have hown := throughout_ownFields (fun n => hother (.int n) (by simp))
          (fun s => hother (.str s) (by simp)) hlocation
        rw [describe_of_found old found] at hobject ⊢
        by_cases hleaf : v.children = []
        · rw [if_pos hleaf] at hobject ⊢
          exact throughout_leafJson hobject (fun s => hother (.str s) (by simp)) hown
        · rw [if_neg hleaf] at hobject ⊢
          refine throughout_assemble (fun items => hother (.arr items) (by simp)) hobject hown ?_
          intro child hchild
          obtain ⟨call, hcall, rfl⟩ := List.mem_map.1 hchild
          refine ih v old found call hcall fun met' n w hcomes => ?_
          exact hway met' n w (.child old found hcall hcomes)

/-- **The objects in a description.**  Every object in the description of a node is the description
of a node that it comes to on its way, or tells where that one stands.  The object of such a node
has the node's kind as its `type`, its lines and columns as its `loc` and its byte offsets as its
`start` and `end`: each of them exactly if no child that is described with the node stands in the
field of that name. -/
theorem described_objects (g : Graph) (met : List Nat) (id : Nat) :
    (g.describe met id).1.Throughout (g.Belongs met id) ∧
      ∀ met' n v, g.ComesTo met id met' n → n ∉ met' → g.vertices[n]? = some v →
        ((g.describe met' n).1.get? "type" = some (.str v.kind) ↔ ¬ g.TakesField v "type") ∧
        ((g.describe met' n).1.get? "loc" = some (locationJson v.span) ↔
          ¬ g.TakesField v "loc") ∧
        ((g.describe met' n).1.get? "start" = some (.natural v.span.startByte) ↔
          ¬ g.TakesField v "start") ∧
        ((g.describe met' n).1.get? "end" = some (.natural v.span.endByte) ↔
          ¬ g.TakesField v "end") := by
  refine ⟨throughout_describe g met id, fun met' n v _ new found => ⟨?_, ?_, ?_, ?_⟩⟩
  · exact get?_describe_eq_iff new found rfl (by simp) (by decide) (by decide)
  · exact get?_describe_eq_iff new found rfl (by simp [locationJson]) (by decide) (by decide)
  · exact get?_describe_eq_iff new found rfl (by simp [Json.natural]) (by decide) (by decide)
  · exact get?_describe_eq_iff new found rfl (by simp [Json.natural]) (by decide) (by decide)

/-- A parameter with a type annotation. -/
def typedParameter : Graph :=
  ⟨#[{ (default : Vertex) with kind := "required_parameter", children := [(some "type", 1)] },
    { (default : Vertex) with kind := "type_annotation", text := some ": number" }]⟩

/-- The kind of a parameter is no longer the `type` of its object, once the annotation stands in the
field of that name. -/
theorem type_typedParameter_ne_kind :
    (typedParameter.vertices[0]?.map Vertex.kind = some "required_parameter") ∧
      (typedParameter.describe [] 0).1.get? "type" ≠ some (.str "required_parameter") := by
  refine ⟨rfl, fun h => ?_⟩
  have hnew : 0 ∉ ([] : List Nat) := by simp
  have hnone := (get?_describe_eq_iff hnew rfl rfl (by simp) (by decide) (by decide)).1 h
  exact hnone ⟨(some "type", 1), List.mem_cons_self, rfl, rfl⟩

end Graph

end SourceAtlas.Syntax
