import Mathlib.Data.Finset.Card
import Mathlib.Data.Finset.Range
import SourceAtlas.Syntax.Graph

/-!
The order in which the nodes of a graph are described.

* `Graph.Describes`, `Graph.Fills`: the descriptions of a node and of its children as runs without
  any bound on their depth, with a record of the nodes met on the way.
* `Graph.describe_eq_iff`: every such run ends, in exactly one way, and `Graph.describe` finds it.
* `Graph.FreshPath`: paths along described children that avoid the nodes met before.
* `Graph.describeAll_meets_exactly`: describing several nodes meets exactly what such paths lead to,
  and describes nothing twice.
-/

namespace SourceAtlas.Syntax

/-- What happens when the description of a graph comes to a node. -/
inductive Meeting where
  /-- The node is new and is described. -/
  | first (id : Nat)
  /-- The node was met before and is only marked. -/
  | again (id : Nat)
deriving DecidableEq, Repr

/-- The node that is described in a meeting. -/
def Meeting.described? : Meeting → Option Nat
  | first id => some id
  | again _ => none

/-- The nodes described in a run, in order. -/
def described (run : List Meeting) : List Nat := run.filterMap Meeting.described?

@[simp]
theorem described_nil : described [] = [] := rfl

@[simp]
theorem described_first (id : Nat) (run : List Meeting) :
    described (.first id :: run) = id :: described run := rfl

@[simp]
theorem described_again (id : Nat) (run : List Meeting) :
    described (.again id :: run) = described run := rfl

@[simp]
theorem described_append (run more : List Meeting) :
    described (run ++ more) = described run ++ described more :=
  List.filterMap_append

/-- A draft with the description of one more child. -/
def Draft.add (d : Draft) (field : Option String) (value : Json) (met : List Nat) : Draft :=
  match field with
  | some field => { d with fields := attach d.fields field value, met }
  | none => { d with loose := d.loose ++ [value], met }

@[simp]
theorem Draft.met_add (d : Draft) (field : Option String) (value : Json) (met : List Nat) :
    (d.add field value met).met = met := by
  cases field <;> rfl

/-- The description of a node without children. -/
def leafJson (v : Vertex) : Json :=
  .obj ((v.text.map fun s => Json.setField "text" (.str s) (ownFields v)).getD (ownFields v))

namespace Graph

variable {g : Graph}

theorem addChild_of_keeps {child : Option String × Nat} (h : g.keeps child = true)
    (visit : List Nat → Nat → Json × List Nat) (d : Draft) :
    g.addChild visit d child = d.add child.1 (visit d.met child.2).1 (visit d.met child.2).2 := by
  obtain ⟨field, id⟩ := child
  cases field <;> simp [addChild, h, Draft.add]

theorem addChild_of_not_keeps {child : Option String × Nat} (h : g.keeps child = false)
    (visit : List Nat → Nat → Json × List Nat) (d : Draft) : g.addChild visit d child = d := by
  simp [addChild, h]

/-! ## runs -/

mutual

/-- The description of node `id`, when the nodes in `met` were met before, is `value`; then the
nodes in `met'` are met, and `run` tells the meetings in order. -/
inductive Describes (g : Graph) : List Nat → Nat → Json → List Nat → List Meeting → Prop
  | again {met : List Nat} {id : Nat} (old : id ∈ met) :
      Describes g met id metMark met [.again id]
  | missing {met : List Nat} {id : Nat} (new : id ∉ met) (absent : g.vertices[id]? = none) :
      Describes g met id .null (id :: met) [.first id]
  | leaf {met : List Nat} {id : Nat} {v : Vertex} (new : id ∉ met)
      (found : g.vertices[id]? = some v) (childless : v.children = []) :
      Describes g met id (leafJson v) (id :: met) [.first id]
  | node {met : List Nat} {id : Nat} {v : Vertex} {d : Draft} {run : List Meeting} (new : id ∉ met)
      (found : g.vertices[id]? = some v) (inner : v.children ≠ [])
      (below : Fills g ⟨ownFields v, [], id :: met⟩ v.children d run) :
      Describes g met id (finish d) d.met (.first id :: run)

/-- The descriptions of children, one after the other, turn the first draft into the second. -/
inductive Fills (g : Graph) :
    Draft → List (Option String × Nat) → Draft → List Meeting → Prop
  | nil (d : Draft) : Fills g d [] d []
  | skip {d d' : Draft} {child : Option String × Nat} {rest : List (Option String × Nat)}
      {run : List Meeting} (dropped : g.keeps child = false) (more : Fills g d rest d' run) :
      Fills g d (child :: rest) d' run
  | keep {d d' : Draft} {child : Option String × Nat} {rest : List (Option String × Nat)}
      {value : Json} {met : List Nat} {run runs : List Meeting} (kept : g.keeps child = true)
      (here : Describes g d.met child.2 value met run)
      (more : Fills g (d.add child.1 value met) rest d' runs) :
      Fills g d (child :: rest) d' (run ++ runs)

end

/-- The descriptions of several nodes, one after the other. -/
inductive DescribesEach (g : Graph) :
    List Nat → List Nat → List Json → List Nat → List Meeting → Prop
  | nil (met : List Nat) : DescribesEach g met [] [] met []
  | cons {met met₁ met₂ ids : List Nat} {id : Nat} {value : Json} {values : List Json}
      {run runs : List Meeting} (here : Describes g met id value met₁ run)
      (more : DescribesEach g met₁ ids values met₂ runs) :
      DescribesEach g met (id :: ids) (value :: values) met₂ (run ++ runs)

/-! ## the nodes met -/

mutual

/-- The nodes met afterwards are those met before and those described. -/
theorem Describes.met_eq {met met' : List Nat} {id : Nat} {value : Json} {run : List Meeting} :
    Describes g met id value met' run → met' = (described run).reverse ++ met
  | .again _ => by simp
  | .missing _ _ => by simp
  | .leaf _ _ _ => by simp
  | .node _ _ _ below => by
    have hbelow := below.met_eq
    rw [hbelow]
    simp

theorem Fills.met_eq {d d' : Draft} {children : List (Option String × Nat)} {run : List Meeting} :
    Fills g d children d' run → d'.met = (described run).reverse ++ d.met
  | .nil _ => by simp
  | .skip _ more => more.met_eq
  | .keep _ here more => by
    have hhere := here.met_eq
    have hmore := more.met_eq
    rw [hmore, Draft.met_add, hhere]
    simp

end

/-- In a run, only nodes that are not in `met` are described, and each of them once. -/
def DescribesOnce (met : List Nat) (run : List Meeting) : Prop :=
  (described run).Nodup ∧ ∀ x ∈ described run, x ∉ met

theorem DescribesOnce.append {met : List Nat} {run runs : List Meeting}
    (h : DescribesOnce met run) (hs : DescribesOnce ((described run).reverse ++ met) runs) :
    DescribesOnce met (run ++ runs) := by
  obtain ⟨hnodup₁, hfresh₁⟩ := h
  obtain ⟨hnodup₂, hfresh₂⟩ := hs
  rw [DescribesOnce, described_append]
  refine ⟨List.nodup_append.2 ⟨hnodup₁, hnodup₂, ?_⟩, fun x hx => ?_⟩
  · rintro x hx y hy rfl
    exact hfresh₂ x hy (by simp [hx])
  · rcases List.mem_append.1 hx with hx | hx
    · exact hfresh₁ x hx
    · exact fun hmet => hfresh₂ x hx (by simp [hmet])

mutual

theorem Describes.describesOnce {met met' : List Nat} {id : Nat} {value : Json}
    {run : List Meeting} : Describes g met id value met' run → DescribesOnce met run
  | .again _ => by simp [DescribesOnce]
  | .missing new _ => by simpa [DescribesOnce] using new
  | .leaf new _ _ => by simpa [DescribesOnce] using new
  | .node new _ _ below => by
    obtain ⟨hnodup, hfresh⟩ := below.describesOnce
    simp only [DescribesOnce, described_first, List.nodup_cons, List.mem_cons, forall_eq_or_imp]
    refine ⟨⟨fun hid => hfresh id hid List.mem_cons_self, hnodup⟩, new, fun x hx hmet => ?_⟩
    exact hfresh x hx (List.mem_cons_of_mem _ hmet)

theorem Fills.describesOnce {d d' : Draft} {children : List (Option String × Nat)}
    {run : List Meeting} : Fills g d children d' run → DescribesOnce d.met run
  | .nil _ => by simp [DescribesOnce]
  | .skip _ more => more.describesOnce
  | .keep _ here more => by
    have hmore := more.describesOnce
    rw [Draft.met_add, here.met_eq] at hmore
    exact here.describesOnce.append hmore

end

/-! ## runs end, and in one way -/

mutual

theorem Describes.unique {met met₁ met₂ : List Nat} {id : Nat} {value₁ value₂ : Json}
    {run₁ run₂ : List Meeting} : Describes g met id value₁ met₁ run₁ →
    Describes g met id value₂ met₂ run₂ → value₁ = value₂ ∧ met₁ = met₂ ∧ run₁ = run₂
  | .again old, h => by
    cases h with
    | again _ => exact ⟨rfl, rfl, rfl⟩
    | missing new _ | leaf new _ _ | node new _ _ _ => exact absurd old new
  | .missing new absent, h => by
    cases h with
    | again old => exact absurd old new
    | missing _ _ => exact ⟨rfl, rfl, rfl⟩
    | leaf _ found _ | node _ found _ _ =>
      rw [absent] at found
      cases found
  | .leaf new found childless, h => by
    cases h with
    | again old => exact absurd old new
    | missing _ absent =>
      rw [absent] at found
      cases found
    | leaf _ found' _ =>
      cases found.symm.trans found'
      exact ⟨rfl, rfl, rfl⟩
    | node _ found' inner _ =>
      cases found.symm.trans found'
      exact absurd childless inner
  | .node new found inner below, h => by
    cases h with
    | again old => exact absurd old new
    | missing _ absent =>
      rw [absent] at found
      cases found
    | leaf _ found' childless =>
      cases found.symm.trans found'
      exact absurd childless inner
    | node _ found' _ below' =>
      cases found.symm.trans found'
      obtain ⟨rfl, rfl⟩ := below.unique below'
      exact ⟨rfl, rfl, rfl⟩

theorem Fills.unique {d d₁ d₂ : Draft} {children : List (Option String × Nat)}
    {run₁ run₂ : List Meeting} : Fills g d children d₁ run₁ → Fills g d children d₂ run₂ →
    d₁ = d₂ ∧ run₁ = run₂
  | .nil _, h => by
    cases h
    exact ⟨rfl, rfl⟩
  | .skip dropped more, h => by
    cases h with
    | skip _ more' => exact more.unique more'
    | keep kept _ _ =>
      rw [dropped] at kept
      cases kept
  | .keep kept here more, h => by
    cases h with
    | skip dropped _ =>
      rw [dropped] at kept
      cases kept
    | keep _ here' more' =>
      obtain ⟨rfl, rfl, rfl⟩ := here.unique here'
      obtain ⟨rfl, rfl⟩ := more.unique more'
      exact ⟨rfl, rfl⟩

end

/-- The number of nodes that are still to be met. -/
def unmet (g : Graph) (met : List Nat) : Nat :=
  ((Finset.range g.vertices.size).filter fun id => id ∉ met).card

theorem unmet_le (g : Graph) (met : List Nat) : g.unmet met ≤ g.vertices.size := by
  have hle := Finset.card_filter_le (Finset.range g.vertices.size) fun id => id ∉ met
  rwa [Finset.card_range] at hle

theorem unmet_anti {met met' : List Nat} (h : met ⊆ met') : g.unmet met' ≤ g.unmet met := by
  refine Finset.card_le_card fun id hid => ?_
  obtain ⟨hrange, hnew⟩ := Finset.mem_filter.1 hid
  exact Finset.mem_filter.2 ⟨hrange, fun hmem => hnew (h hmem)⟩

/-- With each node that is met for the first time, one less is to be met. -/
theorem unmet_cons_lt {met : List Nat} {id : Nat} {v : Vertex} (new : id ∉ met)
    (found : g.vertices[id]? = some v) : g.unmet (id :: met) < g.unmet met := by
  obtain ⟨hid, -⟩ := Array.getElem?_eq_some_iff.1 found
  refine Finset.card_lt_card (Finset.ssubset_iff_of_subset ?_ |>.2 ⟨id, ?_, ?_⟩)
  · intro x hx
    obtain ⟨hrange, hnew⟩ := Finset.mem_filter.1 hx
    exact Finset.mem_filter.2 ⟨hrange, fun hmem => hnew (List.mem_cons_of_mem _ hmem)⟩
  · exact Finset.mem_filter.2 ⟨Finset.mem_range.2 hid, new⟩
  · intro hmem
    exact (Finset.mem_filter.1 hmem).2 List.mem_cons_self

/-- Children are described one after the other, if `visit` describes nodes whenever those in `base`
were met. -/
theorem fills_foldl {visit : List Nat → Nat → Json × List Nat} {base : List Nat}
    (hvisit : ∀ met id, base ⊆ met →
      ∃ run, Describes g met id (visit met id).1 (visit met id).2 run)
    (children : List (Option String × Nat)) {d : Draft} (hd : base ⊆ d.met) :
    ∃ run, Fills g d children (children.foldl (g.addChild visit) d) run := by
  induction children generalizing d with
  | nil => exact ⟨[], .nil d⟩
  | cons child rest ih =>
    rw [List.foldl_cons]
    cases hkeeps : g.keeps child with
    | false =>
      rw [addChild_of_not_keeps hkeeps]
      obtain ⟨run, hrun⟩ := ih hd
      exact ⟨run, .skip hkeeps hrun⟩
    | true =>
      rw [addChild_of_keeps hkeeps]
      obtain ⟨run, hrun⟩ := hvisit d.met child.2 hd
      have hgrows : base ⊆ (visit d.met child.2).2 := by
        intro x hx
        rw [hrun.met_eq]
        exact List.mem_append_right _ (hd hx)
      obtain ⟨runs, hruns⟩ := ih (d := d.add child.1 _ _) (by simpa using hgrows)
      exact ⟨run ++ runs, .keep hkeeps hrun hruns⟩

/-- A bound on the depth that exceeds the number of nodes to be met is never reached. -/
theorem describes_describeWithin {fuel : Nat} {met : List Nat} (h : g.unmet met < fuel) (id : Nat) :
    ∃ run, Describes g met id (g.describeWithin fuel met id).1 (g.describeWithin fuel met id).2
      run := by
  induction fuel generalizing met id with
  | zero => exact absurd h (Nat.not_lt_zero _)
  | succ fuel ih =>
    rw [describeWithin]
    by_cases hmet : id ∈ met
    · simp only [List.contains_eq_mem, hmet, decide_true, if_true]
      exact ⟨_, .again hmet⟩
    · simp only [List.contains_eq_mem, hmet, decide_false, Bool.false_eq_true, if_false]
      cases hfound : g.vertices[id]? with
      | none => exact ⟨_, .missing hmet hfound⟩
      | some v =>
        by_cases hchildren : v.children = []
        · simp only [hchildren, List.isEmpty_nil, if_true]
          exact ⟨_, .leaf hmet hfound hchildren⟩
        · have hless := unmet_cons_lt hmet hfound
          have hvisit : ∀ met' id', id :: met ⊆ met' → ∃ run, Describes g met' id'
              (g.describeWithin fuel met' id').1 (g.describeWithin fuel met' id').2 run := by
            intro met' id' hsub
            have := unmet_anti (g := g) hsub
            exact ih (by omega) id'
          obtain ⟨run, hrun⟩ := fills_foldl hvisit v.children
            (d := ⟨ownFields v, [], id :: met⟩) (List.Subset.refl _)
          simp only [List.isEmpty_iff, hchildren, if_false]
          exact ⟨_, .node hmet hfound hchildren hrun⟩

/-- The description of a node ends after a run without any bound on its depth, and no other run is
possible. -/
theorem describe_eq_iff {met met' : List Nat} {id : Nat} {value : Json} :
    g.describe met id = (value, met') ↔ ∃ run, Describes g met id value met' run := by
  have hfuel : g.unmet met < g.vertices.size + 1 := Nat.lt_succ_of_le (unmet_le g met)
  obtain ⟨run, hrun⟩ := describes_describeWithin hfuel id
  constructor
  · intro h
    rw [describe] at h
    rw [h] at hrun
    exact ⟨run, hrun⟩
  · rintro ⟨run', hrun'⟩
    obtain ⟨rfl, rfl, -⟩ := hrun'.unique hrun
    rfl

/-! ## fresh paths -/

/-- A child that is described below its parent: it is no extra node, and it stands in no field, or
in one that is neither `parent` nor begins with an underscore. -/
def Edge (g : Graph) (a b : Nat) : Prop :=
  ∃ v field, g.vertices[a]? = some v ∧ (field, b) ∈ v.children ∧
    (∀ w, g.vertices[b]? = some w → w.extra = false) ∧
    ∀ name, field = some name → name ≠ "parent" ∧ name.toList.head? ≠ some '_'

theorem keeps_iff {field : Option String} {id : Nat} :
    g.keeps (field, id) = true ↔ (∀ w, g.vertices[id]? = some w → w.extra = false) ∧
      ∀ name, field = some name → name ≠ "parent" ∧ name.toList.head? ≠ some '_' := by
  cases hfound : g.vertices[id]? <;> cases field <;> simp [keeps, isShownField, hfound]

/-- A node is one of the children that are kept. -/
def Kept (g : Graph) (children : List (Option String × Nat)) (id : Nat) : Prop :=
  ∃ child ∈ children, g.keeps child = true ∧ child.2 = id

theorem kept_cons {child : Option String × Nat} {rest : List (Option String × Nat)} {id : Nat} :
    g.Kept (child :: rest) id ↔ (g.keeps child = true ∧ child.2 = id) ∨ g.Kept rest id := by
  simp only [Kept, List.mem_cons, exists_eq_or_imp]

theorem edge_iff {a b : Nat} {v : Vertex} (found : g.vertices[a]? = some v) :
    g.Edge a b ↔ g.Kept v.children b := by
  constructor
  · rintro ⟨w, field, hw, hmem, hkeeps⟩
    cases found.symm.trans hw
    exact ⟨(field, b), hmem, keeps_iff.2 hkeeps, rfl⟩
  · rintro ⟨⟨field, c⟩, hmem, hkeeps, rfl⟩
    exact ⟨v, field, found, hmem, keeps_iff.1 hkeeps⟩

/-- A path from one node to another along described children, none of whose nodes is in `met`. -/
inductive FreshPath (g : Graph) (met : List Nat) : Nat → Nat → Prop
  | refl {a : Nat} (new : a ∉ met) : FreshPath g met a a
  | step {a b c : Nat} (new : a ∉ met) (edge : g.Edge a b) (path : FreshPath g met b c) :
      FreshPath g met a c

namespace FreshPath

variable {met met' : List Nat} {a b c : Nat}

theorem anti (h : met ⊆ met') (path : FreshPath g met' a b) : FreshPath g met a b := by
  induction path with
  | refl new => exact .refl fun hmem => new (h hmem)
  | step new edge _ ih => exact .step (fun hmem => new (h hmem)) edge ih

theorem trans (path : FreshPath g met a b) (more : FreshPath g met b c) : FreshPath g met a c := by
  induction path with
  | refl _ => exact more
  | step new edge _ ih => exact .step new edge (ih more)

theorem start_fresh (path : FreshPath g met a b) : a ∉ met := by
  cases path with
  | refl new => exact new
  | step new _ _ => exact new

/-- A path either avoids a node, or goes on from its last visit there along one of its children. -/
theorem avoid (path : FreshPath g met a c) (id : Nat) :
    FreshPath g (id :: met) a c ∨ c = id ∨ ∃ b, g.Edge id b ∧ FreshPath g (id :: met) b c := by
  induction path with
  | @refl a new =>
    by_cases ha : a = id
    · exact Or.inr (Or.inl ha)
    · exact Or.inl (.refl (by simp [ha, new]))
  | @step a b c new edge _ ih =>
    rcases ih with hpath | hrest
    · by_cases ha : a = id
      · subst ha
        exact Or.inr (Or.inr ⟨b, edge, hpath⟩)
      · exact Or.inl (.step (by simp [ha, new]) edge hpath)
    · exact Or.inr hrest

/-- Once everything on fresh paths from a node is met, a further path leads to something met, or
meets none of it. -/
theorem avoid_met {start : Nat} (hmet' : ∀ x, x ∈ met' ↔ x ∈ met ∨ FreshPath g met start x)
    (path : FreshPath g met a c) : c ∈ met' ∨ FreshPath g met' a c := by
  induction path with
  | @refl a new =>
    by_cases ha : a ∈ met'
    · exact Or.inl ha
    · exact Or.inr (.refl ha)
  | @step a b c new edge rest ih =>
    by_cases ha : a ∈ met'
    · rcases (hmet' a).1 ha with hold | hpath
      · exact absurd hold new
      · exact Or.inl ((hmet' c).2 (Or.inr (hpath.trans (.step new edge rest))))
    · rcases ih with hc | hpath
      · exact Or.inl hc
      · exact Or.inr (.step ha edge hpath)

end FreshPath

/-- What is met after the run of a node and a further run, if each of them meets what fresh paths
lead to. -/
theorem mem_met_trans {met met₁ met₂ : List Nat} {id : Nat} {starts : Nat → Prop}
    (h₁ : ∀ x, x ∈ met₁ ↔ x ∈ met ∨ FreshPath g met id x)
    (h₂ : ∀ x, x ∈ met₂ ↔ x ∈ met₁ ∨ ∃ s, starts s ∧ FreshPath g met₁ s x) (x : Nat) :
    x ∈ met₂ ↔ x ∈ met ∨ ∃ s, (id = s ∨ starts s) ∧ FreshPath g met s x := by
  have hsub : met ⊆ met₁ := fun y hy => (h₁ y).2 (Or.inl hy)
  constructor
  · intro hx
    rcases (h₂ x).1 hx with hx | ⟨s, hs, hpath⟩
    · rcases (h₁ x).1 hx with hx | hpath
      · exact Or.inl hx
      · exact Or.inr ⟨id, Or.inl rfl, hpath⟩
    · exact Or.inr ⟨s, Or.inr hs, hpath.anti hsub⟩
  · rintro (hx | ⟨s, rfl | hs, hpath⟩)
    · exact (h₂ x).2 (Or.inl (hsub hx))
    · exact (h₂ x).2 (Or.inl ((h₁ x).2 (Or.inr hpath)))
    · rcases hpath.avoid_met h₁ with hx | hpath
      · exact (h₂ x).2 (Or.inl hx)
      · exact (h₂ x).2 (Or.inr ⟨s, hs, hpath⟩)

/-- A node leads to itself and to what its described children lead to without it. -/
theorem freshPath_iff {met : List Nat} {id x : Nat} (new : id ∉ met) :
    FreshPath g met id x ↔ x = id ∨ ∃ b, g.Edge id b ∧ FreshPath g (id :: met) b x := by
  constructor
  · intro path
    rcases path.avoid id with hpath | hrest
    · exact absurd List.mem_cons_self hpath.start_fresh
    · exact hrest
  · rintro (rfl | ⟨b, hedge, hpath⟩)
    · exact .refl new
    · exact .step new hedge (hpath.anti fun y hy => List.mem_cons_of_mem _ hy)

/-- A node that leads nowhere is the only one that is met with it. -/
theorem mem_cons_iff_of_no_edge {met : List Nat} {id : Nat} (new : id ∉ met)
    (h : ∀ b, ¬ g.Edge id b) (x : Nat) : x ∈ id :: met ↔ x ∈ met ∨ FreshPath g met id x := by
  have hnone : ¬ ∃ b, g.Edge id b ∧ FreshPath g (id :: met) b x := by
    rintro ⟨b, hedge, -⟩
    exact h b hedge
  rw [freshPath_iff new]
  simp only [hnone, or_false, List.mem_cons]
  exact or_comm

mutual

/-- **Depth-first search.**  The description of a node meets exactly what fresh paths from it lead
to. -/
theorem Describes.mem_met_iff {met met' : List Nat} {id : Nat} {value : Json} {run : List Meeting} :
    Describes g met id value met' run → ∀ x, x ∈ met' ↔ x ∈ met ∨ FreshPath g met id x
  | .again old, x => by
    have hnone : ¬ FreshPath g met id x := fun path => path.start_fresh old
    simp [hnone]
  | .missing new absent, x => by
    refine mem_cons_iff_of_no_edge new ?_ x
    rintro b ⟨v, -, found, -⟩
    rw [absent] at found
    cases found
  | .leaf new found childless, x => by
    refine mem_cons_iff_of_no_edge new ?_ x
    intro b hedge
    obtain ⟨child, hchild, -⟩ := (edge_iff found).1 hedge
    rw [childless] at hchild
    cases hchild
  | .node new found inner below, x => by
    have hbelow := below.mem_met_iff x
    simp only [← edge_iff found] at hbelow
    rw [hbelow, freshPath_iff new, List.mem_cons]
    tauto

/-- The descriptions of children meet what fresh paths from those that are kept lead to. -/
theorem Fills.mem_met_iff {d d' : Draft} {children : List (Option String × Nat)}
    {run : List Meeting} : Fills g d children d' run →
    ∀ x, x ∈ d'.met ↔ x ∈ d.met ∨ ∃ b, g.Kept children b ∧ FreshPath g d.met b x
  | .nil _, x => by simp [Kept]
  | .skip dropped more, x => by
    have hmore := more.mem_met_iff x
    simpa [kept_cons, dropped] using hmore
  | .keep kept here more, x => by
    have hmore := more.mem_met_iff
    rw [Draft.met_add] at hmore
    rw [mem_met_trans here.mem_met_iff hmore x]
    simp [kept_cons, kept]

end

/-! ## several nodes -/

theorem describeAll_cons (met ids : List Nat) (id : Nat) :
    g.describeAll met (id :: ids) =
      ((g.describe met id).1 :: (g.describeAll (g.describe met id).2 ids).1,
        (g.describeAll (g.describe met id).2 ids).2) := rfl

theorem describeAll_eq_of_describesEach {met met' ids : List Nat} {values : List Json}
    {run : List Meeting} (h : DescribesEach g met ids values met' run) :
    g.describeAll met ids = (values, met') := by
  induction h with
  | nil met => rfl
  | cons here more ih => rw [describeAll_cons, describe_eq_iff.2 ⟨_, here⟩, ih]

theorem exists_describesEach (g : Graph) (met ids : List Nat) :
    ∃ run, DescribesEach g met ids (g.describeAll met ids).1 (g.describeAll met ids).2 run := by
  induction ids generalizing met with
  | nil => exact ⟨[], .nil met⟩
  | cons id ids ih =>
    obtain ⟨run, hrun⟩ := describe_eq_iff.1 (rfl : g.describe met id = _)
    obtain ⟨runs, hruns⟩ := ih (g.describe met id).2
    exact ⟨run ++ runs, .cons hrun hruns⟩

namespace DescribesEach

variable {met met' ids : List Nat} {values : List Json} {run run' : List Meeting}

theorem run_unique (h : DescribesEach g met ids values met' run)
    (h' : DescribesEach g met ids values met' run') : run = run' := by
  induction h generalizing run' with
  | nil met =>
    cases h'
    rfl
  | cons here more ih =>
    cases h' with
    | cons here' more' =>
      obtain ⟨-, rfl, rfl⟩ := here.unique here'
      rw [ih more']

theorem describesOnce (h : DescribesEach g met ids values met' run) : DescribesOnce met run := by
  induction h with
  | nil met => simp [DescribesOnce]
  | cons here more ih =>
    rw [here.met_eq] at ih
    exact here.describesOnce.append ih

theorem mem_met_iff (h : DescribesEach g met ids values met' run) (x : Nat) :
    x ∈ met' ↔ x ∈ met ∨ ∃ id ∈ ids, FreshPath g met id x := by
  induction h generalizing x with
  | nil met => simp
  | cons here more ih =>
    rw [mem_met_trans here.mem_met_iff ih x]
    simp [eq_comm]

end DescribesEach

/-! ## marks -/

theorem Describes.value_eq_metMark_iff {met met' : List Nat} {id : Nat} {value : Json}
    {run : List Meeting} (h : Describes g met id value met' run) : value = metMark ↔ id ∈ met := by
  cases h with
  | again old => simp [old]
  | missing new _ => simp [metMark, new]
  | leaf new _ _ => simp [metMark, leafJson, new]
  | node new _ _ _ => simp [metMark, finish, new]

theorem describe_fst_eq_metMark_iff {met : List Nat} {id : Nat} :
    (g.describe met id).1 = metMark ↔ id ∈ met := by
  obtain ⟨run, hrun⟩ := describe_eq_iff.1 (rfl : g.describe met id = _)
  exact hrun.value_eq_metMark_iff

/-- Each node is described with what its predecessors have met. -/
theorem getElem?_describeAll (met ids : List Nat) (i : Nat) :
    (g.describeAll met ids).1[i]? =
      ids[i]?.map fun id => (g.describe (g.describeAll met (ids.take i)).2 id).1 := by
  induction ids generalizing met i with
  | nil => simp [describeAll]
  | cons id ids ih =>
    cases i with
    | zero => simp [describeAll]
    | succ i =>
      rw [describeAll_cons]
      simp [ih, describeAll_cons]

/-- **Describing several nodes is a depth-first search.**  The descriptions of `roots`, one after
the other and without any bound on their depth, end in exactly one way, which `describeAll` finds.
The nodes met in the end are those met before and those that fresh paths from a root lead to.  A
root is only marked exactly if it was met when its turn came.  No node is described twice. -/
theorem describeAll_meets_exactly (g : Graph) (met roots : List Nat) :
    ∃ run,
      (∀ values met' run', DescribesEach g met roots values met' run' ↔
        (values, met') = g.describeAll met roots ∧ run' = run) ∧
      (∀ id, id ∈ (g.describeAll met roots).2 ↔
        id ∈ met ∨ ∃ root ∈ roots, FreshPath g met root id) ∧
      (∀ i root, roots[i]? = some root →
        ((g.describeAll met roots).1[i]? = some metMark ↔
          root ∈ (g.describeAll met (roots.take i)).2)) ∧
      (described run).Nodup := by
  obtain ⟨run, hrun⟩ := exists_describesEach g met roots
  refine ⟨run, fun values met' run' => ⟨fun h => ?_, ?_⟩, hrun.mem_met_iff, ?_,
    hrun.describesOnce.1⟩
  · have hall := describeAll_eq_of_describesEach h
    refine ⟨hall.symm, ?_⟩
    rw [hall] at hrun
    exact h.run_unique hrun
  · rintro ⟨hall, rfl⟩
    rw [← hall] at hrun
    exact hrun
  · intro i root hroot
    rw [getElem?_describeAll, hroot, Option.map_some, Option.some.injEq]
    exact describe_fst_eq_metMark_iff

end Graph

end SourceAtlas.Syntax
