import SourceAtlas.Syntax.Statement

/-!
The depth of a syntax tree and the walk that measures it.

* `Tree.depth`: the number of levels, by recursion over the tree.
* `Cursor.level_of_leave?`: the count that a walk keeps is the level of the node it has come to.
* `Cursor.deepestFrom_eq`: what the walk finds from any node on.
* `Tree.lt_depthWithin_iff`: the walk goes beyond the limit for exactly the trees that are deeper.
* `depthWithin_measures_depth`: the depth it finds, and the trees that are refused for it.
-/

namespace SourceAtlas.Syntax

namespace Tree

mutual

/-- The number of levels of a tree; the root alone is one level. -/
def depth : Tree → Nat
  | node _ children => depthAll children + 1

/-- The number of levels of the deepest of several trees. -/
def depthAll : List Tree → Nat
  | [] => 0
  | t :: ts => max (depth t) (depthAll ts)

end

theorem depth_pos (t : Tree) : 0 < t.depth := by
  cases t
  simp [depth]

/-- The deepest level below the nodes still to be visited, each with its own level. -/
def deepestLevel : List (Nat × Tree) → Nat
  | [] => 0
  | (level, t) :: rest => max (level + depthAll t.children) (deepestLevel rest)

theorem deepestLevel_children (level : Nat) (t : Tree) (ts : List Tree)
    (rest : List (Nat × Tree)) :
    deepestLevel ((t :: ts).map (fun t => (level + 1, t)) ++ rest) =
      max (level + depthAll (t :: ts)) (deepestLevel rest) := by
  induction ts generalizing t with
  | nil =>
    cases t
    simp only [List.map_cons, List.map_nil, List.cons_append, List.nil_append, deepestLevel,
      depthAll, depth, children]
    omega
  | cons u us ih =>
    have hrest := ih u
    cases t
    simp only [List.map_cons, List.cons_append, deepestLevel, depthAll, depth, children] at hrest ⊢
    omega

end Tree

namespace Cursor

/-! ## the count and the level -/

theorem level_of_firstChild? {c child : Cursor} (h : c.firstChild? = some child) :
    child.level = c.level + 1 :=
  level_of_parent? (parent?_of_firstChild? h)

theorem level_of_nextSibling? {c next : Cursor} (h : c.nextSibling? = some next) :
    next.level = c.level := by
  rw [level_eq next, level_eq c, parent?_of_nextSibling? h]

/-- A count that is the level of the node is the level of the next one, too, after all the climbing
in between. -/
theorem level_of_leave? {c next : Cursor} {depth depth' : Nat} (hdepth : depth = c.level)
    (h : c.leave? depth = some (depth', next)) : depth' = next.level ∧ next.level ≤ c.level := by
  fun_induction leave? depth c with
  | case1 depth c sibling hsibling =>
    cases h
    rw [level_of_nextSibling? hsibling]
    exact ⟨hdepth, Nat.le_refl _⟩
  | case2 depth c hlast parent hparent ih =>
    have hup := level_of_parent? hparent
    obtain ⟨hlevel, hle⟩ := ih (by omega) h
    exact ⟨hlevel, by omega⟩
  | case3 depth c hlast hroot => cases h

/-! ## the walk -/

theorem deepestLevel_of_firstChild? {c child : Cursor} (h : c.firstChild? = some child) :
    Tree.deepestLevel child.ahead = Tree.deepestLevel c.ahead ∧
      c.level < Tree.deepestLevel c.ahead := by
  obtain ⟨⟨label, children⟩, above⟩ := c
  cases children with
  | nil => cases h
  | cons first children =>
    have hfirst := Tree.depth_pos first
    constructor
    · rw [ahead_of_firstChild? h]
      exact Tree.deepestLevel_children _ first children _
    · simp only [ahead, Tree.deepestLevel, Tree.children, Tree.depthAll]
      omega

/-- The walk finds the deepest level, cut off at the first one beyond the limit; it always sees the
second level. The invariant is that the count is the level of the node, which is never deeper than
the walk has been; so no level is skipped on the way down. -/
theorem deepestFrom_eq {limit depth deepest : Nat} {c : Cursor} (hdepth : depth = c.level)
    (hlevel : depth ≤ deepest) (hdeepest : deepest ≤ max limit 1) :
    c.deepestFrom limit depth deepest =
      min (max deepest (Tree.deepestLevel c.ahead)) (max limit 1 + 1) := by
  fun_induction deepestFrom limit depth deepest c with
  | case1 depth deepest c child hchild deeper hbeyond =>
    obtain ⟨-, hbelow⟩ := deepestLevel_of_firstChild? hchild
    have hroot : 0 < c.level := Nat.succ_pos _
    omega
  | case2 depth deepest c child hchild deeper hwithin ih =>
    obtain ⟨hsame, hbelow⟩ := deepestLevel_of_firstChild? hchild
    rw [ih (by rw [level_of_firstChild? hchild, hdepth]) (by omega) (by omega), hsame]
    omega
  | case3 depth deepest c hleaf level next hnext ih =>
    obtain ⟨hnextLevel, hup⟩ := level_of_leave? hdepth hnext
    rw [ih hnextLevel (by omega) hdeepest, ahead_of_leave? hnext]
    simp only [ahead, Tree.deepestLevel, children_of_firstChild?_eq_none hleaf, Tree.depthAll]
    omega
  | case4 depth deepest c hleaf hend =>
    simp only [ahead, Tree.deepestLevel, children_of_firstChild?_eq_none hleaf, Tree.depthAll,
      behind_of_leave?_eq_none hend]
    omega

end Cursor

namespace Tree

/-- The walk over a tree finds its depth, up to the first depth beyond the limit. Even with a limit
of zero the first two levels are seen. -/
theorem depthWithin_eq_min (limit : Nat) (t : Tree) :
    t.depthWithin limit = min t.depth (max limit 1 + 1) := by
  have hstart : deepestLevel (Cursor.start t).ahead = t.depth := by
    cases t
    rw [Cursor.ahead_start, deepestLevel, deepestLevel, depth, children, Nat.max_zero, Nat.add_comm]
  have hlevel : 1 = (Cursor.start t).level := rfl
  rw [depthWithin, Cursor.deepestFrom_eq hlevel (Nat.le_refl 1) (Nat.le_max_right _ _), hstart,
    Nat.max_eq_right (depth_pos t)]

theorem lt_depthWithin_iff {limit : Nat} {t : Tree} :
    limit < t.depthWithin limit ↔ limit < t.depth := by
  have hpos := depth_pos t
  rw [depthWithin_eq_min]
  omega

end Tree

/-! ## the guard -/

/-- A syntax tree gives units if it is there, marks no error, and is no deeper than the limit. -/
theorem exists_statements_iff (content : String) {limit : Nat} {tree : Option Tree} :
    (∃ nodes, statements limit content tree = .ok nodes) ↔
      ∃ root, tree = some root ∧ root.label.hasError = false ∧ root.depth ≤ limit := by
  cases tree with
  | none => simp [statements]
  | some root =>
    simp only [statements, Option.some.injEq, exists_eq_left']
    cases root.label.hasError with
    | true => simp
    | false =>
      simp only [Bool.false_eq_true, if_false, Tree.lt_depthWithin_iff, true_and]
      by_cases hdeep : limit < root.depth
      · simp [hdeep]
      · simp [hdeep, Nat.not_lt.1 hdeep]

/-- A tree that marks no error is refused for its depth exactly if it is deeper than the limit. -/
theorem statements_eq_tooDeep_iff {limit : Nat} {content : String} {root : Tree} :
    statements limit content (some root) = .error (.tooDeep limit) ↔
      root.label.hasError = false ∧ limit < root.depth := by
  rw [statements]
  cases root.label.hasError with
  | true => simp
  | false => simp [Tree.lt_depthWithin_iff]

/-- **The walk measures the depth.**  For every limit, zero included, the walk from child to sibling
and back to the parent ends with the number of levels, or with the first number beyond the limit if
there are more.  So a tree that marks no error is refused for its depth exactly if it is deeper than
the limit, and gives units otherwise. -/
theorem depthWithin_measures_depth (limit : Nat) (root : Tree) :
    root.depthWithin limit = min root.depth (max limit 1 + 1) ∧
    ∀ content,
      (statements limit content (some root) = .error (.tooDeep limit) ↔
        root.label.hasError = false ∧ limit < root.depth) ∧
      ((∃ nodes, statements limit content (some root) = .ok nodes) ↔
        root.label.hasError = false ∧ root.depth ≤ limit) := by
  refine ⟨Tree.depthWithin_eq_min limit root, fun content => ⟨statements_eq_tooDeep_iff, ?_⟩⟩
  rw [exists_statements_iff]
  simp

end SourceAtlas.Syntax
