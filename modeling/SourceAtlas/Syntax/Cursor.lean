import SourceAtlas.Syntax.Tree

/-!
Walks through a syntax tree.

* `Cursor`: a node of a tree that a walk has come to, with the way back to the root.
* `Cursor.firstChild?`, `Cursor.nextSibling?`, `Cursor.parent?`: the moves. `Cursor.leave?` goes on
  behind a node and all that is below it.
* `Cursor.ahead`: the trees that a walk has still to see. The moves are stated through it.
* `Tree.depthWithin`: the depth, up to the first level beyond a limit.
* `Tree.firstFault?`: the first node that marks an error.
-/

namespace SourceAtlas.Syntax

/-- A node on the way down, seen from its parent: the parent's label, and the siblings before the
node, the nearest first, and after it. -/
structure Turn where
  label : Label
  before : List Tree
  after : List Tree

/-- A node in a tree. The turns lead from the node up to the root. -/
structure Cursor where
  focus : Tree
  above : List Turn

namespace Cursor

/-- A walk begins at the root, which it cannot leave. -/
def start (t : Tree) : Cursor := ⟨t, []⟩

/-- The level of a node; that of the root is one. -/
def level (c : Cursor) : Nat := c.above.length + 1

/-! ## moves -/

def firstChild? (c : Cursor) : Option Cursor :=
  match c.focus with
  | .node _ [] => none
  | .node label (child :: children) => some ⟨child, ⟨label, [], children⟩ :: c.above⟩

def nextSibling? (c : Cursor) : Option Cursor :=
  match c.above with
  | [] => none
  | ⟨_, _, []⟩ :: _ => none
  | ⟨label, before, next :: after⟩ :: above =>
    some ⟨next, ⟨label, c.focus :: before, after⟩ :: above⟩

def parent? (c : Cursor) : Option Cursor :=
  match c.above with
  | [] => none
  | turn :: above => some ⟨.node turn.label (turn.before.reverse ++ c.focus :: turn.after), above⟩

/-- The way back from the first child leads to the node. -/
theorem parent?_of_firstChild? {c child : Cursor} (h : c.firstChild? = some child) :
    child.parent? = some c := by
  obtain ⟨⟨label, children⟩, above⟩ := c
  cases children with
  | nil => cases h
  | cons first children =>
    cases h
    rfl

/-- Siblings have the same parent. -/
theorem parent?_of_nextSibling? {c next : Cursor} (h : c.nextSibling? = some next) :
    next.parent? = c.parent? := by
  obtain ⟨focus, above⟩ := c
  cases above with
  | nil => cases h
  | cons turn above =>
    obtain ⟨label, before, after⟩ := turn
    cases after with
    | nil => cases h
    | cons sibling after =>
      cases h
      simp [parent?]

/-- A node is one level below its parent. -/
theorem level_eq (c : Cursor) : c.level = (c.parent?.map level).getD 0 + 1 := by
  obtain ⟨focus, above⟩ := c
  cases above <;> rfl

theorem level_of_parent? {c parent : Cursor} (h : c.parent? = some parent) :
    c.level = parent.level + 1 := by
  rw [level_eq c, h]
  rfl

/-- The next sibling of a node or, where there is none, of the nearest node above it that has one.
The count goes down by one with every level that is climbed. -/
def leave? (depth : Nat) (c : Cursor) : Option (Nat × Cursor) :=
  match c.nextSibling? with
  | some next => some (depth, next)
  | none =>
    match _ : c.parent? with
    | some parent => leave? (depth - 1) parent
    | none => none
termination_by c.level
decreasing_by
  rename_i hparent
  rw [level_of_parent? hparent]
  exact Nat.lt_succ_self _

/-! ## what lies ahead -/

/-- The trees that follow a node and all that is below it, each with its level. -/
def behind (c : Cursor) : List (Nat × Tree) := behindTurns c.above
where
  behindTurns : List Turn → List (Nat × Tree)
    | [] => []
    | turn :: above => turn.after.map (fun t => (above.length + 2, t)) ++ behindTurns above

/-- The trees that a walk has still to see, each with its level; the first is the one it has come
to. -/
def ahead (c : Cursor) : List (Nat × Tree) := (c.level, c.focus) :: c.behind

theorem ahead_start (t : Tree) : (start t).ahead = [(1, t)] := rfl

theorem children_of_firstChild?_eq_none {c : Cursor} (h : c.firstChild? = none) :
    c.focus.children = [] := by
  obtain ⟨⟨label, children⟩, above⟩ := c
  cases children with
  | nil => rfl
  | cons child children => cases h

/-- Going down replaces a node by its children. -/
theorem ahead_of_firstChild? {c child : Cursor} (h : c.firstChild? = some child) :
    child.ahead = c.focus.children.map (fun t => (c.level + 1, t)) ++ c.behind := by
  obtain ⟨⟨label, children⟩, above⟩ := c
  cases children with
  | nil => cases h
  | cons first children =>
    cases h
    rfl

theorem ahead_of_nextSibling? {c next : Cursor} (h : c.nextSibling? = some next) :
    next.ahead = c.behind := by
  obtain ⟨focus, above⟩ := c
  cases above with
  | nil => cases h
  | cons turn above =>
    obtain ⟨label, before, after⟩ := turn
    cases after with
    | nil => cases h
    | cons sibling after =>
      cases h
      rfl

/-- A last child has behind it what its parent has. -/
theorem behind_of_parent? {c parent : Cursor} (hlast : c.nextSibling? = none)
    (h : c.parent? = some parent) : parent.behind = c.behind := by
  obtain ⟨focus, above⟩ := c
  cases above with
  | nil => cases h
  | cons turn above =>
    obtain ⟨label, before, after⟩ := turn
    cases after with
    | nil =>
      cases h
      rfl
    | cons sibling after => cases hlast

theorem behind_of_parent?_eq_none {c : Cursor} (h : c.parent? = none) : c.behind = [] := by
  obtain ⟨focus, above⟩ := c
  cases above with
  | nil => rfl
  | cons turn above => cases h

/-- Leaving a node goes on with what is behind it. -/
theorem ahead_of_leave? {c next : Cursor} {depth depth' : Nat}
    (h : c.leave? depth = some (depth', next)) : next.ahead = c.behind := by
  fun_induction leave? depth c with
  | case1 depth c sibling hsibling =>
    cases h
    exact ahead_of_nextSibling? hsibling
  | case2 depth c hlast parent hparent ih => rw [ih h, behind_of_parent? hlast hparent]
  | case3 depth c hlast hroot => cases h

theorem behind_of_leave?_eq_none {c : Cursor} {depth : Nat} (h : c.leave? depth = none) :
    c.behind = [] := by
  fun_induction leave? depth c with
  | case1 depth c sibling hsibling => cases h
  | case2 depth c hlast parent hparent ih => rw [← behind_of_parent? hlast hparent, ih h]
  | case3 depth c hlast hroot => exact behind_of_parent?_eq_none hroot

/-- The number of nodes that a walk has still to see. -/
def remaining (c : Cursor) : Nat := Tree.sizeAll (c.ahead.map Prod.snd)

theorem remaining_eq (c : Cursor) :
    c.remaining = Tree.sizeAll c.focus.children + Tree.sizeAll (c.behind.map Prod.snd) + 1 := by
  obtain ⟨⟨label, children⟩, above⟩ := c
  simp only [remaining, ahead, List.map_cons, Tree.sizeAll, Tree.size, Tree.children]
  omega

theorem remaining_of_firstChild? {c child : Cursor} (h : c.firstChild? = some child) :
    child.remaining < c.remaining := by
  have htrees : child.ahead.map Prod.snd = c.focus.children ++ c.behind.map Prod.snd := by
    simp [ahead_of_firstChild? h, Function.comp_def]
  rw [remaining_eq c, remaining, htrees, Tree.sizeAll_append]
  exact Nat.lt_succ_self _

theorem remaining_of_leave? {c next : Cursor} {depth depth' : Nat}
    (h : c.leave? depth = some (depth', next)) : next.remaining < c.remaining := by
  rw [remaining_eq c, remaining, ahead_of_leave? h]
  omega

/-! ## depth and errors -/

/-- The deepest level among `deepest` and those of the nodes that a walk has still to see, where
`depth` is the level it has come to. It stops at the first level beyond `limit`. -/
def deepestFrom (limit depth deepest : Nat) (c : Cursor) : Nat :=
  match _ : c.firstChild? with
  | some child =>
    let deeper := max deepest (depth + 1)
    if limit < deeper then deeper else deepestFrom limit (depth + 1) deeper child
  | none =>
    match _ : c.leave? depth with
    | some (level, next) => deepestFrom limit level deepest next
    | none => deepest
termination_by c.remaining
decreasing_by
  · exact remaining_of_firstChild? ‹_›
  · exact remaining_of_leave? ‹_›

/-- The first child of a node with an error in it or below it. -/
def flaggedChild? (c : Cursor) : Option Cursor :=
  if c.focus.label.hasError then c.firstChild? else none

theorem firstChild?_of_flaggedChild? {c child : Cursor} (h : c.flaggedChild? = some child) :
    c.firstChild? = some child := by
  unfold flaggedChild? at h
  split at h
  · exact h
  · cases h

/-- The first node from here on that marks an error. Nodes without an error below them are not
entered. -/
def firstFaultFrom? (c : Cursor) : Option Label :=
  if c.focus.label.error || c.focus.label.missing then some c.focus.label
  else
    match _ : c.flaggedChild? with
    | some child => firstFaultFrom? child
    | none =>
      match _ : c.leave? 0 with
      | some (_, next) => firstFaultFrom? next
      | none => none
termination_by c.remaining
decreasing_by
  · exact remaining_of_firstChild? (firstChild?_of_flaggedChild? ‹_›)
  · exact remaining_of_leave? ‹_›

end Cursor

namespace Tree

/-- The depth of a tree, where the root alone has depth one, but no more than the first depth beyond
the limit. -/
def depthWithin (limit : Nat) (t : Tree) : Nat := (Cursor.start t).deepestFrom limit 1 1

/-- The first node in preorder that marks an error. -/
def firstFault? (t : Tree) : Option Label := (Cursor.start t).firstFaultFrom?

end Tree

end SourceAtlas.Syntax
