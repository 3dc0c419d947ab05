import SourceAtlas.Proofs.Positions
import SourceAtlas.Syntax.Statement

/-!
The first error in a syntax tree.

* `Tree.subtrees`: all nodes of a tree in preorder.
* `Tree.FlagsFit`: each node tells whether there is a fault at it or below it.
* `Cursor.firstFaultFrom?_eq_find?`: a walk that passes over nodes without the flag still comes to
  the first fault among all the nodes ahead.
* `statements_report_first_fault`: a file with an error is refused with the line of its first fault.
-/

namespace SourceAtlas.Syntax

/-- Source text that fits nowhere, or a token that had to be made up. -/
def Label.isFault (label : Label) : Bool := label.error || label.missing

namespace Tree

mutual

/-- The nodes of a tree in preorder, each with all that is below it. -/
def subtrees : Tree → List Tree
  | node label children => node label children :: subtreesAll children

def subtreesAll : List Tree → List Tree
  | [] => []
  | t :: ts => subtrees t ++ subtreesAll ts

end

theorem subtreesAll_eq_flatMap (ts : List Tree) : subtreesAll ts = ts.flatMap subtrees := by
  induction ts with
  | nil => rfl
  | cons t ts ih => rw [subtreesAll, ih, List.flatMap_cons]

theorem subtrees_eq (t : Tree) : t.subtrees = t :: t.children.flatMap subtrees := by
  cases t
  rw [subtrees, subtreesAll_eq_flatMap, children]

/-- The flag of a node tells whether there is a fault at the node or below it. -/
def FlagFits (t : Tree) : Prop :=
  t.label.hasError = true ↔ ∃ u ∈ t.subtrees, u.label.isFault = true

/-- The flags of all nodes tell whether there is a fault. -/
def FlagsFit (t : Tree) : Prop := ∀ u ∈ t.subtrees, u.FlagFits

instance (t : Tree) : Decidable t.FlagFits :=
  inferInstanceAs (Decidable (_ ↔ ∃ u ∈ t.subtrees, u.label.isFault = true))

instance (t : Tree) : Decidable t.FlagsFit :=
  inferInstanceAs (Decidable (∀ u ∈ t.subtrees, u.FlagFits))

/-- The first node in preorder that is a fault. -/
def firstFaulty? (t : Tree) : Option Tree := t.subtrees.find? fun u => u.label.isFault

end Tree

namespace Cursor

/-- The nodes that a walk has still to see, in preorder. -/
def nodesAhead (c : Cursor) : List Tree := c.ahead.flatMap fun entry => entry.2.subtrees

theorem nodesAhead_start (t : Tree) : (start t).nodesAhead = t.subtrees := List.append_nil _

theorem nodesAhead_eq (c : Cursor) :
    c.nodesAhead = c.focus :: (c.focus.children.flatMap Tree.subtrees ++
      c.behind.flatMap fun entry => entry.2.subtrees) := by
  rw [nodesAhead, ahead, List.flatMap_cons, Tree.subtrees_eq, List.cons_append]

theorem focus_mem_nodesAhead (c : Cursor) : c.focus ∈ c.nodesAhead := by
  rw [nodesAhead_eq]
  exact List.mem_cons_self

theorem nodesAhead_of_firstChild? {c child : Cursor} (h : c.firstChild? = some child) :
    c.nodesAhead = c.focus :: child.nodesAhead := by
  rw [nodesAhead_eq, nodesAhead, ahead_of_firstChild? h, List.flatMap_append, List.flatMap_map]

theorem nodesAhead_of_leave? {c next : Cursor} {depth depth' : Nat}
    (h : c.leave? depth = some (depth', next)) :
    c.nodesAhead = c.focus.subtrees ++ next.nodesAhead := by
  rw [nodesAhead, ahead, List.flatMap_cons, nodesAhead, ahead_of_leave? h]

theorem nodesAhead_of_leave?_eq_none {c : Cursor} {depth : Nat} (h : c.leave? depth = none) :
    c.nodesAhead = c.focus.subtrees := by
  rw [nodesAhead, ahead, behind_of_leave?_eq_none h]
  simp

/-- A node that is passed over, whether for its flag or because it has no children, has no fault
below it. -/
theorem firstFaulty?_of_flaggedChild?_eq_none {c : Cursor} (hfits : c.focus.FlagFits)
    (hself : ¬ c.focus.label.isFault = true) (h : c.flaggedChild? = none) :
    c.focus.firstFaulty? = none := by
  refine List.find?_eq_none.2 fun u hu hfault => ?_
  unfold flaggedChild? at h
  split at h
  · rw [Tree.subtrees_eq, children_of_firstChild?_eq_none h, List.flatMap_nil,
      List.mem_singleton] at hu
    exact hself (hu ▸ hfault)
  · rename_i hflag
    exact hflag (hfits.2 ⟨u, hu, hfault⟩)

/-- The walk comes to the first fault among all the nodes ahead, those that it passes over
included. -/
theorem firstFaultFrom?_eq_find? {c : Cursor} (hfits : ∀ u ∈ c.nodesAhead, u.FlagFits) :
    c.firstFaultFrom? = (c.nodesAhead.find? fun u => u.label.isFault).map Tree.label := by
  fun_induction firstFaultFrom? c with
  | case1 c hself =>
    have hfault : c.focus.label.isFault = true := hself
    rw [nodesAhead_eq, List.find?_cons, hfault]
    rfl
  | case2 c hself child hchild ih =>
    have hahead := nodesAhead_of_firstChild? (firstChild?_of_flaggedChild? hchild)
    have hskip : c.focus.label.isFault = false := eq_false_of_ne_true hself
    rw [ih fun u hu => hfits u (hahead ▸ List.mem_cons_of_mem _ hu), hahead, List.find?_cons, hskip]
  | case3 c hself hpassed _ next hnext ih =>
    have hahead := nodesAhead_of_leave? hnext
    have hnone := firstFaulty?_of_flaggedChild?_eq_none (hfits _ c.focus_mem_nodesAhead) hself
      hpassed
    rw [ih fun u hu => hfits u (hahead ▸ List.mem_append_right _ hu), hahead, List.find?_append,
      ← Tree.firstFaulty?, hnone, Option.none_or]
  | case4 c hself hpassed hend =>
    have hnone := firstFaulty?_of_flaggedChild?_eq_none (hfits _ c.focus_mem_nodesAhead) hself
      hpassed
    rw [nodesAhead_of_leave?_eq_none hend, ← Tree.firstFaulty?, hnone]
    rfl

end Cursor

namespace Tree

theorem firstFault?_eq_firstFaulty? {t : Tree} (h : t.FlagsFit) :
    t.firstFault? = t.firstFaulty?.map label := by
  have hfits : ∀ u ∈ (Cursor.start t).nodesAhead, u.FlagFits := by rwa [Cursor.nodesAhead_start]
  rw [firstFault?, Cursor.firstFaultFrom?_eq_find? hfits, Cursor.nodesAhead_start, firstFaulty?]

theorem self_mem_subtrees (t : Tree) : t ∈ t.subtrees := by
  rw [subtrees_eq]
  exact List.mem_cons_self

theorem exists_firstFaulty? {t : Tree} (h : t.FlagsFit) (herror : t.label.hasError = true) :
    ∃ u, t.firstFaulty? = some u := by
  obtain ⟨u, hu, hfault⟩ := (h t t.self_mem_subtrees).1 herror
  exact Option.isSome_iff_exists.1 (List.find?_isSome.2 ⟨u, hu, hfault⟩)

/-- The line that is found is that of the first fault in preorder. -/
theorem line_firstFault? {t : Tree} (h : t.FlagsFit) (content : String) :
    (t.firstFault?.map fun label =>
        (Text.locate (Text.lineStarts content) label.startByte).1 + 1) =
      t.firstFaulty?.map fun u => Text.lineAt content u.label.startByte := by
  rw [firstFault?_eq_firstFaulty? h, Option.map_map]
  simp only [Function.comp_def, Text.line_lineStarts]

end Tree

/-- **A file with an error is refused with the line of its first fault.**  Where the flags of the
nodes fit, the walk that passes over nodes without the flag finds the first fault of all nodes in
preorder, and none only if there is none.  A root with the flag always has such a fault, so that its
line is the one in the message. -/
theorem statements_report_first_fault {t : Tree} (h : t.FlagsFit) :
    (∀ content,
      (t.firstFault?.map fun label =>
          (Text.locate (Text.lineStarts content) label.startByte).1 + 1) =
        t.firstFaulty?.map fun u => Text.lineAt content u.label.startByte) ∧
    (t.firstFault? = none ↔ ∀ u ∈ t.subtrees, u.label.isFault = false) ∧
    (t.label.hasError = true → ∀ limit content, ∃ u fault, t.firstFaulty? = some u ∧
      statements limit content (some t) = .error fault ∧
      ∀ dialect, fault.message dialect =
        "syntax error near line " ++ toString (Text.lineAt content u.label.startByte)) := by
  refine ⟨Tree.line_firstFault? h, ?_, ?_⟩
  · rw [Tree.firstFault?_eq_firstFaulty? h, Option.map_eq_none_iff, Tree.firstFaulty?,
      List.find?_eq_none]
    simp only [Bool.not_eq_true]
  · intro herror limit content
    obtain ⟨u, hu⟩ := Tree.exists_firstFaulty? h herror
    refine ⟨u, .errorNear (Text.lineAt content u.label.startByte), hu, ?_, fun _ => rfl⟩
    simp only [statements, herror, if_true, Tree.line_firstFault? h, hu, Option.map_some,
      Option.getD_some]

/-- A token is missing at the end of the second line, below two nodes with the flag and after a deep
statement without it. The error in the third line, which has a node below it, comes later. -/
theorem statements_report_first_fault_late :
    let leaf : Label := default
    let flagged : Label := { leaf with hasError := true }
    let missing : Label := { flagged with missing := true, startByte := 10 }
    let error : Label := { flagged with error := true, startByte := 11 }
    let t : Tree := .node flagged [.node leaf [.node leaf [.node leaf []]],
      .node flagged [.node leaf [], .node flagged [.node missing []]], .node error [.node leaf []]]
    t.FlagsFit ∧ ∃ fault, statements 512 "let a;\nlet\n)" (some t) = .error fault ∧
      ∀ dialect, fault.message dialect = "syntax error near line 2" := by
  intro leaf flagged missing error t
  have hfits : t.FlagsFit := by decide
  obtain ⟨-, -, h⟩ := statements_report_first_fault hfits
  obtain ⟨u, fault, hu, hstatements, hmessage⟩ := h rfl 512 "let a;\nlet\n)"
  have hmissing : u = .node missing [] := (Option.some.inj hu).symm
  have hline : Text.lineAt "let a;\nlet\n)" 10 = 2 := by decide
  rw [hmissing] at hmessage
  refine ⟨hfits, fault, hstatements, fun dialect => (hmessage dialect).trans ?_⟩
  simp only [Tree.label, missing, hline]
  rfl

end SourceAtlas.Syntax
