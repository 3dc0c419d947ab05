import SourceAtlas.Proofs.DescribedObjects
import SourceAtlas.Proofs.ReportText

/-!
How deep descriptions go.

* `Json.IsShelf`: what a field of a description may hold, a value or an array of values.
* `nesting_assemble_le`: a node adds at most two levels to the descriptions of its children, an
  object and an array, whatever the fields are called.
* `Tree.nesting_plain_le`: a description is nested at most twice as deep as the tree, plus one.
* `Graph.Descends`: descriptions that are under way at the same time, each for the one before.
* `Tree.le_depth_of_descends`: there are never more of them than the tree has levels.
* `description_depth_bounded`: what the limit on the depth of a tree means for both.
-/

namespace SourceAtlas

/-! ## nesting -/

/-- A value that is nested at most `n` levels deep, or an array of such values. -/
def Json.IsShelf (n : Nat) : Json → Prop
  | .arr items => ∀ v ∈ items, v.nesting ≤ n
  | v => v.nesting ≤ n

theorem Json.isShelf_of_nesting_le {v : Json} {n : Nat} (h : v.nesting ≤ n) : v.IsShelf n := by
  cases v with
  | arr items =>
    intro w hw
    have hitems := nesting_arr_le_iff.1 (Nat.le_succ_of_le h)
    exact hitems w hw
  | _ => exact h

theorem Json.IsShelf.nesting_le {v : Json} {n : Nat} (h : v.IsShelf n) : v.nesting ≤ n + 1 := by
  cases v with
  | arr items => exact nesting_arr_le_iff.2 h
  | _ => exact Nat.le_succ_of_le h

theorem Json.IsShelf.nesting_le_of_ne_arr {v : Json} {n : Nat} (h : v.IsShelf n)
    (hsingle : ∀ items, v ≠ .arr items) : v.nesting ≤ n := by
  cases v with
  | arr items => exact absurd rfl (hsingle items)
  | _ => exact h

namespace Syntax

open Json

theorem nesting_ownFields (v : Vertex) : ∀ field ∈ ownFields v, field.2.nesting ≤ 2 := by
  simp [ownFields, positionJson, nesting, nestingFields, nestingField, natural]

/-- One more value makes a field an array, but never an array in an array. -/
theorem isShelf_attached {n : Nat} (old : Option Json) (value : Json)
    (hold : ∀ w, old = some w → w.IsShelf n) (hvalue : value.nesting ≤ n) :
    (attached old value).IsShelf n := by
  unfold attached
  split
  · exact isShelf_of_nesting_le hvalue
  · have hitems := hold _ rfl
    intro w hw
    rcases List.mem_append.1 hw with hw | hw
    · exact hitems w hw
    · exact List.mem_singleton.1 hw ▸ hvalue
  · rename_i first hsingle
    have hfirst : first.nesting ≤ n := (hold _ rfl).nesting_le_of_ne_arr hsingle
    simp [IsShelf, hfirst, hvalue]

/-- A node adds an object around the descriptions of its children, and at most one array. -/
theorem nesting_assemble_le {v : Vertex} {shown : List (Option String × Json)} {n : Nat}
    (hn : 2 ≤ n) (hshown : ∀ child ∈ shown, child.2.nesting ≤ n) :
    (assemble v shown).nesting ≤ n + 2 := by
  have hown : ∀ f ∈ ownFields v, f.2.IsShelf n := fun f hf =>
    isShelf_of_nesting_le (Nat.le_trans (nesting_ownFields v f hf) hn)
  have hloose : (arr (looseOf shown)).IsShelf n := forall_mem_looseOf hshown
  obtain ⟨fields, hassemble, hfields⟩ :=
    forall_mem_assemble isShelf_attached hown hshown hloose
  rw [hassemble, nesting_obj_le_iff]
  intro f hf
  exact (hfields f hf).nesting_le

namespace Tree

variable {content : String} {starts : List Nat}

theorem depth_le_depthAll {t : Tree} {ts : List Tree} (h : t ∈ ts) : t.depth ≤ depthAll ts := by
  induction ts with
  | nil => cases h
  | cons u us ih =>
    rw [depthAll]
    rcases List.mem_cons.1 h with rfl | h
    · exact Nat.le_max_left _ _
    · exact Nat.le_trans (ih h) (Nat.le_max_right _ _)

theorem depth_lt_of_mem_children {t u : Tree} (h : u ∈ t.children) : u.depth < t.depth := by
  cases t with
  | node label children => exact Nat.lt_succ_of_le (depth_le_depthAll h)

mutual

/-- The description of a tree is nested at most twice as deep as the tree, plus one level: a leaf
tells its place in an object in an object. -/
theorem nesting_plain_le (t : Tree) : (plain content starts t).nesting ≤ 2 * t.depth + 1 := by
  match t with
  | node label children =>
    rw [plain, depth]
    split
    · rename_i hmember
      obtain ⟨u, hu, -⟩ := List.any_eq_true.1 hmember
      have hpos := u.depth_pos
      have hle := depth_le_depthAll hu
      have hinner : 2 ≤ 2 * depthAll children + 1 := by omega
      exact nesting_assemble_le hinner (nesting_plainAll_le children)
    · rw [nesting_leafJson]
      omega

theorem nesting_plainAll_le (ts : List Tree) :
    ∀ child ∈ plainAll content starts ts, child.2.nesting ≤ 2 * depthAll ts + 1 := by
  match ts with
  | [] => simp [plainAll]
  | t :: ts =>
    have hfirst := nesting_plain_le t
    have hrest := nesting_plainAll_le ts
    rw [plainAll, depthAll]
    intro child hchild
    split at hchild
    · rcases List.mem_cons.1 hchild with rfl | hchild
      · dsimp only
        omega
      · have := hrest child hchild
        omega
    · have := hrest child hchild
      omega

end

end Tree

/-! ## levels of descriptions -/

namespace Graph

variable {g : Graph}

/-- While node `id` is described, when those in `met` were met before, there are at some time so
many descriptions under way: its own, the one of a child, and so on. -/
inductive Descends (g : Graph) : List Nat → Nat → Nat → Prop
  | here (met : List Nat) (id : Nat) : Descends g met id 1
  | child {met : List Nat} {id levels : Nat} {v : Vertex} {call : Call} (new : id ∉ met)
      (found : g.vertices[id]? = some v) (turn : call ∈ g.calls (id :: met) v.children)
      (more : Descends g call.met call.id levels) : Descends g met id (levels + 1)

theorem mem_of_mem_calls {met : List Nat} {children : List (Option String × Nat)} {call : Call}
    (h : call ∈ g.calls met children) : (call.field, call.id) ∈ children := by
  induction children generalizing met with
  | nil => cases h
  | cons child rest ih =>
    rw [calls] at h
    split at h
    · rcases List.mem_cons.1 h with rfl | h
      · exact List.mem_cons_self
      · exact List.mem_cons_of_mem _ (ih h)
    · exact List.mem_cons_of_mem _ (ih h)

end Graph

namespace Tree

variable {content : String} {starts : List Nat} {g : Graph} {next : Nat}

/-- The children of a node by their numbers, less those that are not listed. -/
theorem numbered_eq (next : Nat) (ts : List Tree) :
    numbered next ts = ((withNumbers next ts).filter fun entry => entry.1.label.isMember).map
      fun entry => (entry.1.label.field, entry.2) := by
  induction ts generalizing next with
  | nil => rfl
  | cons t ts ih =>
    rw [numbered, withNumbers, List.filter_cons, ih]
    split <;> rename_i hmember
    · have hlisted : (t, next).1.label.isMember = true := hmember
      rw [if_pos hlisted, List.map_cons]
    · have hlisted : ¬ (t, next).1.label.isMember = true := hmember
      rw [if_neg hlisted]

theorem standAt_of_mem_withNumbers {ts : List Tree} {entry : Tree × Nat}
    (hg : StandAt g next (verticesAll content starts next ts))
    (h : entry ∈ withNumbers next ts) :
    entry.1 ∈ ts ∧ StandAt g entry.2 (vertices content starts entry.2 entry.1) := by
  induction ts generalizing next with
  | nil => cases h
  | cons t ts ih =>
    rcases List.mem_cons.1 h with rfl | h
    · exact ⟨List.mem_cons_self, hg.left⟩
    · obtain ⟨hmem, hstand⟩ := ih hg.rest h
      exact ⟨List.mem_cons_of_mem _ hmem, hstand⟩

/-- While a tree is described, there are never more descriptions under way than it has levels. -/
theorem le_depth_of_descends {met : List Nat} {id levels : Nat} (h : g.Descends met id levels)
    {t : Tree} (hg : StandAt g id (vertices content starts id t)) : levels ≤ t.depth := by
  induction h generalizing t with
  | here met id => exact t.depth_pos
  | @child met id levels v call new found turn more ih =>
    -- the description that is called for is that of a child
    have hv := (getElem?_of_standAt hg).symm.trans found
    have hcall : (call.field, call.id) ∈ numbered (id + 1) t.children := by
      have hmem := Graph.mem_of_mem_calls turn
      rw [← Option.some.inj hv] at hmem
      exact hmem
    rw [numbered_eq] at hcall
    obtain ⟨entry, hentry, hsame⟩ := List.mem_map.1 hcall
    have hbelow : StandAt g (id + 1) (verticesAll content starts (id + 1) t.children) := by
      cases t with
      | node label children => exact hg.tail
    obtain ⟨hchild, hstand⟩ := standAt_of_mem_withNumbers hbelow (List.mem_of_mem_filter hentry)
    have hid : entry.2 = call.id := congrArg Prod.snd hsame
    rw [hid] at hstand
    have hle := ih hstand
    have hlt := depth_lt_of_mem_children hchild
    omega

end Tree

/-- **The limit on the depth of a tree bounds its descriptions.**  Each unit of a tree that is no
deeper than the limit carries a description, and its objects and arrays lie at most twice as many
levels inside each other as the limit allows, less one, whatever fields occur.  While a statement is
described, with whatever was met before, there are never as many descriptions under way at the same
time as the limit allows levels. -/
theorem description_depth_bounded {limit : Nat} {content : String} {root : Tree}
    {nodes : List Node} (h : statements limit content (some root) = .ok nodes) :
    (∀ n ∈ nodes, ∃ t, n.tree = some t ∧ t.nesting ≤ 2 * limit - 1) ∧
    ∀ entry ∈ topLevel root, ∀ met levels,
      (root.graph content).Descends met entry.2 levels → levels ≤ limit - 1 := by
  obtain ⟨-, hdepth, rfl⟩ := statements_eq_ok_iff_plainUnits.1 h
  have htop : ∀ entry ∈ topLevel root, entry.1.depth < root.depth ∧
      Tree.StandAt (root.graph content) entry.2
        (entry.1.vertices content (Text.lineStarts content) entry.2) := by
    intro entry hentry
    obtain ⟨hchild, hstand⟩ := Tree.standAt_of_mem_withNumbers (Tree.standAt_graph content root)
      (List.mem_of_mem_filter hentry)
    exact ⟨Tree.depth_lt_of_mem_children hchild, hstand⟩
  constructor
  · intro n hn
    obtain ⟨entry, hentry, rfl⟩ := List.mem_map.1 hn
    refine ⟨_, tree_statementNode _ _ _ _, ?_⟩
    have hnesting : (entry.1.plain content (Text.lineStarts content)).nesting ≤
        2 * entry.1.depth + 1 := entry.1.nesting_plain_le
    have hlt := (htop entry hentry).1
    omega
  · intro entry hentry met levels hlevels
    obtain ⟨hlt, hstand⟩ := htop entry hentry
    have hle := Tree.le_depth_of_descends hlevels hstand
    omega

/-- A name in parentheses: four levels, of which three are described, and a description that is
nested as deep as this limit allows. -/
theorem description_depth_bounded_parenthesized :
    let root := Tree.parenthesizedFile 1
    ∃ nodes, statements 4 "(x);" (some root) = .ok nodes ∧
      nodes.map (fun n => n.tree.map nesting) = [some 7] ∧
      (∀ n ∈ nodes, ∃ t, n.tree = some t ∧ t.nesting ≤ 7) ∧
      ∀ entry ∈ topLevel root, ∀ met levels,
        (root.graph "(x);").Descends met entry.2 levels → levels ≤ 3 := by
  intro root
  obtain ⟨nodes, hnodes⟩ : ∃ nodes, statements 4 "(x);" (some root) = .ok nodes :=
    (exists_statements_iff "(x);").2 ⟨root, rfl, rfl, by decide⟩
  obtain ⟨-, -, hunits⟩ := statements_eq_ok_iff_plainUnits.1 hnodes
  have hnesting : nodes.map (fun n => n.tree.map nesting) = [some 7] := by
    rw [hunits]
    show [some (Tree.plain "(x);" _ (Tree.parenthesizedStatement 1)).nesting] = _
    rw [Tree.plain_parenthesizedStatement, Tree.nesting_of_loose, Tree.nesting_plain_parenthesized]
    rw [Tree.nesting_plain_parenthesized]
    decide
  exact ⟨nodes, hnodes, hnesting, description_depth_bounded hnodes⟩

end Syntax

end SourceAtlas
