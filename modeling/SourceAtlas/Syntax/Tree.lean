import SourceAtlas.Syntax.Graph
import SourceAtlas.Text.Lines

/-!
Concrete syntax trees.

* `Tree`: a node with its label and its children in source order.
* `Tree.ofPreorder`: the tree with given labels and numbers of children in preorder.
* `Tree.graph`: the same nodes numbered in preorder.
-/

namespace SourceAtlas.Syntax

/-- What a parser says of a node. Rows and columns are not part of it: a parser counts the line
feeds and the bytes before an offset, and so does `Tree.spanOf`. -/
structure Label where
  kind : String
  /-- A node with a rule of its own in the grammar, as opposed to a bare token. -/
  named : Bool
  /-- A node that may stand anywhere, such as a comment. -/
  extra : Bool
  /-- Source text that fits nowhere. -/
  error : Bool
  /-- A token that had to be made up. -/
  missing : Bool
  /-- There is an error in this node or below it. -/
  hasError : Bool
  /-- The field of the parent that this node stands in. -/
  field : Option String
  startByte : Nat
  endByte : Nat
deriving DecidableEq, Repr, Inhabited

inductive Tree where
  | node (label : Label) (children : List Tree)
deriving Inhabited

namespace Tree

def label : Tree → Label
  | node label _ => label

def children : Tree → List Tree
  | node _ children => children

def kind (t : Tree) : String := t.label.kind

/-- The tree whose nodes, in preorder, have the given labels and numbers of children. -/
def ofPreorder (nodes : List (Label × Nat)) : Option Tree :=
  (nodes.foldr (fun entry done =>
    node entry.1 (done.take entry.2) :: done.drop entry.2) []).head?

mutual

/-- The number of nodes. -/
def size : Tree → Nat
  | node _ children => sizeAll children + 1

def sizeAll : List Tree → Nat
  | [] => 0
  | t :: ts => size t + sizeAll ts

end

theorem sizeAll_append (ts us : List Tree) : sizeAll (ts ++ us) = sizeAll ts + sizeAll us := by
  induction ts with
  | nil => simp [sizeAll]
  | cons t ts ih => simp [sizeAll, ih, Nat.add_assoc]

/-! ## children by name -/

/-- The first child in a field. -/
def childAt? (t : Tree) (field : String) : Option Tree :=
  t.children.find? fun child => child.label.field == some field

def namedChildren (t : Tree) : List Tree := t.children.filter fun child => child.label.named

/-- The first child with a rule of its own and of a given kind. -/
def namedChild? (t : Tree) (kind : String) : Option Tree :=
  t.namedChildren.find? fun child => child.kind == kind

/-! ## numbering -/

/-- The children that a description may show, each with its field and number; the first child has
the number `next`. -/
def numbered (next : Nat) : List Tree → List (Option String × Nat)
  | [] => []
  | t :: ts =>
    let rest := numbered (next + size t) ts
    if t.label.named || t.label.field.isSome then (t.label.field, next) :: rest else rest

/-- Where a node stands, given the beginnings of the lines. Of a parser it is assumed that its rows
and columns follow from its offsets: the row of an offset is the number of the line feeds before it,
and the column the number of bytes since the last of them, also for a node of no length and for one
at the end of the text. -/
def spanOf (starts : List Nat) (label : Label) : Span :=
  let (startLine, startColumn) := Text.locate starts label.startByte
  let (endLine, endColumn) := Text.locate starts label.endByte
  { startByte := label.startByte, endByte := label.endByte, startLine := startLine + 1, startColumn,
    endLine := endLine + 1, endColumn }

/-- The source text of a node. -/
def textOf (content : String) (label : Label) : String :=
  Text.sliceBytes content label.startByte label.endByte

mutual

/-- The nodes of a tree in preorder, the root being number `next`. -/
def vertices (content : String) (starts : List Nat) (next : Nat) : Tree → List Vertex
  | node label children =>
    { kind := label.kind
      text := if label.named then some (textOf content label) else none
      extra := label.extra
      span := spanOf starts label
      children := numbered (next + 1) children } ::
        verticesAll content starts (next + 1) children

def verticesAll (content : String) (starts : List Nat) (next : Nat) : List Tree → List Vertex
  | [] => []
  | t :: ts => vertices content starts next t ++ verticesAll content starts (next + size t) ts

end

/-- The nodes of the tree of a text, numbered in preorder from zero. -/
def graph (content : String) (t : Tree) : Graph :=
  ⟨(vertices content (Text.lineStarts content) 0 t).toArray⟩

/-- The trees of a list with their numbers; the first one has the number `next`. -/
def withNumbers (next : Nat) : List Tree → List (Tree × Nat)
  | [] => []
  | t :: ts => (t, next) :: withNumbers (next + size t) ts

end Tree

end SourceAtlas.Syntax
