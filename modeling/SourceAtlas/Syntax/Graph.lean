import SourceAtlas.Record.Node

/-!
Syntax nodes that refer to each other by number, and their description in JSON.

* `Graph`: a list of nodes. Children may be shared and may lead back to their ancestors.
* `Graph.describe`: a node and what it leads to as nested JSON objects. A node that was met before
  is only marked as such.
* `Graph.describeAll`: several nodes, one after the other, with a common memory of those met.
-/

namespace SourceAtlas.Syntax

structure Vertex where
  kind : String
  /-- The source text, shown if there are no children. -/
  text : Option String
  /-- A node that may stand anywhere, such as a comment; it is left out. -/
  extra : Bool
  span : Span
  /-- The children in order, each with the field it stands in. -/
  children : List (Option String × Nat)
deriving Inhabited

structure Graph where
  vertices : Array Vertex

/-- What stands for a node that was met before. -/
def metMark : Json := .str "[Circular]"

/-- A place in the source by line and column. -/
def positionJson (line column : Nat) : Json :=
  .obj [("column", .natural column), ("line", .natural line)]

/-- The fields of a node that do not depend on its children. -/
def ownFields (v : Vertex) : List (String × Json) :=
  [("end", .natural v.span.endByte),
    ("loc", .obj [("end", positionJson v.span.endLine v.span.endColumn),
      ("start", positionJson v.span.startLine v.span.startColumn)]),
    ("start", .natural v.span.startByte), ("type", .str v.kind)]

/-- A field that is described: not the way back to the parent, and not internal. -/
def isShownField (field : String) : Bool := field != "parent" && field.toList.head? != some '_'

/-- A value for a field. A field that is there already becomes an array, or grows if it is one. -/
def attach (fields : List (String × Json)) (field : String) (value : Json) : List (String × Json) :=
  match fields.lookup field with
  | none => Json.setField field value fields
  | some (.arr items) => Json.setField field (.arr (items ++ [value])) fields
  | some first => Json.setField field (.arr [first, value]) fields

/-- The description of a node under construction: its fields, the children without a field, and
the nodes met so far. -/
structure Draft where
  fields : List (String × Json)
  loose : List Json
  met : List Nat

namespace Graph

/-- The child may be described: it is no extra node and its field, if any, is shown. -/
def keeps (g : Graph) (child : Option String × Nat) : Bool :=
  !(g.vertices[child.2]?.any Vertex.extra) && child.1.all isShownField

/-- One child; `visit` describes a node, given those met before. -/
def addChild (g : Graph) (visit : List Nat → Nat → Json × List Nat) (d : Draft)
    (child : Option String × Nat) : Draft :=
  if g.keeps child then
    let (value, met) := visit d.met child.2
    match child.1 with
    | some field => { d with fields := attach d.fields field value, met }
    | none => { d with loose := d.loose ++ [value], met }
  else d

/-- The finished description. Children without a field are listed under `children`. -/
def finish (d : Draft) : Json :=
  .obj (if d.loose.isEmpty then d.fields else Json.setField "children" (.arr d.loose) d.fields)

/-- A node and what it leads to, and the nodes met then. Every level marks a new node, so that
`fuel` need not exceed the number of nodes by more than one. -/
def describeWithin (g : Graph) : Nat → List Nat → Nat → Json × List Nat
  | 0, met, _ => (metMark, met)
  | fuel + 1, met, id =>
    if met.contains id then (metMark, met)
    else
      match g.vertices[id]? with
      | none => (.null, id :: met)
      | some v =>
        if v.children.isEmpty then
          let text := (v.text.map fun s => Json.setField "text" (.str s) (ownFields v))
          (.obj (text.getD (ownFields v)), id :: met)
        else
          let start := ⟨ownFields v, [], id :: met⟩
          let d := v.children.foldl (g.addChild (g.describeWithin fuel)) start
          (finish d, d.met)

def describe (g : Graph) (met : List Nat) (id : Nat) : Json × List Nat :=
  g.describeWithin (g.vertices.size + 1) met id

/-- The descriptions of several nodes in order, and the nodes met in the end. -/
def describeAll (g : Graph) : List Nat → List Nat → List Json × List Nat
  | met, [] => ([], met)
  | met, id :: ids =>
    let (value, met) := g.describe met id
    let (values, met) := g.describeAll met ids
    (value :: values, met)

end Graph

end SourceAtlas.Syntax
