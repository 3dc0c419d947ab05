import SourceAtlas.Record.Set

/-!
Records as JSON.

* `Node.toJson`, `Record.toJson`, `RecordSet.toJson`: fields in a fixed order; what is absent is
  left out, except the list of units.
* `Node.ofJson?`, `Record.ofJson?`, `RecordSet.ofJson?`: fields in any order, unknown ones ignored;
  `null` stands for an absent optional field, and an array for the fields in their fixed order.
-/

namespace SourceAtlas

namespace Json

/-- An optional field: absent and `null` mean the same. -/
def optional (v : Json) (name : String) (decode : Json → Option α) : Option (Option α) :=
  match v.get? name with
  | none | some .null => some none
  | some field => (decode field).map some

/-- A list of values of one kind. -/
def listOf (decode : Json → Option α) (v : Json) : Option (List α) :=
  v.arr?.bind fun items => items.mapM decode

/-- A required field. -/
def required (v : Json) (name : String) (decode : Json → Option α) : Option α :=
  (v.get? name).bind decode

/-- An array in the place of an object holds its fields in the order of their names. Fields at the
end may be missing. -/
def byPosition (names : List String) : Json → Option Json
  | .arr items => if items.length ≤ names.length then some (.obj (names.zip items)) else none
  | v => some v

/-- One of several names: a text, or an object in which nothing but that name stands. -/
def choice? : Json → Option String
  | .str s => some s
  | .obj [(name, .null)] => some name
  | _ => none

/-- An optional field to be written. -/
def present (name : String) (value : Option Json) : List (String × Json) :=
  (value.map fun v => (name, v)).toList

end Json

open Json

namespace Span

def toJson (s : Span) : Json :=
  .obj [("start_byte", .natural s.startByte), ("end_byte", .natural s.endByte),
    ("start_line", .natural s.startLine), ("start_column", .natural s.startColumn),
    ("end_line", .natural s.endLine), ("end_column", .natural s.endColumn)]

def fieldNames : List String :=
  ["start_byte", "end_byte", "start_line", "start_column", "end_line", "end_column"]

def ofJson? (v : Json) : Option Span := do
  let v ← v.byPosition fieldNames
  return {
    startByte := ← v.required "start_byte" nat?
    endByte := ← v.required "end_byte" nat?
    startLine := ← v.required "start_line" nat?
    startColumn := ← v.required "start_column" nat?
    endLine := ← v.required "end_line" nat?
    endColumn := ← v.required "end_column" nat? }

end Span

namespace Node

def toJson (n : Node) : Json :=
  .obj ([("kind", .str n.kind.text), ("name", .str n.name), ("line", .natural n.line)] ++
    present "content" (n.content.map .str) ++ present "span" (n.span.map Span.toJson) ++
    (if n.exported then [("exported", .bool true)] else []) ++ present "tree" n.tree)

def fieldNames : List String := ["kind", "name", "line", "content", "span", "exported", "tree"]

def ofJson? (v : Json) : Option Node := do
  let v ← v.byPosition fieldNames
  return {
    kind := .ofText (← v.required "kind" str?)
    name := ← v.required "name" str?
    line := ← v.required "line" nat?
    content := ← v.optional "content" str?
    span := ← v.optional "span" Span.ofJson?
    exported := ← match v.get? "exported" with
      | none => some false
      | some field => field.bool?
    tree := ← v.optional "tree" some }

/-- The unit without its tree. -/
def withoutTree (n : Node) : Node := { n with tree := none }

end Node

namespace Metadata

def toJson (m : Metadata) : Json :=
  .obj [("line_count", .natural m.lineCount), ("byte_size", .natural m.byteSize),
    ("function_names", .strings m.functionNames.toList),
    ("class_names", .strings m.classNames.toList),
    ("import_names", .strings m.importNames.toList)]

def namesOfJson? (v : Json) : Option NameSet := (listOf str? v).map NameSet.ofList

def fieldNames : List String :=
  ["line_count", "byte_size", "function_names", "class_names", "import_names"]

def ofJson? (v : Json) : Option Metadata := do
  let v ← v.byPosition fieldNames
  return {
    lineCount := ← v.required "line_count" nat?
    byteSize := ← v.required "byte_size" nat?
    functionNames := ← v.required "function_names" namesOfJson?
    classNames := ← v.required "class_names" namesOfJson?
    importNames := ← v.required "import_names" namesOfJson? }

end Metadata

def Language.ofJson? (v : Json) : Option Language := v.choice?.bind Language.ofId?

def Strategy.ofJson? (v : Json) : Option Strategy := v.choice?.bind Strategy.ofText?

namespace Record

def toJson (r : Record) : Json :=
  .obj ([("path", .str r.path), ("language", .str r.language.id)] ++
    present "strategy" (r.strategy.map fun strategy => .str strategy.text) ++
    [("syntax_body", (r.body.map fun nodes => Json.arr (nodes.map Node.toJson)).getD .null)] ++
    present "error" (r.error.map .str) ++ [("metadata", r.metadata.toJson)])

def fieldNames : List String :=
  ["path", "language", "strategy", "syntax_body", "error", "metadata"]

def ofJson? (v : Json) : Option Record := do
  let v ← v.byPosition fieldNames
  return {
    path := ← v.required "path" str?
    language := ← v.required "language" Language.ofJson?
    strategy := ← v.optional "strategy" Strategy.ofJson?
    body := ← v.optional "syntax_body" (listOf Node.ofJson?)
    error := ← v.optional "error" str?
    metadata := ← v.required "metadata" Metadata.ofJson? }

/-- The record with the trees of its units left out. -/
def withoutTrees (r : Record) : Record :=
  { r with body := r.body.map fun nodes => nodes.map Node.withoutTree }

end Record

namespace RecordSet

def toJson (s : RecordSet) : Json := .arr (s.toList.map Record.toJson)

def ofJson? (v : Json) : Option RecordSet := (listOf Record.ofJson? v).map ofList

end RecordSet

end SourceAtlas
