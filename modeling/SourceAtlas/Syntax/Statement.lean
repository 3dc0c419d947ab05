import SourceAtlas.Record.Basic
import SourceAtlas.Syntax.Cursor

/-!
The top-level statements of a JavaScript or TypeScript file.

* `Dialect`: the grammar a file is read with.
* `outline`: kind and name of a statement; an export is looked through.
* `statements`: the units of a file, one for each statement, or why there are none.
-/

namespace SourceAtlas.Syntax

inductive Dialect where
  | typeScript
  /-- TypeScript with embedded markup; it also covers JavaScript. -/
  | markup
deriving DecidableEq, Repr

/-- Files with the extension `ts` are read as plain TypeScript. -/
def Dialect.ofPath (path : String) : Dialect :=
  let ext := Path.extension? (Text.bytes path)
  if (ext.map fun ext => ext.toList.map Char.toLower) = some ['t', 's'] then
    .typeScript
  else .markup

/-- What the grammar of a dialect is called. -/
def Dialect.name : Dialect → String
  | typeScript => "TypeScript"
  | markup => "TSX"

/-- Why the grammar gives no units. -/
inductive Fault where
  | noTree
  | errorNear (line : Nat)
  | tooDeep (limit : Nat)
deriving DecidableEq, Repr

/-- How a fault of the grammar of a dialect is worded. -/
def Fault.message (dialect : Dialect) : Fault → String
  | noTree => dialect.name ++ " parser returned no tree"
  | errorNear line => "syntax error near line " ++ toString line
  | tooDeep limit => "tree nested deeper than " ++ toString limit ++ " levels"

/-- A text without the quotes around it. -/
def unquote (s : String) : String :=
  let isQuote (c : Char) : Bool := c == '"' || c == '\x27' || c == '\x60'
  String.ofList (((s.toList.dropWhile isQuote).reverse.dropWhile isQuote).reverse)

/-- The name of an export without a declaration: the exported value, the names in braces, or the
module that is passed on. -/
def exportName? (content : String) (t : Tree) : Option String :=
  match t.childAt? "value" with
  | some value =>
    let named := if value.kind = "identifier" then some value else value.childAt? "name"
    named.map fun n => Tree.textOf content n.label
  | none =>
    match t.namedChild? "export_clause" with
    | some clause =>
      let names := (clause.namedChildren.filterMap fun spec => spec.childAt? "name").map fun n =>
        Tree.textOf content n.label
      if names.isEmpty then none else some (", ".intercalate names)
    | none => (t.childAt? "source").map fun source => unquote (Tree.textOf content source.label)

/-- Node types of a value that make its constant a function. -/
def functionValues : List String := ["arrow_function", "function_expression", "function"]

/-- Node type and name of a declaration. -/
def declarationOutline (content : String) (t : Tree) : String × Option String :=
  let text (n : Tree) : String := Tree.textOf content n.label
  match t.kind with
  | "lexical_declaration" | "variable_declaration" =>
    let declarator := t.namedChild? "variable_declarator"
    let name := (declarator.bind fun d => d.childAt? "name").map text
    let value := (declarator.bind fun d => d.childAt? "value").filter fun v =>
      functionValues.contains v.kind
    ((value.map Tree.kind).getD t.kind, name)
  | "import_statement" => (t.kind, (t.childAt? "source").map fun source => unquote (text source))
  | "expression_statement" =>
    let call := t.namedChildren.head?.filter fun e => e.kind == "call_expression"
    (t.kind, (call.bind fun c => c.childAt? "function").map text)
  | _ => (t.kind, (t.childAt? "name").map text)

/-- Node type, name and whether it is exported, of a statement. -/
def outline (content : String) (t : Tree) : String × Option String × Bool :=
  if t.kind = "export_statement" then
    match t.childAt? "declaration" with
    | some declaration =>
      let (type, name) := declarationOutline content declaration
      (type, name, true)
    | none => (t.kind, exportName? content t, true)
  else
    let (type, name) := declarationOutline content t
    (type, name, false)

/-- The statements of a file with their numbers in preorder. -/
def topLevel (root : Tree) : List (Tree × Nat) :=
  (Tree.withNumbers 1 root.children).filter fun entry =>
    entry.1.label.named && !entry.1.label.extra

/-- The unit of a statement with the given description. -/
def statementNode (content : String) (starts : List Nat) (t : Tree) (description : Json) : Node :=
  let (type, name, exported) := outline content t
  .ofParse type name (Tree.spanOf starts t.label) exported description

/-- The units of a file, given its syntax tree. A tree with an error, or deeper than `limit`, gives
none. -/
def statements (limit : Nat) (content : String) (tree : Option Tree) : Except Fault (List Node) :=
  match tree with
  | none => .error .noTree
  | some root =>
    let starts := Text.lineStarts content
    if root.label.hasError then
      let line := root.firstFault?.map fun label => (Text.locate starts label.startByte).1 + 1
      .error (.errorNear (line.getD 1))
    else if limit < root.depthWithin limit then .error (.tooDeep limit)
    else
      let top := topLevel root
      let descriptions := ((root.graph content).describeAll [] (top.map Prod.snd)).1
      .ok (List.zipWith (statementNode content starts) (top.map Prod.fst) descriptions)

end SourceAtlas.Syntax
