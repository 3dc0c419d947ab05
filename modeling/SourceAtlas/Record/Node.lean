import SourceAtlas.Json.Basic

/-!
The structural units found in a file.

* `NodeKind`: what a unit is. The line rules only produce named kinds; parsers also report their
  own node types, as `NodeKind.grammar`.
* `NodeKind.family?`: the functions, classes and imports among the kinds.
* `Span`: where a unit stands. `Node`: a unit with its name and place.
-/

namespace SourceAtlas

/-- The sets of names that a file's units are sorted into. -/
inductive Family where
  | functions
  | classes
  | imports
deriving DecidableEq, Repr

inductive NodeKind where
  | functionDeclaration
  | arrowFunction
  | asyncArrowFunction
  | functionComponent
  | classDeclaration
  | interfaceDeclaration
  | typeAlias
  | importDeclaration
  | exportDeclaration
  | namedExport
  | hook
  | reduxSlice
  | reduxStore
  | structDeclaration
  | implDeclaration
  | useDeclaration
  | methodDeclaration
  | functionDef
  | classDef
  | plainImport
  | importFrom
  | moduleDeclaration
  | namespaceDeclaration
  | enumDeclaration
  | traitDeclaration
  | grammar (type : String)
deriving DecidableEq, Repr, Inhabited

namespace NodeKind

def text : NodeKind → String
  | functionDeclaration => "FunctionDeclaration"
  | arrowFunction => "ArrowFunction"
  | asyncArrowFunction => "AsyncArrowFunction"
  | functionComponent => "FunctionComponent"
  | classDeclaration => "ClassDeclaration"
  | interfaceDeclaration => "InterfaceDeclaration"
  | typeAlias => "TypeAlias"
  | importDeclaration => "ImportDeclaration"
  | exportDeclaration => "ExportDeclaration"
  | namedExport => "NamedExport"
  | hook => "Hook"
  | reduxSlice => "ReduxSlice"
  | reduxStore => "ReduxStore"
  | structDeclaration => "StructDeclaration"
  | implDeclaration => "ImplDeclaration"
  | useDeclaration => "UseDeclaration"
  | methodDeclaration => "MethodDeclaration"
  | functionDef => "FunctionDef"
  | classDef => "ClassDef"
  | plainImport => "Import"
  | importFrom => "ImportFrom"
  | moduleDeclaration => "ModuleDeclaration"
  | namespaceDeclaration => "NamespaceDeclaration"
  | enumDeclaration => "EnumDeclaration"
  | traitDeclaration => "TraitDeclaration"
  | grammar type => type

/-- All kinds with a name of their own. -/
def named : List NodeKind :=
  [functionDeclaration, arrowFunction, asyncArrowFunction, functionComponent, classDeclaration,
    interfaceDeclaration, typeAlias, importDeclaration, exportDeclaration, namedExport, hook,
    reduxSlice, reduxStore, structDeclaration, implDeclaration, useDeclaration, methodDeclaration,
    functionDef, classDef, plainImport, importFrom, moduleDeclaration, namespaceDeclaration,
    enumDeclaration, traitDeclaration]

/-- The kind with the given name, or the parser's node type of that name. -/
def ofText (s : String) : NodeKind := (named.find? fun k => k.text == s).getD (grammar s)

def isGrammar : NodeKind → Bool
  | grammar _ => true
  | _ => false

/-- The family of a parser's node type. -/
def grammarFamily? (type : String) : Option Family :=
  if ["function_declaration", "generator_function_declaration", "function_expression", "function",
      "arrow_function", "AsyncFunctionDef"].contains type then some .functions
  else if ["class_declaration", "abstract_class_declaration"].contains type then some .classes
  else if type = "import_statement" then some .imports
  else none

def family? : NodeKind → Option Family
  | functionDeclaration | functionDef | arrowFunction | asyncArrowFunction | functionComponent
  | methodDeclaration => some .functions
  | classDeclaration | classDef => some .classes
  | importDeclaration | plainImport | importFrom | useDeclaration => some .imports
  | grammar type => grammarFamily? type
  | _ => none

end NodeKind

/-- A stretch of source text: byte offsets, lines counted from one, columns counted in bytes. -/
structure Span where
  startByte : Nat
  endByte : Nat
  startLine : Nat
  startColumn : Nat
  endLine : Nat
  endColumn : Nat
deriving DecidableEq, Repr, Inhabited

/-- The name of a unit that has none. -/
def anonymous : String := "anonymous"

/-- A structural unit. Units found by line rules carry their line as `content`, units found by a
parser their `span` and `tree`. -/
structure Node where
  kind : NodeKind
  name : String
  line : Nat
  content : Option String
  span : Option Span
  exported : Bool
  tree : Option Json
deriving BEq, Inhabited

namespace Node

def nameOr (name : Option String) : String :=
  match name with
  | some name => if name.isEmpty then anonymous else name
  | none => anonymous

/-- A unit found by a line rule. -/
def ofLine (kind : NodeKind) (name : Option String) (line : Nat) (content : String) : Node :=
  { kind, name := nameOr name, line, content := some content, span := none, exported := false,
    tree := none }

/-- A unit found by a parser. -/
def ofParse (type : String) (name : Option String) (span : Span) (exported : Bool) (tree : Json) :
    Node :=
  { kind := .ofText type, name := nameOr name, line := span.startLine, content := none,
    span := some span, exported, tree := some tree }

def isAnonymous (n : Node) : Bool := n.name == anonymous

end Node

end SourceAtlas
