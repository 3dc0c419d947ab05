import SourceAtlas.Record.Basic

/-!
The statements of a Python file, as the language's own parser dumps them in JSON.

* `extentOf`: the lines and columns that a statement gives. `statementSpan`: the bytes between them.
* `statementNames`: what it declares; an import names every module it brings in.
* `statements?`: the units of a dump, one for each name of each statement, or `none` if the dump
  has no list of statements.

The numbers in a dump are not checked beforehand. A sum or a name that becomes too large breaks the
computation off.
-/

namespace SourceAtlas.Interpreter

/-- Byte offsets are 64-bit words. -/
def offsetBound : Nat := UInt64.size

/-- Texts have fewer bytes than half a word can count. Memory for them is taken for granted. -/
def textBound : Nat := offsetBound / 2

/-- The byte offset of a column in a line counted from one. A line that does not exist begins at
zero. -/
def offsetOf (starts : List Nat) (line column : Nat) : Except Crash Nat :=
  let offset := starts[line - 1]?.getD 0 + column
  if offset < offsetBound then .ok offset else .error .offsetOverflow

/-- The lines, counted from one, and the columns between which a statement stands. -/
structure Extent where
  startLine : Nat
  startColumn : Nat
  endLine : Nat
  endColumn : Nat
deriving DecidableEq, Repr

/-- What a statement says of its place. A missing end is taken from the beginning, a missing
beginning is the first line. -/
def extentOf (statement : Json) : Extent :=
  let number (name : String) : Option Nat := (statement.get? name).bind Json.nat?
  let startLine := max ((number "lineno").getD 1) 1
  let startColumn := (number "col_offset").getD 0
  { startLine, startColumn
    endLine := max ((number "end_lineno").getD startLine) 1
    endColumn := (number "end_col_offset").getD startColumn }

/-- Where a statement stands. -/
def statementSpan (starts : List Nat) (statement : Json) : Except Crash Span :=
  let extent := extentOf statement
  (offsetOf starts extent.startLine extent.startColumn).bind fun startByte =>
    (offsetOf starts extent.endLine extent.endColumn).map fun endByte =>
      { startByte, endByte
        startLine := extent.startLine, startColumn := extent.startColumn
        endLine := extent.endLine, endColumn := extent.endColumn }

/-- The name in a field, if it is a text. -/
def nameIn (v : Json) (field : String) : Option String := (v.get? field).bind Json.str?

/-- The number of dots in front of the module of an import. -/
def levelOf (statement : Json) : Nat := ((statement.get? "level").bind Json.nat?).getD 0

def moduleOf (statement : Json) : String := (nameIn statement "module").getD ""

/-- The module that an import takes names from, behind a dot for each level. -/
def fromName (statement : Json) : String :=
  String.ofList (List.replicate (levelOf statement) '.') ++ moduleOf statement

/-- The module a relative import starts from, unless the name of it is empty. -/
def relativeModule (statement : Json) : Except Crash (Option String) :=
  if levelOf statement + (moduleOf statement).utf8ByteSize < textBound then
    .ok (if (fromName statement).isEmpty then none else some (fromName statement))
  else .error .textOverflow

/-- What a statement of the given type declares, one entry for each unit. -/
def statementNames (type : String) (statement : Json) : Except Crash (List (Option String)) :=
  match type with
  | "Import" =>
    match (statement.get? "names").bind Json.arr? with
    | some aliases => .ok (aliases.map fun entry => nameIn entry "name")
    | none => .ok [none]
  | "ImportFrom" => (relativeModule statement).map fun name => [name]
  | _ => .ok [nameIn statement "name"]

/-- The units of one statement; there are none if it has no type. -/
def statementNodes (starts : List Nat) (statement : Json) : Except Crash (List Node) :=
  match nameIn statement "type" with
  | none => .ok []
  | some type =>
    (statementSpan starts statement).bind fun span =>
      (statementNames type statement).map fun names =>
        names.map fun name => .ofParse type name span false statement

/-- The units of a dump. -/
def statements? (content : String) (dump : Json) : Except Crash (Option (List Node)) :=
  match (dump.get? "body").bind Json.arr? with
  | none => .ok none
  | some body =>
    (body.mapM (statementNodes (Text.lineStarts content))).map fun found => some found.flatten

end SourceAtlas.Interpreter
