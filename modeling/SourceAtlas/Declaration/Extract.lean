import SourceAtlas.Declaration.Catalog

/-!
The declarations of a file, found line by line.

* `lineNodes`: what the rules find in one line.
* `extract`: what they find in all lines that are neither blank nor comments. Of several units with
  the same kind and name only the first is kept.
-/

namespace SourceAtlas.Declaration

/-- Words that a loose rule may take for the name of a function. -/
def controlKeywords : List String :=
  ["if", "else", "for", "while", "switch", "return", "sizeof", "catch", "do", "new", "delete"]

/-- The unit that a rule finds in a trimmed line. -/
def Rule.node? (rule : Rule) (number width : Nat) (line : List Char) : Option Node :=
  match rule.program.find? line with
  | none => none
  | some kept =>
    let name := kept.map fun cs => String.ofList (Text.trim cs)
    if rule.kind.family? = some .functions && name.any controlKeywords.contains then none
    else some (.ofLine rule.kind name number (String.ofList (Text.shorten width line)))

/-- The line is blank or begins with a comment. -/
def isSkipped (markers : List String) (line : List Char) : Bool :=
  line.isEmpty || markers.any fun marker => marker.toList.isPrefixOf line

/-- The units of one line, in the order of the rules. -/
def lineNodes (language : Language) (number width : Nat) (line : List Char) : List Node :=
  let line := Text.trim line
  if isSkipped language.commentMarkers line then []
  else (catalog language).filterMap fun rule => rule.node? number width line

/-- Two units declare the same thing. -/
def sameDeclaration (a b : Node) : Bool := a.kind == b.kind && a.name == b.name

/-- The first of all units that declare the same thing, given those `seen` before. -/
def distinct (seen : List Node) : List Node → List Node
  | [] => []
  | n :: rest =>
    if seen.any (sameDeclaration n) then distinct seen rest else n :: distinct (n :: seen) rest

/-- The units of all lines, the first of which has the given number. -/
def allNodes (language : Language) (width : Nat) : Nat → List (List Char) → List Node
  | _, [] => []
  | number, line :: lines =>
    lineNodes language number width line ++ allNodes language width (number + 1) lines

/-- The declarations that the rules of a language find in a text; longer lines are shown cut to
`width` characters. -/
def extract (language : Language) (width : Nat) (content : String) : List Node :=
  distinct [] (allNodes language width 1 (Text.splitLines content.toList))

end SourceAtlas.Declaration
