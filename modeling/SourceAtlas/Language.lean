import SourceAtlas.Ordered.Table
import SourceAtlas.Path
import SourceAtlas.Text.Lowercase

/-!
The programming languages that are told apart.

* `Language`: the languages, and `unknown` for all others.
* `Language.id`, `Language.displayName`, `Language.extensions`, `Language.commentMarkers`.
* `Language.ofExtension`, `Language.ofPath`, `Language.ofName?`, `Language.ofId?`.
* `Language.extensionTable`: every extension, with its dot, and its language.
-/

namespace SourceAtlas

inductive Language where
  | javaScript
  | typeScript
  | python
  | java
  | go
  | rust
  | cpp
  | c
  | cSharp
  | php
  | ruby
  | unknown
deriving DecidableEq, Repr, Inhabited

namespace Language

/-- The lower-case name used in records. -/
def id : Language → String
  | javaScript => "javascript"
  | typeScript => "typescript"
  | python => "python"
  | java => "java"
  | go => "go"
  | rust => "rust"
  | cpp => "cpp"
  | c => "c"
  | cSharp => "csharp"
  | php => "php"
  | ruby => "ruby"
  | unknown => "unknown"

/-- The name shown to people. -/
def displayName : Language → String
  | javaScript => "JavaScript"
  | typeScript => "TypeScript"
  | python => "Python"
  | java => "Java"
  | go => "Go"
  | rust => "Rust"
  | cpp => "C++"
  | c => "C"
  | cSharp => "C#"
  | php => "PHP"
  | ruby => "Ruby"
  | unknown => "Unknown"

/-- File extensions, without the dot. -/
def extensions : Language → List String
  | javaScript => ["js", "jsx"]
  | typeScript => ["ts", "tsx"]
  | python => ["py"]
  | java => ["java"]
  | go => ["go"]
  | rust => ["rs"]
  | cpp => ["cpp"]
  | c => ["c"]
  | cSharp => ["cs"]
  | php => ["php"]
  | ruby => ["rb"]
  | unknown => []

/-- What a line begins with if it is, or opens, a comment. -/
def commentMarkers : Language → List String
  | python => ["#"]
  | php => ["//", "#", "/*"]
  | ruby => ["#", "=begin"]
  | unknown => []
  | _ => ["//", "/*"]

/-- A parse of the whole file is tried before the line rules. -/
def hasParser : Language → Bool
  | javaScript | typeScript | python => true
  | _ => false

def isKnown (l : Language) : Bool := l != unknown

/-- All languages but `unknown`. -/
def known : List Language :=
  [javaScript, typeScript, python, java, go, rust, cpp, c, cSharp, php, ruby]

/-- All languages in their order. -/
def all : List Language := known ++ [unknown]

/-- The place of a language in the order of all. -/
def position (l : Language) : Nat := all.idxOf l

/-- The language of an extension, with or without dots in front, in upper or lower case. -/
def ofExtension (ext : String) : Language :=
  let ext := Text.lower (String.ofList (ext.toList.dropWhile (· == '.')))
  (known.find? fun l => l.extensions.contains ext).getD unknown

def ofPath (path : OsText) : Language :=
  match Path.extension? path with
  | some ext => ofExtension ext
  | none => unknown

/-- The language with the given name for people or for records, in upper or lower case. -/
def ofName? (name : String) : Option Language :=
  let name := Text.lower name
  match known.find? fun l => l.id == name || Text.lower l.displayName == name with
  | some l => some l
  | none => if name = "" ∨ name = "unknown" then some unknown else none

/-- The language with exactly the given name for records. -/
def ofId? (name : String) : Option Language := all.find? fun l => l.id == name

/-- Every extension, with its dot, and its language. -/
def extensionTable : Table Language :=
  Table.ofList (known.flatMap fun l => l.extensions.map fun ext => ("." ++ ext, l))

end Language

/-- The lower-case extension of a path, with its dot. -/
def dottedExtension? (path : OsText) : Option String :=
  (Path.extension? path).map fun ext => "." ++ Text.lower ext

end SourceAtlas
