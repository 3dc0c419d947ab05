import SourceAtlas.Text.Lines
import SourceAtlas.Text.Utf8

/-!
Paths as bytes with slashes between their parts. They need not be text.

* `Path.components`: the parts that matter. Repeated and trailing slashes and the part `.` are left
  out, except a `.` at the very beginning.
* `Path.join`: a name below a path.
* `Path.fileName?`, `Path.extension?`: the last part and what follows its last dot.
* `Path.relative`: the names that lead from a root to a path, as a text.
-/

namespace SourceAtlas

/-- A path, or a name in one, as the operating system has it. -/
abbrev OsText := List UInt8

namespace Path

inductive Component where
  | root
  | current
  | parent
  | name (text : OsText)
deriving DecidableEq, Repr

def slash : UInt8 := '/'.toUInt8

def dot : UInt8 := '.'.toUInt8

def isSlash (b : UInt8) : Bool := b == slash

def isAbsolute (path : OsText) : Bool := path.head? == some slash

/-- A part of a path that is not at its beginning. -/
def laterComponent? (piece : OsText) : Option Component :=
  if piece = [] ∨ piece = [dot] then none
  else if piece = [dot, dot] then some .parent
  else some (.name piece)

def firstComponent? (piece : OsText) : Option Component :=
  if piece = [dot] then some .current else laterComponent? piece

/-- The parts between slashes that matter. -/
def components (path : OsText) : List Component :=
  match Text.splitOn isSlash path with
  | [] => []
  | first :: rest =>
    let start := if isAbsolute path then [.root] else (firstComponent? first).toList
    start ++ rest.filterMap laterComponent?

/-- `name` below `base`; an absolute name stands for itself. -/
def join (base name : OsText) : OsText :=
  if isAbsolute name || base.isEmpty then name
  else if base.getLast? = some slash then base ++ name
  else base ++ slash :: name

def Component.name? : Component → Option OsText
  | .name text => some text
  | _ => none

/-- The last part, if it is a name. -/
def fileName? (path : OsText) : Option OsText :=
  (components path).getLast?.bind Component.name?

/-- What follows the last dot of a file name. A dot at the beginning does not count. -/
def extensionOf? (name : OsText) : Option OsText :=
  let tail := name.reverse.takeWhile (· != dot)
  let before := (name.reverse.drop tail.length).drop 1
  if tail.length = name.length ∨ before = [] then none else some tail.reverse

/-- The extension of a path, if it is text. -/
def extension? (path : OsText) : Option String :=
  ((fileName? path).bind extensionOf?).bind Text.Utf8.decode?

/-- `path` without the components of `root` in front, or all of it if it does not begin with
them. -/
def below (root path : List Component) : List Component :=
  if root.isPrefixOf path then path.drop root.length else path

/-- The names that lead from `root` to `path`, with slashes between them. What is no text in a name
is replaced. -/
def relative (root path : OsText) : String :=
  "/".intercalate
    (((below (components root) (components path)).filterMap Component.name?).map
      Text.Utf8.decodeLossy)

end Path

end SourceAtlas
