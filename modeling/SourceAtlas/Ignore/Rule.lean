import SourceAtlas.FileSystem
import SourceAtlas.Ignore.Glob
import SourceAtlas.Text.Part

/-!
Ignore files: lists of globs for paths that are left out of a walk.

* `Rule`: a line of an ignore file.
* `Rule.ofLine?`: the rule on a line, if there is one.
* `DirectoryRules`: the rules that a directory has for what is below it.
* `isIgnored`: whether a path is left out, given the rules of all directories around it.
-/

namespace SourceAtlas.Ignore

structure Rule where
  /-- The paths are kept, whatever earlier rules say. -/
  keeps : Bool
  directoriesOnly : Bool
  program : Program

/-! ## reading -/

/-- The part of a line that matters: no blanks at the end, unless the last one is escaped. -/
def significant (line : List Char) : List Char :=
  if Text.endsWith line ['\\', ' '] then line else Text.trimEnd line

/-- How a line begins: whether the rule keeps paths, whether it starts at the directory of the
ignore file, and the rest. -/
def opening (line : List Char) : Bool × Bool × List Char :=
  match line with
  | '\\' :: '!' :: rest => (false, false, '!' :: rest)
  | '\\' :: '#' :: rest => (false, false, '#' :: rest)
  | '!' :: '/' :: rest => (true, true, rest)
  | '!' :: rest => (true, false, rest)
  | '/' :: rest => (false, true, rest)
  | _ => (false, false, line)

/-- A line without the slash at its end, and whether there was one. -/
def closing (line : List Char) : Bool × List Char :=
  match line.reverse with
  | '/' :: '\\' :: rest => (true, rest.reverse)
  | '/' :: rest => (true, rest.reverse)
  | _ => (false, line)

/-- The glob of a rule. Without a slash in it, it applies at any depth; the text `/**` at the end
stands for what is below a directory only. -/
def globText (anchored : Bool) (text : List Char) : List Char :=
  let floating := !anchored && !text.contains '/' && text != ['*', '*']
  let text := if floating then ['*', '*', '/'] ++ text else text
  if Text.endsWith text ['/', '*', '*'] then text ++ ['/', '*'] else text

/-- The rule on a line. Comments, empty lines and malformed globs give none. -/
def Rule.ofLine? (line : List Char) : Option Rule :=
  if line.head? = some '#' then none
  else
    let line := significant line
    if line.isEmpty then none
    else
      let (keeps, anchored, rest) := opening line
      let (directoriesOnly, text) := closing rest
      (Glob.parse? (globText anchored text)).map fun tokens =>
        { keeps, directoriesOnly, program := Glob.program tokens }

/-- The lines of a file before the first one that is not valid UTF-8. -/
def readableLines (bytes : List UInt8) : List (List Char) :=
  let units := Text.Utf8.decodeUnits bytes
  let valid := (units.takeWhile Option.isSome).filterMap id
  Text.terminatedLines
    (if valid.length = units.length then valid
    else (valid.reverse.dropWhile (· != '\n')).reverse)

/-- The rules in an ignore file. A byte order mark at its beginning does not count. -/
def rules (bytes : List UInt8) : List Rule :=
  let lines := match readableLines bytes with
    | [] => []
    | first :: rest => first.dropWhile (· == Char.ofNat 0xFEFF) :: rest
  lines.filterMap Rule.ofLine?

/-- The rules in the ignore file at a path; none if it cannot be read. -/
def rulesAt (fs : FileSystem) (path : OsText) : List Rule :=
  match fs.read path with
  | .ok bytes => rules bytes
  | .error _ => []

/-! ## directories -/

structure DirectoryRules where
  /-- The path of the directory. -/
  root : OsText
  /-- The rules for everybody. -/
  shared : List Rule
  /-- The rules of the local copy, which give way to the shared ones. -/
  personal : List Rule

/-- A path without a given beginning. -/
def without? (start path : OsText) : Option OsText :=
  if start.isPrefixOf path then some (path.drop start.length) else none

/-- A path without `./` in front. -/
def plain (path : OsText) : OsText := (without? [Path.dot, Path.slash] path).getD path

/-- The rules of the directory at a path. -/
def DirectoryRules.read (fs : FileSystem) (path : OsText) : DirectoryRules where
  root := plain path
  shared := rulesAt fs (Path.join path (Text.bytes ".gitignore"))
  personal :=
    rulesAt fs (Path.join (Path.join path (Text.bytes ".git")) (Text.bytes "info/exclude"))

/-- A path as seen from the directory with the rules. -/
def seenFrom (root path : OsText) : OsText :=
  let path := plain path
  if Path.components root = [.current] ∨ !path.contains Path.slash then path
  else
    match without? root path with
    | some rest => (without? [Path.slash] rest).getD rest
    | none => path

/-- What the rules of a directory say of a path: the last rule that fits decides. -/
def verdict? (root : OsText) (rules : List Rule) (path : OsText) (isDirectory : Bool) :
    Option Bool :=
  let seen := seenFrom root path
  let fits (rule : Rule) : Bool :=
    (isDirectory || !rule.directoriesOnly) && Glob.accepts rule.program seen
  (rules.reverse.find? fits).map fun rule => !rule.keeps

/-- Whether a path is left out. The rules of the innermost directory that has any for it decide. -/
def isIgnored (around : List DirectoryRules) (path : OsText) (isDirectory : Bool) : Bool :=
  let path := plain path
  let shared := around.findSome? fun d => verdict? d.root d.shared path isDirectory
  let own := around.findSome? fun d => verdict? d.root d.personal path isDirectory
  (shared.or own).getD false

end SourceAtlas.Ignore
