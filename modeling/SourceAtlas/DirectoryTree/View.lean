import SourceAtlas.DirectoryTree.Basic
import SourceAtlas.Text.Blank

/-!
Directory trees drawn with lines, one entry in a line.

* `DirectoryTree.render`: the drawing of a tree.
* `TreeViewFault`: a line that does not belong to a drawing.
* `DirectoryTree.parse`: the tree that a drawing shows.
-/

namespace SourceAtlas

namespace TreeEntry

/-- What stands before the name of an entry that others follow. -/
def branch : List Char := ['├', '─', '─', ' ']

/-- What stands before the name of the last entry of a directory. -/
def lastBranch : List Char := ['└', '─', '─', ' ']

/-- What stands below an entry that others follow. -/
def pipe : List Char := ['│', ' ', ' ', ' ']

/-- What stands below the last entry of a directory. -/
def gap : List Char := [' ', ' ', ' ', ' ']

mutual

/-- The lines for the entries of a directory, each beginning with `indent`. -/
def lines (indent : List Char) : List (String × TreeEntry) → List (List Char)
  | [] => []
  | named :: rest => linesAt indent rest.isEmpty named ++ lines indent rest

/-- The line of an entry and the lines of what is below it. -/
def linesAt (indent : List Char) (last : Bool) : String × TreeEntry → List (List Char)
  | (name, entry) =>
    (indent ++ (if last then lastBranch else branch) ++ name.toList) ::
      linesBelow (indent ++ if last then gap else pipe) entry

def linesBelow (indent : List Char) : TreeEntry → List (List Char)
  | file => []
  | directory entries => lines indent entries

end

end TreeEntry

/-- Why a line does not belong to a drawing. -/
inductive TreeViewReason where
  | noConnector
  | noName
  /-- It is so many levels deeper than the line above it allows. -/
  | tooDeep (levels : Nat)
deriving DecidableEq, Repr

def TreeViewReason.message : TreeViewReason → String
  | noConnector => "missing connector"
  | noName => "empty entry name"
  | tooDeep levels => "indented " ++ toString levels ++ " levels below its parent"

structure TreeViewFault where
  /-- The number of the line, the first one being 1. -/
  line : Nat
  reason : TreeViewReason
deriving DecidableEq, Repr

def TreeViewFault.message (f : TreeViewFault) : String :=
  "Malformed tree view at line " ++ toString f.line ++ ": " ++ f.reason.message

namespace DirectoryTree

/-- The drawing of a tree; every line is ended. -/
def render (t : DirectoryTree) : String :=
  String.ofList ((TreeEntry.lines [] t.entries).flatMap fun line => line ++ ['\n'])

/-! ## reading a drawing -/

/-- The depth of a line, and the line without its indentation. -/
def unindent : List Char → Nat × List Char
  | '│' :: ' ' :: ' ' :: ' ' :: rest => ((unindent rest).1 + 1, (unindent rest).2)
  | ' ' :: ' ' :: ' ' :: ' ' :: rest => ((unindent rest).1 + 1, (unindent rest).2)
  | line => (0, line)

/-- What follows the connector at the beginning of a line. -/
def afterConnector? : List Char → Option (List Char)
  | '├' :: '─' :: '─' :: ' ' :: rest => some rest
  | '└' :: '─' :: '─' :: ' ' :: rest => some rest
  | _ => none

/-- Depth and name on a line below a line that allows depths up to `deepest`. -/
def readLine (deepest : Nat) (line : List Char) : Except TreeViewReason (Nat × String) :=
  let (depth, rest) := unindent line
  match afterConnector? rest with
  | none => .error .noConnector
  | some name =>
    if name.isEmpty then .error .noName
    else if deepest < depth then .error (.tooDeep (depth - deepest))
    else .ok (depth, String.ofList name)

/-- Adds the lines of a drawing to a tree. The first of them has the given number, and `path` leads
to the entry on the line above. -/
def parseFrom (number : Nat) (path : List String) (t : DirectoryTree) :
    List (List Char) → Except TreeViewFault DirectoryTree
  | [] => .ok t
  | line :: rest =>
    if (Text.trim line).isEmpty then parseFrom (number + 1) path t rest
    else
      match readLine path.length line with
      | .error reason => .error ⟨number, reason⟩
      | .ok (depth, name) =>
        let path := path.take depth ++ [name]
        parseFrom (number + 1) path (t.insert path) rest

/-- The tree that a drawing shows. Blank lines do not count. -/
def parse (text : String) : Except TreeViewFault DirectoryTree :=
  parseFrom 1 [] empty (Text.terminatedLines text.toList)

end DirectoryTree

end SourceAtlas
