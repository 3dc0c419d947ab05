import SourceAtlas.Ignore.Rule
import SourceAtlas.Settings.Basic

/-!
The files below a directory.

* `Finding`: a file, or an item that cannot be looked into.
* `Walk.stepAt`: what is done at one item of a directory.
* `Walk.visit`: what is found in a directory and below it, sorted by name in every directory.
* `findings`: what is found below a root.
-/

namespace SourceAtlas

inductive Finding where
  /-- A file: the path to it, and the names that lead to it from the root. -/
  | file (path : OsText) (relative : String)
  | unreadable (relative message : String)
deriving DecidableEq, Repr

/-- Whether directories of a name are left out. A name that is no text never is. -/
def WalkSettings.excludes (settings : WalkSettings) (name : OsText) : Bool :=
  (Text.Utf8.decode? name).any settings.excludedNames.contains

/-- A walk through the directories of a file system. -/
structure Walk where
  fs : FileSystem
  settings : WalkSettings
  root : OsText

/-- A directory that is being visited. -/
structure Visit where
  place : Place
  path : OsText
  /-- This directory and those around it up to the root, each with its path, the innermost first. -/
  around : List (Place × OsText)
  /-- The ignore rules of these directories. -/
  rules : List Ignore.DirectoryRules

/-- What an item turns out to be. -/
inductive Sight where
  | file
  | directory (place : Place) (linked : Bool)
  /-- A link that is not followed. -/
  | link
  | broken (cause : FileError)
  /-- A link to a directory that may not be opened, so that nobody can tell whether it is one of
  those around the link. -/
  | closed

namespace Walk

/-- What an item in a directory is; links are followed if the settings say so. All links on the way
from the root count. -/
def look (w : Walk) (v : Visit) (name : OsText) : Item → Sight
  | .file .. => .file
  | .directory .. => .directory (v.place ++ [name]) false
  | .link _ =>
    if w.settings.followLinks then
      match w.fs.locate (Path.join v.path name) with
      | .error cause => .broken cause
      | .ok place =>
        match w.fs.top.at? place with
        | some (.directory mode _) => if mode.lists then .directory place true else .closed
        | some _ => .file
        | none => .broken .notFound
    else .link

/-- The visit of a directory; the rules are those of the directories around it. -/
def visitOf (w : Walk) (place : Place) (path : OsText) (around : List (Place × OsText))
    (rules : List Ignore.DirectoryRules) : Visit where
  place := place
  path := path
  around := (place, path) :: around
  rules := if w.settings.respectIgnoreFiles then .read w.fs path :: rules else rules

/-- The visit of the root, which is at the given place. -/
def start (w : Walk) (place : Place) : Visit := w.visitOf place w.root [] []

/-- The item at a path cannot be looked into. -/
def failure (w : Walk) (path : OsText) (cause : FileError) : Finding :=
  .unreadable (Path.relative w.root path)
    ("IO error for operation on " ++ Text.Utf8.decodeLossy path ++ ": " ++ cause.message)

/-- A link leads back to a directory around it. -/
def loop (w : Walk) (path ancestor : OsText) : Finding :=
  .unreadable (Path.relative w.root path)
    ("File system loop found: " ++ Text.Utf8.decodeLossy path ++ " points to an ancestor " ++
      Text.Utf8.decodeLossy ancestor)

/-- A link leads to a directory that may not be opened. What is noted does not say where. -/
def closedLink : Finding := .unreadable "" FileError.permissionDenied.message

/-- What a walk does at one item of a directory. -/
inductive Step where
  /-- It notes what it found, if anything, and goes on with the next item. -/
  | note (found : Option Finding)
  | enter (inner : Visit)

def stepAt (w : Walk) (v : Visit) (name : OsText) (item : Item) : Step :=
  let path := Path.join v.path name
  let ignored (isDirectory : Bool) := Ignore.isIgnored v.rules path isDirectory
  match w.look v name item with
  | .link => .note none
  | .broken cause => .note (some (w.failure path cause))
  | .closed => .note (some closedLink)
  | .file =>
    .note (if ignored false then none else some (.file path (Path.relative w.root path)))
  | .directory place linked =>
    match if linked then v.around.find? fun a => a.1 == place else none with
    | some ancestor => .note (some (w.loop path ancestor.2))
    | none =>
      if w.settings.excludes name || ignored true then .note none
      else .enter (w.visitOf place path v.around v.rules)

/-- The items of a directory, sorted by name. -/
def sortedItems (items : List (OsText × Item)) : List (OsText × Item) :=
  items.mergeSort fun a b => decide (a.1 ≤ b.1)

/-- What is found in a directory and below it, down to a given depth. -/
def visit (w : Walk) : Nat → Visit → List Finding
  | 0, _ => []
  | depth + 1, v =>
    match w.fs.list v.path with
    | .error cause => [w.failure v.path cause]
    | .ok items =>
      (sortedItems items).flatMap fun named =>
        match w.stepAt v named.1 named.2 with
        | .note found => found.toList
        | .enter inner => w.visit depth inner

/-- A depth that no walk exceeds. A link is entered only if it leads to a directory that is not
around it, and between two links the walk goes down inside the topmost directory. -/
def depthBound (fs : FileSystem) : Nat :=
  (fs.top.countDirectories + 1) * (fs.top.countDirectories + 1)

end Walk

/-- The place of a root, which has to be a directory that can be listed. -/
def rootPlace (fs : FileSystem) (root : OsText) : Except RunError Place :=
  let shown := Text.Utf8.decodeLossy root
  match fs.locate root with
  | .error cause => .error (.ofRoot shown cause)
  | .ok place =>
    match fs.top.at? place with
    | some (.directory mode _) =>
      if mode.lists then .ok place else .error (.rootPermissionDenied shown)
    | _ => .error (.rootNotDirectory shown)

/-- A root that stands for the standard input instead of a directory. -/
def isStandardInput (root : OsText) : Bool := Path.components root == [.name (Text.bytes "-")]

/-- What is found below a root, in the order of the walk. -/
def findings (fs : FileSystem) (settings : WalkSettings) (root : OsText) :
    Except RunError (List Finding) :=
  match rootPlace fs root with
  | .error e => .error e
  | .ok place =>
    if isStandardInput root then .ok []
    else
      let w : Walk := ⟨fs, settings, root⟩
      .ok (w.visit (Walk.depthBound fs) (w.start place))

end SourceAtlas
