import SourceAtlas.Failure
import SourceAtlas.Ordered.Entries
import SourceAtlas.Path

/-!
File systems as values, as one process sees them.

* `Item`: a file with its bytes, a symbolic link, or a directory with its named items. A file may be
  closed to readers, a directory may keep its names or its items to itself.
* `FileSystem`: the items below the topmost directory, and the current directory.
* `FileSystem.resolve`: the place that a path leads to once all links are followed.
* `FileSystem.find`, `FileSystem.read`, `FileSystem.list`: the item at a path, the bytes of the file
  at a path, the items of the directory at a path.
-/

namespace SourceAtlas

/-- What a process may do with a directory. -/
structure Mode where
  /-- It may learn the names in it. -/
  lists : Bool
  /-- It may reach the items in it by their names. -/
  passes : Bool
deriving DecidableEq, Repr, Inhabited

/-- The mode of a directory that keeps nothing back. -/
def Mode.free : Mode := ⟨true, true⟩

inductive Item where
  | file (readable : Bool) (bytes : List UInt8)
  | link (target : OsText)
  | directory (mode : Mode) (items : List (OsText × Item))
deriving Inhabited

/-- The names that lead from the topmost directory to an item, none of them a link except possibly
the last. -/
abbrev Place := List OsText

namespace Item

/-- The size that a directory reports. -/
def directorySize : Nat := 4096

def size : Item → Nat
  | file _ bytes => bytes.length
  | link target => target.length
  | directory .. => directorySize

def isDirectory : Item → Bool
  | directory .. => true
  | _ => false

mutual

/-- The number of directories, the item itself included. -/
def countDirectories : Item → Nat
  | file .. | link _ => 0
  | directory _ items => countAll items + 1

def countAll : List (OsText × Item) → Nat
  | [] => 0
  | named :: rest => countNamed named + countAll rest

def countNamed : OsText × Item → Nat
  | (_, item) => countDirectories item

end

/-- The item that some names lead to; links are not followed. -/
def at? (item : Item) : Place → Option Item
  | [] => some item
  | name :: rest =>
    match item with
    | directory _ items => (items.lookup name).bind fun child => child.at? rest
    | _ => none

/-- Puts an item below another one. Directories on the way are made, and a directory that is there
already is not replaced by another one. -/
def put (new : Item) : Place → Item → Item
  | [], old => if new.isDirectory && old.isDirectory then old else new
  | name :: rest, old =>
    let (mode, items) := match old with
      | directory mode items => (mode, items)
      | _ => (Mode.free, [])
    directory mode
      (Entries.put name (put new rest ((items.lookup name).getD (directory .free []))) items)

end Item

structure FileSystem where
  /-- The topmost directory. -/
  top : Item
  /-- The directory that relative paths start from. -/
  current : Place
deriving Inhabited

namespace FileSystem

/-- The number of links that are followed on the way to one item. -/
def linkLimit : Nat := 40

/-- The number of bytes that a name may have. -/
def nameLimit : Nat := 255

/-- The number of bytes that a path may have. -/
def pathLimit : Nat := 4095

/-- The pieces of a path between slashes, empty ones included. -/
def pieces (path : OsText) : List OsText := Text.splitOn Path.isSlash path

/-- Where a path starts. -/
def origin (here : Place) (path : OsText) : Place := if Path.isAbsolute path then [] else here

/-- Whether the items in a directory can be reached. -/
def passes (fs : FileSystem) (place : Place) : Bool :=
  match fs.top.at? place with
  | some (.directory mode _) => mode.passes
  | _ => false

/-- What one piece of a path leads to. -/
inductive Landing where
  | directory (place : Place)
  | file (place : Place)
  | link (target : OsText)

/-- What a piece of a path leads to from a directory. Nothing between two slashes stays there even
if nobody may pass. -/
def land (fs : FileSystem) (here : Place) (piece : OsText) : Except FileError Landing :=
  if piece = [] then .ok (.directory here)
  else if !fs.passes here then .error .permissionDenied
  else if piece = [Path.dot] then .ok (.directory here)
  else if piece = [Path.dot, Path.dot] then .ok (.directory here.dropLast)
  else if nameLimit < piece.length then .error .nameTooLong
  else
    match fs.top.at? (here ++ [piece]) with
    | none => .error .notFound
    | some (.directory ..) => .ok (.directory (here ++ [piece]))
    | some (.file ..) => .ok (.file (here ++ [piece]))
    | some (.link target) => .ok (.link target)

/-- The place that pieces of a path lead to from a directory. Pieces that follow a file, even empty
ones, ask for a directory where there is none. -/
def follow (fs : FileSystem) (links : Nat) (here : Place) : List OsText → Except FileError Place
  | [] => .ok here
  | piece :: rest =>
    match fs.land here piece with
    | .error cause => .error cause
    | .ok (.directory place) => fs.follow links place rest
    | .ok (.file place) => if rest.isEmpty then .ok place else .error .notDirectory
    | .ok (.link target) =>
      match links with
      | 0 => .error .linkLoop
      | links + 1 => fs.follow links (origin here target) (pieces target ++ rest)
termination_by pieces => (links, pieces.length)

/-- The place that a path leads to from a directory. -/
def resolve (fs : FileSystem) (here : Place) (path : OsText) : Except FileError Place :=
  if path.isEmpty then .error .notFound
  else if path.contains 0 then .error .nulInName
  else if pathLimit < path.length then .error .nameTooLong
  else fs.follow linkLimit (origin here path) (pieces path)

/-- The place that a path leads to from the current directory. -/
def locate (fs : FileSystem) (path : OsText) : Except FileError Place :=
  fs.resolve fs.current path

/-- The item at a path, once all links are followed. -/
def find (fs : FileSystem) (path : OsText) : Except FileError Item :=
  match fs.locate path with
  | .error cause => .error cause
  | .ok place =>
    match fs.top.at? place with
    | some item => .ok item
    | none => .error .notFound

/-- The bytes of the file at a path. -/
def read (fs : FileSystem) (path : OsText) : Except FileError (List UInt8) :=
  match fs.find path with
  | .error cause => .error cause
  | .ok (.file readable bytes) => if readable then .ok bytes else .error .permissionDenied
  | .ok (.directory mode _) => .error (if mode.lists then .isDirectory else .permissionDenied)
  | .ok (.link _) => .error .linkLoop

/-- The items of the directory at a path. -/
def list (fs : FileSystem) (path : OsText) : Except FileError (List (OsText × Item)) :=
  match fs.find path with
  | .error cause => .error cause
  | .ok (.directory mode items) => if mode.lists then .ok items else .error .permissionDenied
  | .ok _ => .error .notDirectory

/-- Whether a path leads to anything. -/
def contains (fs : FileSystem) (path : OsText) : Bool := (fs.find path).toBool

end FileSystem

end SourceAtlas
