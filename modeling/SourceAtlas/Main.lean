import SourceAtlas.CommandLine.Program

/-!
The program. It takes a picture of the files and variables that a run may ask for, lets
`CommandLine.answer` decide, and prints the answer.

Syntax trees and interpreter runs are not part of this program, so that its declarations are found
line by line. Names that are no text are not seen.
-/

namespace SourceAtlas.Main

/-- The text of bytes. -/
def decode (bytes : ByteArray) : String := Text.Utf8.decodeLossy bytes.toList

/-- The environment variables, as the operating system lists them. -/
def readEnvironment : IO (List (String × String)) := do
  let entries ← try
      let bytes ← IO.FS.readBinFile "/proc/self/environ"
      pure (Text.splitOn (· == Char.ofNat 0) (decode bytes).toList)
    catch _ => pure []
  return entries.filterMap fun entry =>
    match entry.dropWhile (· != '=') with
    | _ :: text => some (String.ofList (entry.takeWhile (· != '=')), String.ofList text)
    | [] => none

/-- A picture of a file system: its topmost directory, and the paths still to be looked at. -/
structure Picture where
  top : Item
  waiting : List OsText

/-- The path to a place. -/
def pathTo (place : Place) : String := "/" ++ "/".intercalate (place.map Text.Utf8.decodeLossy)

/-- The names in a path without detours. -/
def placeOf (path : OsText) : Place := (Path.components path).filterMap Path.Component.name?

/-- Whether something can be done. -/
def succeeds {α : Type} (action : IO α) : IO Bool :=
  try
    let _ ← action
    return true
  catch _ => return false

/-- What is at a place, without its contents; a link is noted for later. -/
def look (p : Picture) (place : Place) : IO (Picture × Option Item) := do
  let entry : IO.FS.DirEntry := ⟨⟨pathTo place⟩, ""⟩
  try
    let metadata ← entry.root.symlinkMetadata
    match metadata.type with
    | .symlink =>
      -- a link that leads nowhere gets a target that no file has
      let target ← try pure (← IO.FS.realPath entry.root).toString catch _ => pure "\x00"
      let item := Item.link (Text.bytes target)
      return (⟨item.put place p.top, Text.bytes target :: p.waiting⟩, some item)
    | .dir =>
      let item := Item.directory ⟨← succeeds entry.root.readDir, true⟩ []
      return ({ p with top := item.put place p.top }, some item)
    | .file =>
      -- only the size of a file that may not be read is known
      let item ← try pure (Item.file true (← IO.FS.readBinFile entry.root).toList)
        catch _ => pure (Item.file false (List.replicate metadata.byteSize.toNat 0))
      return ({ p with top := item.put place p.top }, some item)
    | .other => return (p, none)
  catch _ => return (p, none)

/-- Looks at everything at a place and below it, except below directories of the names in
`skipped`. -/
partial def lookBelow (skipped : NameSet) (p : Picture) (place : Place) : IO Picture := do
  match ← look p place with
  | (p, some (.directory ..)) =>
    if (place.getLast?.bind Text.Utf8.decode?).any skipped.contains then return p
    let entry : IO.FS.DirEntry := ⟨⟨pathTo place⟩, ""⟩
    let entries ← try entry.root.readDir catch _ => pure #[]
    entries.foldlM (fun p entry => lookBelow skipped p (place ++ [Text.bytes entry.fileName])) p
  | (p, _) => return p

/-- Looks at all that a path passes from a place on, and returns where it ends. -/
def trace (p : Picture) (here : Place) : List OsText → IO (Picture × Place)
  | [] => return (p, here)
  | piece :: rest => do
    if piece = [] ∨ piece = [Path.dot] then trace p here rest
    else if piece = [Path.dot, Path.dot] then trace p here.dropLast rest
    else
      match ← look p (here ++ [piece]) with
      | (p, some (.link target)) => trace p (placeOf target) rest
      | (p, _) => trace p (here ++ [piece]) rest

/-- Looks at all that waits, and at what the links found on the way lead to. -/
partial def lookAtAll (skipped : NameSet) (current : Place) (seen : List OsText) (p : Picture) :
    IO Picture := do
  match p.waiting with
  | [] => return p
  | path :: waiting =>
    let p := { p with waiting }
    if seen.contains path then lookAtAll skipped current seen p
    else
      let (p, place) ← trace p (FileSystem.origin current path) (FileSystem.pieces path)
      lookAtAll skipped current (path :: seen) (← lookBelow skipped p place)

/-- The files of a run: the settings files, and the directory of an analysis. -/
def readFiles (args : List String) (environment : List (String × String)) : IO FileSystem := do
  let current := placeOf (Text.bytes (← IO.currentDir).toString)
  let blank : Picture := ⟨(Item.directory .free []).put current (.directory .free []), []⟩
  match CommandLine.parse args with
  | .run command file =>
    let p ← lookAtAll ∅ current []
      { blank with waiting := (Settings.projectFile :: file.toList).map Text.bytes }
    match command with
    | .showSettings => return ⟨p.top, current⟩
    | .analyze root _ _ =>
      let skipped := match Settings.load ⟨p.top, current⟩ environment file with
        | .ok settings => settings.walk.excludedNames
        | .error _ => ∅
      let p ← lookAtAll skipped current [] { p with waiting := [Text.bytes root] }
      return ⟨p.top, current⟩
  | _ => return ⟨blank.top, current⟩

/-- No parsers at all. -/
def noTools : Toolchain where
  grammar _ _ := none
  interpreter _ _ := .notStarted .notFound

end SourceAtlas.Main

open SourceAtlas in
def main (args : List String) : IO UInt32 := do
  let environment ← Main.readEnvironment
  let fs ← Main.readFiles args environment
  let answer := CommandLine.answer ⟨fs, environment, Main.noTools⟩ args
  (← IO.getStdout).putStr answer.output
  match answer.error with
  | some message => (← IO.getStderr).putStrLn ("\x1b[31mError:\x1b[0m " ++ message)
  | none => pure ()
  return answer.exit.toUInt32
