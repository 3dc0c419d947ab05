import SourceAtlas.Analysis.File
import SourceAtlas.Record.Set
import SourceAtlas.Walk.Basic

/-!
The records of the files below a directory.

* `candidates`: the findings that get a record.
* `walkRecords`: their records one by one, in the order of the walk.
* `survey`: the set of these records. It makes them one after the other, or in halves that do not
  wait for each other.
-/

namespace SourceAtlas

/-- A finding gets a record if it is unreadable or if the language of the file is known. -/
def isAdmitted (settings : AnalysisSettings) : Finding → Bool
  | .file path _ => (settings.languageOf? path).isSome
  | .unreadable .. => true

/-- What is found below a root and gets a record. -/
def candidates (fs : FileSystem) (settings : Settings) (root : OsText) :
    Except RunError (List Finding) :=
  match findings fs settings.walk root with
  | .error e => .error e
  | .ok found => .ok (found.filter (isAdmitted settings.analysis))

/-- The record of a finding, unless its analysis breaks off. -/
def findingRecord (tools : Toolchain) (fs : FileSystem) (settings : AnalysisSettings) :
    Finding → Except Crash Record
  | .file path relative => Analysis.analyzeFile tools fs settings path relative
  | .unreadable relative message =>
    .ok (.failed relative .unknown (.unwalked relative message) .blank)

/-- What each candidate comes to, in the order of the walk. Nothing is done before it is asked
for. -/
def walkRecords (tools : Toolchain) (fs : FileSystem) (settings : Settings) (root : OsText) :
    Except RunError (List (Except Crash Record)) :=
  match candidates fs settings root with
  | .error e => .error e
  | .ok found => .ok (found.map (findingRecord tools fs settings.analysis))

/-- The images of a list, which is cut into halves at most `cuts` times over. Both halves of a list
are done, and if both break off it is the first one that counts. -/
def forkMap {α β ε : Type} (f : α → Except ε β) : Nat → List α → Except ε (List β)
  | 0, xs => xs.mapM f
  | cuts + 1, xs =>
    if xs.length ≤ 1 then xs.mapM f
    else
      let left := forkMap f cuts (xs.take (xs.length / 2))
      let right := forkMap f cuts (xs.drop (xs.length / 2))
      match left, right with
      | .ok ys, .ok zs => .ok (ys ++ zs)
      | .error e, _ => .error e
      | _, .error e => .error e

/-- The set of the records of what is found below a root, unless an analysis breaks off. -/
def survey (tools : Toolchain) (fs : FileSystem) (settings : Settings) (root : OsText) :
    Except RunError (Except Crash RecordSet) :=
  match candidates fs settings root with
  | .error e => .error e
  | .ok found =>
    let analyze := findingRecord tools fs settings.analysis
    let records :=
      if settings.walk.parallel then forkMap analyze found.length found else found.mapM analyze
    .ok (records.map .ofList)

end SourceAtlas
