import SourceAtlas.Record.Basic
import Std.Data.HashMap

/-!
The records of a walk.

* `RecordSet`: a list of records with distinct paths, and the position of each path.
* `RecordSet.push`: appends a record, unless its path is there already.
* `RecordSet.find?`: the record with a path.
-/

namespace SourceAtlas

structure RecordSet where
  records : Array Record
  index : Std.HashMap String Nat

namespace RecordSet

def empty : RecordSet := ⟨#[], ∅⟩

instance : Inhabited RecordSet := ⟨empty⟩

/-- The set with the record appended, or `none` if there is one with its path. -/
def push? (s : RecordSet) (r : Record) : Option RecordSet :=
  if s.index.contains r.path then none
  else some ⟨s.records.push r, s.index.insert r.path s.records.size⟩

def push (s : RecordSet) (r : Record) : RecordSet := (s.push? r).getD s

/-- The first record with each path, in order. -/
def ofList (records : List Record) : RecordSet := records.foldl push empty

def toList (s : RecordSet) : List Record := s.records.toList

def size (s : RecordSet) : Nat := s.records.size

def find? (s : RecordSet) (path : String) : Option Record :=
  s.index[path]?.bind fun i => s.records[i]?

instance : BEq RecordSet := ⟨fun s t => s.records == t.records⟩

end RecordSet

end SourceAtlas
