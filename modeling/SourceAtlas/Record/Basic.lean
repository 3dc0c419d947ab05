import SourceAtlas.Failure
import SourceAtlas.Language
import SourceAtlas.Ordered.NameSet
import SourceAtlas.Record.Node
import SourceAtlas.Text.Lines

/-!
What is known of a single file.

* `Metadata`: its size and the names its units declare. `Metadata.collect` sorts names into sets.
* `Strategy`: how the units were found.
* `Record`: path, language, units or error, and metadata. `Record.parsed`, `Record.failed`.
-/

namespace SourceAtlas

structure Metadata where
  lineCount : Nat
  byteSize : Nat
  functionNames : NameSet
  classNames : NameSet
  importNames : NameSet
deriving DecidableEq, Inhabited

namespace Metadata

/-- Nothing is known. -/
def blank : Metadata := ⟨0, 0, ∅, ∅, ∅⟩

/-- Size without names. -/
def ofSize (lineCount byteSize : Nat) : Metadata := ⟨lineCount, byteSize, ∅, ∅, ∅⟩

def ofContent (content : String) (byteSize : Nat) : Metadata :=
  ofSize (Text.countLines content) byteSize

/-- The name of one unit, put into the set of its family. -/
def note (m : Metadata) (n : Node) : Metadata :=
  if n.isAnonymous then m
  else
    match n.kind.family? with
    | some .functions => { m with functionNames := m.functionNames.insert n.name }
    | some .classes => { m with classNames := m.classNames.insert n.name }
    | some .imports => { m with importNames := m.importNames.insert n.name }
    | none => m

/-- The names of all units that have one. -/
def collect (m : Metadata) (nodes : List Node) : Metadata := nodes.foldl note m

end Metadata

inductive Strategy where
  | grammar
  | interpreter
  | patterns
deriving DecidableEq, Repr

namespace Strategy

def text : Strategy → String
  | grammar => "grammar"
  | interpreter => "interpreter"
  | patterns => "patterns"

def ofText? (s : String) : Option Strategy :=
  [grammar, interpreter, patterns].find? fun strategy => strategy.text == s

end Strategy

structure Record where
  path : String
  language : Language
  strategy : Option Strategy
  body : Option (List Node)
  error : Option String
  metadata : Metadata
deriving BEq, Inhabited

namespace Record

/-- A file that could not be analysed. -/
def failed (path : String) (language : Language) (failure : FileFailure) (metadata : Metadata) :
    Record :=
  { path, language, strategy := none, body := none, error := some failure.message, metadata }

/-- A file with its units. -/
def parsed (path : String) (language : Language) (strategy : Strategy) (nodes : List Node)
    (metadata : Metadata) : Record :=
  { path, language, strategy := some strategy, body := some nodes, error := none,
    metadata := metadata.collect nodes }

def isError (r : Record) : Bool := r.error.isSome

/-- What follows the last slash or backslash of the path. -/
def fileName (r : Record) : String :=
  String.ofList ((r.path.toList.reverse.takeWhile fun c => c != '/' && c != '\\').reverse)

end Record

end SourceAtlas
