import SourceAtlas.Json.Basic

/-!
The tables of a TOML document under construction.

* `Node`: a value, a table, or an array of tables. A table remembers how it came about, because this
  decides who may add to it.
* `openTable`, `openElement`: what the two kinds of headers do.
* `assign`: what a line with a key and a value does.
* `Node.toJson`: the finished value.
-/

namespace SourceAtlas.Toml

/-- How a table came about. -/
inductive Origin where
  /-- By a header of its own. -/
  | header
  /-- Because a header names something below it. -/
  | implied
  /-- Because a dotted key names something below it. -/
  | dotted
deriving DecidableEq, Repr

inductive Node where
  | value (v : Json)
  | table (origin : Origin) (entries : List (String × Node))
  /-- An array of tables; the latest one comes first. -/
  | tables (latest : List (String × Node)) (earlier : List (List (String × Node)))
deriving Inhabited

abbrev Entries := List (String × Node)

/-- The entries with one of them changed; the change sees whether it is there. -/
def alter (key : String) (change : Option Node → Option Node) : Entries → Option Entries
  | [] => (change none).map fun new => [(key, new)]
  | entry :: rest =>
    if entry.1 = key then (change (some entry.2)).map fun new => (key, new) :: rest
    else (alter key change rest).map fun rest => entry :: rest

/-- Goes down one key and changes the entries there. An absent table is made with the given origin.
A dotted key must not enter a table that has a header. -/
def enter (origin : Origin) (change : Entries → Option Entries) : Option Node → Option Node
  | none => (change []).map (.table origin)
  | some (.value _) => none
  | some (.table old entries) =>
    if origin = .dotted ∧ old = .header then none else (change entries).map (.table old)
  | some (.tables latest earlier) => (change latest).map fun latest => .tables latest earlier

/-- Goes down several keys and changes the entries there. -/
def descend (origin : Origin) (change : Entries → Option Entries) :
    List String → Entries → Option Entries
  | [] => change
  | key :: rest => alter key (enter origin (descend origin change rest))

/-- What a header does to its table: a new one is made, and one that was only implied is taken
over. -/
def takeOver : Option Node → Option Node
  | none => some (.table .header [])
  | some (.table .implied entries) => some (.table .header entries)
  | some _ => none

/-- What a header in double brackets does to its array of tables. -/
def addElement : Option Node → Option Node
  | none => some (.tables [] [])
  | some (.tables latest earlier) => some (.tables [] (latest :: earlier))
  | some _ => none

/-- The entries after a header with the given path. -/
def openTable (path : List String) (entries : Entries) : Option Entries :=
  match path.getLast? with
  | none => none
  | some key => descend .implied (alter key takeOver) path.dropLast entries

/-- The entries after a header in double brackets with the given path. -/
def openElement (path : List String) (entries : Entries) : Option Entries :=
  match path.getLast? with
  | none => none
  | some key => descend .implied (alter key addElement) path.dropLast entries

/-- A new entry; none may be there already. -/
def fresh (v : Json) : Option Node → Option Node
  | none => some (.value v)
  | some _ => none

/-- Goes down a dotted key. Its last table must be one that dotted keys made. -/
def assignBelow (key : String) (v : Json) : List String → Entries → Option Entries
  | [] => alter key (fresh v)
  | [last] => alter last fun old =>
    match old with
    | none | some (.table .dotted _) => enter .dotted (alter key (fresh v)) old
    | some _ => none
  | next :: rest => alter next (enter .dotted (assignBelow key v rest))

/-- The entries after a key with a value: `header` leads to the current table, `path` is the key. -/
def assign (header path : List String) (v : Json) (entries : Entries) : Option Entries :=
  match path.getLast? with
  | none => none
  | some key => descend .implied (assignBelow key v path.dropLast) header entries

mutual

def Node.toJson : Node → Json
  | .value v => v
  | .table _ entries => .obj (entriesJson entries)
  | .tables latest earlier =>
    .arr (elementsJson earlier ++ [.obj (entriesJson latest)])

/-- Entries as the fields of an object. -/
def entriesJson : List (String × Node) → List (String × Json)
  | [] => []
  | entry :: rest => Json.setField entry.1 (entryJson entry) (entriesJson rest)

def entryJson : String × Node → Json
  | (_, node) => node.toJson

/-- The elements of an array of tables, given with the latest first. -/
def elementsJson : List (List (String × Node)) → List Json
  | [] => []
  | entries :: earlier => elementsJson earlier ++ [.obj (entriesJson entries)]

end

end SourceAtlas.Toml
