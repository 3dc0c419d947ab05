import SourceAtlas.Json.Basic
import SourceAtlas.Ordered.Entries

/-!
Values in the layers of settings.

* `Value`: what a layer says of a setting, or of a whole table of them.
* `Value.ofJson`, `Value.toJson`: the same as a JSON value.
* `Value.merge`: one layer over another. Tables are merged field by field, and any other value
  replaces what was there.
* `Value.getAt?`: the value that a path of names leads to.
-/

namespace SourceAtlas

inductive Value where
  /-- A truth value, a number or a text. -/
  | plain (v : Json)
  /-- A character by itself. It serves as a text, but not as one name out of several. -/
  | character (c : Char)
  | list (items : List Value)
  | table (fields : List (String × Value))
deriving Inhabited

namespace Value

/-! ## JSON values -/

mutual

def ofJson : Json → Value
  | .arr items => list (ofItems items)
  | .obj fields => table (ofFields fields)
  | v => plain v

def ofItems : List Json → List Value
  | [] => []
  | v :: rest => ofJson v :: ofItems rest

def ofFields : List (String × Json) → List (String × Value)
  | [] => []
  | field :: rest => ofField field :: ofFields rest

def ofField : String × Json → String × Value
  | (name, v) => (name, ofJson v)

end

mutual

/-- The value as JSON, where a character is a text. -/
def toJson : Value → Json
  | plain v => v
  | character c => .str (String.ofList [c])
  | list items => .arr (itemsJson items)
  | table fields => .obj (fieldsJson fields)

def itemsJson : List Value → List Json
  | [] => []
  | v :: rest => toJson v :: itemsJson rest

def fieldsJson : List (String × Value) → List (String × Json)
  | [] => []
  | field :: rest => fieldJson field :: fieldsJson rest

def fieldJson : String × Value → String × Json
  | (name, v) => (name, toJson v)

end

/-! ## tables -/

mutual

/-- `v` over `base`. -/
def merge (base : Value) : Value → Value
  | table fields =>
    match base with
    | table old => table (mergeFields old fields)
    | _ => table fields
  | v => v

/-- Fields over other fields. -/
def mergeFields (old : List (String × Value)) : List (String × Value) → List (String × Value)
  | [] => old
  | field :: rest => mergeFields (mergeField old field) rest

def mergeField (old : List (String × Value)) : String × Value → List (String × Value)
  | (name, v) =>
    match old.lookup name with
    | none => Entries.put name v old
    | some below => Entries.put name (merge below v) old

end

/-- The value that a path of names leads to. -/
def getAt? (v : Value) : List String → Option Value
  | [] => some v
  | name :: rest =>
    match v with
    | table fields => (fields.lookup name).bind fun below => below.getAt? rest
    | _ => none

def isCharacter : Value → Bool
  | character _ => true
  | _ => false

end Value

end SourceAtlas
