/-!
JSON values.

* `Json`: the values. An object is the list of its fields in the order in which they are written.
* `Json.setField`: a field put in its place in an object whose names are in increasing order.
* `Json.beq`: equality of values, numbers compared as numbers.
* `Json.nesting`: how deep arrays and objects lie inside each other.
-/

namespace SourceAtlas

inductive Json where
  | null
  | bool (value : Bool)
  | int (value : Int)
  | float (value : Float)
  | str (value : String)
  | arr (items : List Json)
  | obj (fields : List (String × Json))
deriving Inhabited

namespace Json

def natural (n : Nat) : Json := .int n

/-- The field `name` of an object. -/
def get? : Json → String → Option Json
  | .obj fields, name => fields.lookup name
  | _, _ => none

def str? : Json → Option String
  | .str s => some s
  | _ => none

def bool? : Json → Option Bool
  | .bool b => some b
  | _ => none

def arr? : Json → Option (List Json)
  | .arr items => some items
  | _ => none

/-- A whole number that is not negative. -/
def nat? : Json → Option Nat
  | .int (.ofNat n) => some n
  | _ => none

def strings (texts : List String) : Json := .arr (texts.map .str)

/-- `value` under `name` in a list of fields ordered by name: a field of that name is replaced. -/
def setField (name : String) (value : Json) : List (String × Json) → List (String × Json)
  | [] => [(name, value)]
  | field :: rest =>
    if name < field.1 then (name, value) :: field :: rest
    else if name = field.1 then (name, value) :: rest
    else field :: setField name value rest

/-- An object with its names in increasing order, the last of equal names kept. -/
def ofFields (fields : List (String × Json)) : Json :=
  .obj (fields.foldl (fun done field => setField field.1 field.2 done) [])

mutual

def beq : Json → Json → Bool
  | .null, .null => true
  | .bool a, .bool b => a == b
  | .int a, .int b => a == b
  | .float a, .float b => a == b
  | .str a, .str b => a == b
  | .arr as, .arr bs => beqItems as bs
  | .obj as, .obj bs => beqFields as bs
  | _, _ => false

def beqItems : List Json → List Json → Bool
  | [], [] => true
  | a :: as, b :: bs => beq a b && beqItems as bs
  | _, _ => false

def beqFields : List (String × Json) → List (String × Json) → Bool
  | [], [] => true
  | a :: as, b :: bs => beqField a b && beqFields as bs
  | _, _ => false

def beqField : String × Json → String × Json → Bool
  | (m, a), (n, b) => m == n && beq a b

end

instance : BEq Json := ⟨beq⟩

mutual

/-- The number of arrays and objects on the longest way down from a value. -/
def nesting : Json → Nat
  | .arr items => nestingItems items + 1
  | .obj fields => nestingFields fields + 1
  | _ => 0

def nestingItems : List Json → Nat
  | [] => 0
  | a :: as => max (nesting a) (nestingItems as)

def nestingFields : List (String × Json) → Nat
  | [] => 0
  | a :: as => max (nestingField a) (nestingFields as)

def nestingField : String × Json → Nat
  | (_, a) => nesting a

end

end Json

end SourceAtlas
