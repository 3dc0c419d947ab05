import SourceAtlas.Json.Numeral
import SourceAtlas.Text.Escape

/-!
Reading JSON text.

* `Lexeme`, `lexemes`: the text as brackets, separators and single values.
* `State`, `step`: what has been read and what may come next; a run over the lexemes keeps the open
  arrays and objects on a stack.
* `read`: the value a text spells. At most `depthLimit` arrays and objects may lie inside each
  other.
-/

namespace SourceAtlas.Json

inductive Lexeme where
  | openArray
  | closeArray
  | openObject
  | closeObject
  | comma
  | colon
  | value (v : Json)

/-- Where the lexer stands: between lexemes, or inside one of which `done` has been read, the last
character first. -/
inductive Mode where
  | between
  | text (done : List Char)
  | escape (done : List Char)
  /-- Inside a `\u` escape with `digits` of its four digits read; `high` is the first half of a
  surrogate pair. -/
  | code (done : List Char) (high : Option Nat) (digits value : Nat)
  /-- After the first half of a surrogate pair, with or without the backslash of the second. -/
  | pair (done : List Char) (high : Nat) (backslash : Bool)
  | number (done : List Char)
  | word (done : List Char)

/-- The character after a backslash, other than `u`. -/
def escaped? (c : Char) : Option Char :=
  [('"', '"'), ('\\', '\\'), ('/', '/'), ('b', '\x08'), ('f', '\x0c'), ('n', '\n'), ('r', '\r'),
    ('t', '\t')].lookup c

def isHigh (n : Nat) : Bool := 0xD800 ≤ n && n < 0xDC00

def isLow (n : Nat) : Bool := 0xDC00 ≤ n && n < 0xE000

def word? (cs : List Char) : Option Json :=
  [("null", Json.null), ("true", .bool true), ("false", .bool false)].lookup (String.ofList cs)

/-- A complete `\u` escape. -/
def finishCode (done : List Char) (high : Option Nat) (value : Nat) : Option Mode :=
  match high with
  | none =>
    if isHigh value then some (.pair done value false)
    else if isLow value then none
    else some (.text (Char.ofNat value :: done))
  | some high =>
    if isLow value then
      some (.text (Char.ofNat (0x10000 + (high - 0xD800) * 0x400 + (value - 0xDC00)) :: done))
    else none

/-- The first character of a lexeme, or a blank. -/
def beginning (c : Char) : Option (List Lexeme × Mode) :=
  if c = ' ' ∨ c = '\n' ∨ c = '\t' ∨ c = '\r' then some ([], .between)
  else if c = '[' then some ([.openArray], .between)
  else if c = ']' then some ([.closeArray], .between)
  else if c.toNat = 0x7B then some ([.openObject], .between)
  else if c.toNat = 0x7D then some ([.closeObject], .between)
  else if c = ',' then some ([.comma], .between)
  else if c = ':' then some ([.colon], .between)
  else if c = '"' then some ([], .text [])
  else if c = '-' ∨ c.isDigit then some ([], .number [c])
  else if c.isAlpha then some ([], .word [c])
  else none

def inNumber (c : Char) : Bool :=
  c.isDigit || c == '-' || c == '+' || c == '.' || c == 'e' || c == 'E'

/-- A lexeme that ends before the next character. -/
def close : Mode → Option (List Lexeme)
  | .between => some []
  | .number done => ((Numeral.read done.reverse).bind Numeral.value).map fun v => [.value v]
  | .word done => (word? done.reverse).map fun v => [.value v]
  | _ => none

/-- One character. -/
def advance (mode : Mode) (c : Char) : Option (List Lexeme × Mode) :=
  match mode with
  | .between => beginning c
  | .text done =>
    if c = '"' then some ([.value (.str (String.ofList done.reverse))], .between)
    else if c = '\\' then some ([], .escape done)
    else if c.toNat < 0x20 then none
    else some ([], .text (c :: done))
  | .escape done =>
    if c = 'u' then some ([], .code done none 0 0)
    else (escaped? c).map fun e => ([], .text (e :: done))
  | .code done high digits value =>
    match Text.hexDigit? c with
    | none => none
    | some d =>
      let value := value * 16 + d
      if digits = 3 then (finishCode done high value).map fun mode => ([], mode)
      else some ([], .code done high (digits + 1) value)
  | .pair done high backslash =>
    if !backslash && c == '\\' then some ([], .pair done high true)
    else if backslash && c == 'u' then some ([], .code done (some high) 0 0)
    else none
  | .number done => if inNumber c then some ([], .number (c :: done)) else afterToken
  | .word done => if c.isAlpha then some ([], .word (c :: done)) else afterToken
where
  /-- The character ends a number or word and begins what follows. -/
  afterToken : Option (List Lexeme × Mode) :=
    match close mode, beginning c with
    | some before, some (after, next) => some (before ++ after, next)
    | _, _ => none

def lexFrom (mode : Mode) : List Char → Option (List Lexeme)
  | [] => close mode
  | c :: cs =>
    match advance mode c with
    | none => none
    | some (found, next) => (lexFrom next cs).map (found ++ ·)

def lexemes (cs : List Char) : Option (List Lexeme) := lexFrom .between cs

/-- An array or object around the value being read: the items before it, the last first, or the
fields before it and its name. -/
inductive Frame where
  | items (done : List Json)
  | fields (done : List (String × Json)) (name : String)

/-- What may come next. -/
inductive Expect where
  | value
  /-- The first item of an array, or its end. -/
  | item
  /-- The name of a field, or, at the beginning, the end of the object. -/
  | name (done : List (String × Json)) (first : Bool)
  | colon (done : List (String × Json)) (name : String)
  | nextItem (done : List Json)
  | nextField (done : List (String × Json))
  | nothing (v : Json)

structure State where
  stack : List Frame
  expect : Expect

/-- A value has been read: it goes into the innermost open array or object. -/
def complete (v : Json) : List Frame → State
  | [] => ⟨[], .nothing v⟩
  | .items done :: stack => ⟨stack, .nextItem (v :: done)⟩
  | .fields done name :: stack => ⟨stack, .nextField (setField name v done)⟩

/-- One lexeme; `limit` is the greatest number of open arrays and objects. -/
def step (limit : Nat) (s : State) (lexeme : Lexeme) : Option State :=
  match s.expect, lexeme with
  | .value, .value v => some (complete v s.stack)
  | .item, .value v => some (complete v s.stack)
  | .value, .openArray => openArray
  | .item, .openArray => openArray
  | .value, .openObject => openObject
  | .item, .openObject => openObject
  | .item, .closeArray => some (complete (.arr []) (s.stack.drop 1))
  | .nextItem done, .comma => some ⟨.items done :: s.stack, .value⟩
  | .nextItem done, .closeArray => some (complete (.arr done.reverse) s.stack)
  | .name done _, .value (.str name) => some ⟨s.stack, .colon done name⟩
  | .name done true, .closeObject => some (complete (.obj done) s.stack)
  | .colon done name, .colon => some ⟨.fields done name :: s.stack, .value⟩
  | .nextField done, .comma => some ⟨s.stack, .name done false⟩
  | .nextField done, .closeObject => some (complete (.obj done) s.stack)
  | _, _ => none
where
  openArray : Option State :=
    if s.stack.length < limit then some ⟨.items [] :: s.stack, .item⟩ else none
  openObject : Option State :=
    if s.stack.length < limit then some ⟨s.stack, .name [] true⟩ else none

def run (limit : Nat) : State → List Lexeme → Option State
  | s, [] => some s
  | s, lexeme :: rest =>
    match step limit s lexeme with
    | none => none
    | some s => run limit s rest

/-- Arrays and objects may lie this deep inside each other. -/
def depthLimit : Nat := 127

/-- The value a text spells, with blanks allowed around it and at most `limit` arrays and objects
inside each other. -/
def readWithin (limit : Nat) (text : String) : Option Json :=
  match (lexemes text.toList).bind (run limit ⟨[], .value⟩) with
  | some ⟨_, .nothing v⟩ => some v
  | _ => none

def read (text : String) : Option Json := readWithin depthLimit text

end SourceAtlas.Json
