import SourceAtlas.Toml.Scalar
import SourceAtlas.Toml.Table

/-!
Reading TOML.

* `readValue`: a value and what follows it.
* `readKey`: a key, which may be dotted.
* `read`: the table that a document describes, unless it is malformed.

Every part of a document takes at least one character, so that the length of the text bounds the
number of steps.
-/

namespace SourceAtlas.Toml

/-! ## between values -/

def isSpace (c : Char) : Bool := c == ' ' || c == '\t'

def skipSpaces (cs : List Char) : List Char := cs.dropWhile isSpace

/-- What follows the end of a line. -/
def lineEnd? : List Char → Option (List Char)
  | '\n' :: rest => some rest
  | '\r' :: '\n' :: rest => some rest
  | _ => none

/-- What follows a comment, if there is one. -/
def skipComment : List Char → List Char
  | '#' :: rest => rest.dropWhile Text.Escape.isAllowed
  | cs => cs

/-- What follows the rest of a line, on which only blanks and a comment may stand. -/
def nextLine? (cs : List Char) : Option (List Char) :=
  match skipComment (skipSpaces cs) with
  | [] => some []
  | rest => lineEnd? rest

/-- What follows blanks, comments and ends of lines; `fuel` bounds the number of lines. -/
def skipLines : Nat → List Char → Option (List Char)
  | 0, _ => none
  | fuel + 1, cs =>
    match skipSpaces cs with
    | '#' :: rest => (lineEnd? (skipComment ('#' :: rest))).bind (skipLines fuel)
    | rest =>
      match lineEnd? rest with
      | some rest => skipLines fuel rest
      | none => some rest

/-! ## keys -/

/-- The number of keys and of nested values that is too large. -/
def nestingLimit : Nat := 80

/-- A single key, with quotes or without. -/
def readPlainKey : List Char → Option (String × List Char)
  | '"' :: rest => basicString rest
  | '\x27' :: rest => literalString rest
  | cs =>
    let name := cs.takeWhile Text.isKeyChar
    if name.isEmpty then none else some (String.ofList name, cs.dropWhile Text.isKeyChar)

/-- A key with dots between its parts, and what follows it. -/
def readKeyFrom : Nat → List Char → Option (List String × List Char)
  | 0, _ => none
  | fuel + 1, cs =>
    match readPlainKey (skipSpaces cs) with
    | none => none
    | some (name, rest) =>
      match skipSpaces rest with
      | '.' :: rest => (readKeyFrom fuel rest).map fun found => (name :: found.1, found.2)
      | rest => some ([name], rest)

def readKey (cs : List Char) : Option (List String × List Char) :=
  (readKeyFrom (cs.length + 1) cs).filter fun found => found.1.length < nestingLimit

/-! ## values -/

/-- The characters of numbers, dates and truth values. -/
def isBareChar (c : Char) : Bool :=
  c.isAlphanum || c == '+' || c == '-' || c == '_' || c == '.' || c == ':'

/-- A value without quotes and brackets. Between a date and a time there may be a blank. -/
def readBare (cs : List Char) : Option (Json × List Char) :=
  let word := cs.takeWhile isBareChar
  let rest := cs.dropWhile isBareChar
  let time := (rest.drop 1).takeWhile isBareChar
  if isDate word ∧ rest.head? = some ' ' ∧ time.head?.any Char.isDigit then
    (bareValue? (word ++ ' ' :: time)).map fun v => (v, (rest.drop 1).dropWhile isBareChar)
  else (bareValue? word).map fun v => (v, rest)

mutual

/-- A value and what follows it. `depth` is how many more values may enclose each other. -/
def readValue : Nat → Nat → List Char → Option (Json × List Char)
  | 0, _, _ => none
  | fuel + 1, depth, cs =>
    match cs with
    | '"' :: _ | '\x27' :: _ => (readString cs).map fun found => (.str found.1, found.2)
    | '[' :: rest =>
      match depth with
      | 0 => none
      | depth + 1 => (readItems fuel depth rest).map fun found => (.arr found.1, found.2)
    | '{' :: rest =>
      match depth with
      | 0 => none
      | depth + 1 =>
        match skipSpaces rest with
        | '}' :: rest => some (.obj [], rest)
        | rest =>
          (readPairs fuel depth [] rest).map fun found => (.obj (entriesJson found.1), found.2)
    | _ => readBare cs

/-- The items of an array that are left, and what follows its end. -/
def readItems : Nat → Nat → List Char → Option (List Json × List Char)
  | 0, _, _ => none
  | fuel + 1, depth, cs =>
    match skipLines (cs.length + 1) cs with
    | none => none
    | some (']' :: rest) => some ([], rest)
    | some cs =>
      match readValue fuel depth cs with
      | none => none
      | some (v, rest) =>
        match skipLines (rest.length + 1) rest with
        | some (',' :: rest) =>
          (readItems fuel depth rest).map fun found => (v :: found.1, found.2)
        | some (']' :: rest) => some ([v], rest)
        | _ => none

/-- The pairs of a table on one line that are left, added to its entries, and what follows its
end. -/
def readPairs : Nat → Nat → Entries → List Char → Option (Entries × List Char)
  | 0, _, _, _ => none
  | fuel + 1, depth, entries, cs =>
    match readKey cs with
    | some (path, '=' :: rest) =>
      match readValue fuel depth (skipSpaces rest) with
      | none => none
      | some (v, rest) =>
        match assign [] path v entries, skipSpaces rest with
        | some entries, ',' :: rest => readPairs fuel depth entries rest
        | some entries, '}' :: rest => some (entries, rest)
        | _, _ => none
    | _ => none

end

/-! ## documents -/

/-- A document that has been read in part: its entries and the path of the latest header. -/
structure Draft where
  header : List String
  entries : Entries

/-- A header after its opening bracket or brackets. -/
def readHeader (closing : List Char) (cs : List Char) : Option (List String × List Char) :=
  match readKey cs with
  | none => none
  | some (path, rest) =>
    if closing.isPrefixOf rest then
      (nextLine? (rest.drop closing.length)).map fun rest => (path, rest)
    else none

/-- The line that a document begins with, and the lines after it. -/
def readLine (draft : Draft) (cs : List Char) : Option (Draft × List Char) :=
  match cs with
  | '[' :: '[' :: rest =>
    match readHeader [']', ']'] rest with
    | none => none
    | some (path, rest) =>
      (openElement path draft.entries).map fun entries => (⟨path, entries⟩, rest)
  | '[' :: rest =>
    match readHeader [']'] rest with
    | none => none
    | some (path, rest) =>
      (openTable path draft.entries).map fun entries => (⟨path, entries⟩, rest)
  | _ =>
    match readKey cs with
    | some (path, '=' :: rest) =>
      match readValue (rest.length + 1) (nestingLimit - 1) (skipSpaces rest) with
      | none => none
      | some (v, rest) =>
        match assign draft.header path v draft.entries, nextLine? rest with
        | some entries, some rest => some (⟨draft.header, entries⟩, rest)
        | _, _ => none
    | _ => none

/-- The lines of a document that are left. -/
def readLines : Nat → Draft → List Char → Option Entries
  | 0, _, _ => none
  | fuel + 1, draft, cs =>
    match skipSpaces cs with
    | [] => some draft.entries
    | c :: rest =>
      if c = '#' ∨ c = '\n' ∨ c = '\r' then
        (nextLine? (c :: rest)).bind (readLines fuel draft)
      else
        match readLine draft (c :: rest) with
        | none => none
        | some (draft, rest) => readLines fuel draft rest

/-- The table that a document describes. A byte order mark at its beginning does not count. -/
def read (text : String) : Option Json :=
  let cs := match text.toList with
    | c :: rest => if c = Char.ofNat 0xFEFF then rest else c :: rest
    | [] => []
  (readLines (cs.length + 1) ⟨[], []⟩ cs).map fun entries => .obj (entriesJson entries)

end SourceAtlas.Toml
