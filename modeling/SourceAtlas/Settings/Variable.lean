import SourceAtlas.Decimal.Nearest
import SourceAtlas.Settings.Value
import SourceAtlas.Text.Blank
import SourceAtlas.Text.Escape
import SourceAtlas.Text.Lines

/-!
Settings in environment variables.

* `Variable.path?`: the keys that the name of a variable stands for.
* `Variable.value`: the value that its text stands for.
* `Variable.nested`: a value below the keys of its variable.
-/

namespace SourceAtlas.Variable

/-! ## names -/

/-- What the names of variables begin with, in whatever case. -/
def mark : List Char := "repoguide_".toList

/-- Two underscores as a dot. -/
def dotted : List Char → List Char
  | [] => []
  | '_' :: '_' :: rest => '.' :: dotted rest
  | c :: rest => c :: dotted rest

/-- The keys that a name stands for. They are in small letters and none of them is empty. Blanks
around the name, and around what follows the mark, do not count. -/
def path? (name : String) : Option (List String) :=
  let small := (Text.trim name.toList).map Char.toLower
  if mark.isPrefixOf small then
    let keys := Text.splitOn (· == '.') (Text.trim (dotted (small.drop mark.length)))
    if keys.any List.isEmpty then none else some (keys.map String.ofList)
  else none

/-! ## values -/

def isSpace (c : Char) : Bool :=
  c == ' ' || c == '\t' || c == '\n' || c == '\x0c' || c == '\r'

def skipSpaces (cs : List Char) : List Char := cs.dropWhile isSpace

def isSeparator (c : Char) : Bool := c == ',' || c == '{' || c == '}' || c == '[' || c == ']'

/-- A whole number with an optional sign. -/
def whole? (cs : List Char) : Option Json :=
  let (negative, digits) := Decimal.sign cs
  if digits.isEmpty || !digits.all Char.isDigit then none
  else
    let n := Decimal.ofDigits digits
    if negative then if n ≤ 0x8000000000000000 then some (.int (-n)) else none
    else if n < UInt64.size then some (.int n) else none

/-- The value of a word: a number with a point, a whole number, or the text itself. -/
def wordValue (cs : List Char) : Json :=
  let number := if cs.contains '.' then (Decimal.ofText? cs).map Json.float else none
  ((number.or (whole? cs))).getD (.str (String.ofList cs))

/-- What counts of a quoted text with escapes: of the characters before the first escape, as many
bytes as there are characters. -/
def counted (raw : List Char) : List Char :=
  let start := raw.takeWhile (· != '\\')
  let escapes := raw.dropWhile (· != '\\')
  if escapes.isEmpty then start else Text.takeBytes start.length start ++ escapes

/-- A text in double quotes, after the first of them. -/
def quoted (cs : List Char) : Option (String × List Char) :=
  match Text.upToQuote cs with
  | none => none
  | some (raw, rest) =>
    match Text.unescape false raw, Text.unescape false (counted raw) with
    | some _, some text => some (String.ofList text, rest)
    | _, _ => none

/-- The key of a pair in braces. -/
def key : List Char → Option (String × List Char)
  | '"' :: rest => quoted rest
  | cs =>
    let name := cs.takeWhile Text.isKeyChar
    if name.isEmpty then none else some (String.ofList name, cs.dropWhile Text.isKeyChar)

mutual

/-- A value and what follows it. Every step takes a character or goes one level down, which `fuel`
bounds. -/
def readValue : Nat → List Char → Option (Value × List Char)
  | 0, _ => none
  | fuel + 1, cs =>
    let found : Option (Value × List Char) := match skipSpaces cs with
      | 't' :: 'r' :: 'u' :: 'e' :: rest => some (.plain (.bool true), rest)
      | 'f' :: 'a' :: 'l' :: 's' :: 'e' :: rest => some (.plain (.bool false), rest)
      | '{' :: rest => (readPairs fuel [] rest).map fun found => (.table found.1, found.2)
      | '[' :: rest => (readItems fuel rest).map fun found => (.list found.1, found.2)
      | '"' :: rest => (quoted rest).map fun found => (.plain (.str found.1), found.2)
      | '\x27' :: c :: '\x27' :: rest => some (.character c, rest)
      | '\x27' :: _ => none
      | cs =>
        let word := cs.takeWhile fun c => !isSeparator c
        some (.plain (wordValue (Text.trim word)), cs.dropWhile fun c => !isSeparator c)
    found.map fun found => (found.1, skipSpaces found.2)

/-- The items of a list that are left, and what follows its end. -/
def readItems : Nat → List Char → Option (List Value × List Char)
  | 0, _ => none
  | fuel + 1, cs =>
    match cs with
    | ']' :: rest => some ([], rest)
    | _ =>
      match readValue fuel cs with
      | some (v, ',' :: rest) => (readItems fuel rest).map fun found => (v :: found.1, found.2)
      | some (v, ']' :: rest) => some ([v], rest)
      | _ => none

/-- The pairs in braces that are left, added to the fields so far, and what follows the end. -/
def readPairs : Nat → List (String × Value) → List Char →
    Option (List (String × Value) × List Char)
  | 0, _, _ => none
  | fuel + 1, fields, cs =>
    match cs with
    | '}' :: rest => some (fields, rest)
    | _ =>
      match (key (skipSpaces cs)).map fun found => (found.1, skipSpaces found.2) with
      | some (name, '=' :: rest) =>
        match readValue fuel rest with
        | some (v, ',' :: rest) => readPairs fuel (Entries.put name v fields) rest
        | some (v, '}' :: rest) => some (Entries.put name v fields, rest)
        | _ => none
      | _ => none

end

/-- The value that the text of a variable stands for. A text that does not fit as a whole stands for
itself. -/
def value (text : String) : Value :=
  let cs := text.toList
  match readValue (2 * cs.length + 2) cs with
  | some (v, []) => v
  | _ => .plain (.str text)

/-! ## values below keys -/

/-- A value below some keys. -/
def nested (v : Value) : List String → Value
  | [] => v
  | key :: rest => .table [(key, nested v rest)]

end SourceAtlas.Variable
