import SourceAtlas.Json.Basic
import SourceAtlas.Decimal.Written

/-!
Writing JSON text.

* `compact`: on one line, without blanks.
* `pretty`: an item or field to a line, indented by two blanks a level.
-/

namespace SourceAtlas.Json

/-- Numbers with a fraction are written in full from four zeros after the point up to sixteen digits
before it, and always show a point or an exponent. An exponent has a sign and at least two
digits. -/
def floatLayout : Decimal.Layout := ⟨fun point => -5 < point && point ≤ 16, true, 2⟩

def writeFloat (x : Float) : String := if x.isFinite then floatLayout.write x else "null"

/-- A control character by its number. -/
def controlEscape (c : Char) : List Char :=
  let digits := Nat.toDigits 16 c.toNat
  ['\\', 'u'] ++ List.replicate (4 - digits.length) '0' ++ digits

def escapeChar (c : Char) : List Char :=
  if c = '"' then ['\\', '"']
  else if c = '\\' then ['\\', '\\']
  else if c = '\x08' then ['\\', 'b']
  else if c = '\t' then ['\\', 't']
  else if c = '\n' then ['\\', 'n']
  else if c = '\x0c' then ['\\', 'f']
  else if c = '\r' then ['\\', 'r']
  else if c.toNat < 0x20 then controlEscape c
  else [c]

def writeString (s : String) : String :=
  String.ofList ('"' :: (s.toList.flatMap escapeChar ++ ['"']))

/-- Everything but arrays and objects. -/
def writeScalar : Json → String
  | .null => "null"
  | .bool true => "true"
  | .bool false => "false"
  | .int n => toString n
  | .float x => writeFloat x
  | .str s => writeString s
  | .arr _ => "[]"
  | .obj _ => "\x7b\x7d"

mutual

def compact : Json → String
  | .arr items => "[" ++ ",".intercalate (compactItems items) ++ "]"
  | .obj fields => "\x7b" ++ ",".intercalate (compactFields fields) ++ "\x7d"
  | v => writeScalar v

def compactItems : List Json → List String
  | [] => []
  | v :: vs => compact v :: compactItems vs

def compactFields : List (String × Json) → List String
  | [] => []
  | f :: fs => compactField f :: compactFields fs

def compactField : String × Json → String
  | (name, v) => writeString name ++ ":" ++ compact v

end

/-- A line feed and the blanks of a level. -/
def newline (level : Nat) : String := String.ofList ('\n' :: List.replicate (2 * level) ' ')

/-- Lines between two brackets, one level further in. -/
def block (level : Nat) (opening closing : String) (lines : List String) : String :=
  opening ++ newline (level + 1) ++ ("," ++ newline (level + 1)).intercalate lines ++
    newline level ++ closing

mutual

def prettyAt (level : Nat) : Json → String
  | .arr (v :: vs) => block level "[" "]" (prettyItems (level + 1) (v :: vs))
  | .obj (f :: fs) => block level "\x7b" "\x7d" (prettyFields (level + 1) (f :: fs))
  | v => writeScalar v

def prettyItems (level : Nat) : List Json → List String
  | [] => []
  | v :: vs => prettyAt level v :: prettyItems level vs

def prettyFields (level : Nat) : List (String × Json) → List String
  | [] => []
  | f :: fs => prettyField level f :: prettyFields level fs

def prettyField (level : Nat) : String × Json → String
  | (name, v) => writeString name ++ ": " ++ prettyAt level v

end

def pretty (v : Json) : String := prettyAt 0 v

end SourceAtlas.Json
