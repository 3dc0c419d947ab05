/-!
Text in bytes that need not be well-formed UTF-8.

* `bytes`: the bytes of a text.
* `decodeUnits`: the characters of a byte sequence, with `none` for every maximal ill-formed part.
* `decodeLossy`: the text with each ill-formed part shown as one replacement character.
* `decode?`: the text, if all of it is well formed.
-/

namespace SourceAtlas.Text

/-- The bytes of a text. -/
def bytes (s : String) : List UInt8 := s.toUTF8.data.toList

namespace Utf8

/-- Where a decoder stands between two bytes: at the start of a character, or inside one that still
needs `more` bytes, the next of them between `low` and `high`. -/
inductive Place where
  | start
  | inside (more value low high : Nat)
deriving DecidableEq, Repr

/-- The first byte of a character: what is complete already, and where the decoder stands then. -/
def lead (b : Nat) : List (Option Char) × Place :=
  if b < 0x80 then ([some (Char.ofNat b)], .start)
  else if b < 0xC2 then ([none], .start)
  else if b < 0xE0 then ([], .inside 1 (b - 0xC0) 0x80 0xBF)
  else if b < 0xF0 then
    ([], .inside 2 (b - 0xE0) (if b = 0xE0 then 0xA0 else 0x80) (if b = 0xED then 0x9F else 0xBF))
  else if b < 0xF5 then
    ([], .inside 3 (b - 0xF0) (if b = 0xF0 then 0x90 else 0x80) (if b = 0xF4 then 0x8F else 0xBF))
  else ([none], .start)

/-- One byte. A byte that cannot continue the open character closes it as ill formed and is then
read as a first byte. -/
def step (place : Place) (b : Nat) : List (Option Char) × Place :=
  match place with
  | .start => lead b
  | .inside more value low high =>
    if low ≤ b ∧ b ≤ high then
      let value := value * 64 + (b - 0x80)
      if more ≤ 1 then ([some (Char.ofNat value)], .start)
      else ([], .inside (more - 1) value 0x80 0xBF)
    else
      let (units, next) := lead b
      (none :: units, next)

def decodeFrom (place : Place) : List UInt8 → List (Option Char)
  | [] =>
    match place with
    | .start => []
    | .inside .. => [none]
  | b :: bs =>
    let (units, next) := step place b.toNat
    units ++ decodeFrom next bs

def decodeUnits (bytes : List UInt8) : List (Option Char) := decodeFrom .start bytes

/-- The character that stands for an ill-formed part. -/
def replacement : Char := Char.ofNat 0xFFFD

def decodeLossy (bytes : List UInt8) : String :=
  String.ofList ((decodeUnits bytes).map fun unit => unit.getD replacement)

def decode? (bytes : List UInt8) : Option String :=
  ((decodeUnits bytes).mapM id).map String.ofList

end Utf8

end SourceAtlas.Text
