import SourceAtlas.Json.Basic

/-!
Numbers as JSON text spells them.

* `Numeral`: sign, digits, fraction and exponent of a number.
* `Numeral.read`: the numeral a text spells, if it spells one.
* `Numeral.value`: its value. A whole number within 64 bits is exact. Any other number is the
  quotient or product of its first digits, as many as fit into 64 bits, and one power of ten, each
  rounded to double precision.
-/

namespace SourceAtlas.Json

structure Numeral where
  negative : Bool
  whole : List Nat
  fraction : Option (List Nat)
  exponent : Option (Bool × List Nat)
deriving DecidableEq, Repr

namespace Numeral

def digit (c : Char) : Nat := c.toNat - '0'.toNat

/-- The digits a text begins with, and what follows them. -/
def digits (cs : List Char) : List Nat × List Char :=
  ((cs.takeWhile Char.isDigit).map digit, cs.dropWhile Char.isDigit)

/-- A run of digits without a needless zero in front. -/
def wholeOk : List Nat → Bool
  | [] => false
  | [_] => true
  | d :: _ => d != 0

def readExponent : List Char → Option (Option (Bool × List Nat))
  | [] => some none
  | c :: cs =>
    if c = 'e' ∨ c = 'E' then
      let (negative, rest) :=
        match cs with
        | '-' :: rest => (true, rest)
        | '+' :: rest => (false, rest)
        | rest => (false, rest)
      match digits rest with
      | (d :: ds, []) => some (some (negative, d :: ds))
      | _ => none
    else none

def readFraction : List Char → Option (Option (List Nat) × List Char)
  | '.' :: cs =>
    match digits cs with
    | ([], _) => none
    | (ds, rest) => some (some ds, rest)
  | cs => some (none, cs)

def read (cs : List Char) : Option Numeral :=
  let (negative, cs) :=
    match cs with
    | '-' :: rest => (true, rest)
    | _ => (false, cs)
  let (whole, rest) := digits cs
  if wholeOk whole then
    match readFraction rest with
    | none => none
    | some (fraction, rest) =>
      (readExponent rest).map fun exponent => ⟨negative, whole, fraction, exponent⟩
  else none

/-- Appends digits to a number as long as it fits into 64 bits; the second component is how many
digits were left over. -/
def absorb : Nat → List Nat → Nat × Nat
  | n, [] => (n, 0)
  | n, d :: ds => if n * 10 + d < UInt64.size then absorb (n * 10 + d) ds else (n, ds.length + 1)

def ofDigits (ds : List Nat) : Nat := ds.foldl (fun n d => n * 10 + d) 0

/-- The power of ten with the given exponent, rounded to double precision. -/
def powerOfTen (n : Nat) : Float := Float.ofScientific 1 false n

/-- A number times a power of ten. Too large a result is refused, too small a one becomes zero;
`rounds` bounds how often the largest power is divided out. -/
def scale (x : Float) (exponent : Int) : Nat → Option Float
  | 0 => some x
  | rounds + 1 =>
    if 0 ≤ exponent then
      if exponent ≤ 308 then
        let y := x * powerOfTen exponent.toNat
        if y.isInf then none else some y
      else if x == 0 then some x
      else none
    else if -308 ≤ exponent then some (x / powerOfTen (-exponent).toNat)
    else if x == 0 then some x
    else scale (x / powerOfTen 308) (exponent + 308) rounds

def signedFloat (negative : Bool) (x : Float) : Float := if negative then -x else x

/-- The number with the given leading digits and power of ten. -/
def approximate (negative : Bool) (significand : Nat) (exponent : Int) : Option Json :=
  (scale significand.toUInt64.toFloat exponent 4).map fun x => .float (signedFloat negative x)

/-- The largest exponent that is taken at its word. -/
def exponentLimit : Nat := 0x7FFFFFFF

def value (n : Numeral) : Option Json :=
  let (significand, left) := absorb 0 n.whole
  if n.fraction.isNone && n.exponent.isNone && left == 0 then
    if !n.negative then some (.int significand)
    else if 0 < significand && significand ≤ 0x8000000000000000 then some (.int (-significand))
    else approximate true significand 0
  else
    let fraction := n.fraction.getD []
    let (significand, unread) := absorb significand fraction
    let exponent : Int := left - ((fraction.length - unread : Nat) : Int)
    match n.exponent with
    | none => approximate n.negative significand exponent
    | some (negativeExponent, ds) =>
      let size := ofDigits ds
      if exponentLimit < size then
        if significand != 0 && !negativeExponent then none
        else some (.float (signedFloat n.negative 0))
      else
        approximate n.negative significand
          (if negativeExponent then exponent - size else exponent + size)

end Numeral

end SourceAtlas.Json
