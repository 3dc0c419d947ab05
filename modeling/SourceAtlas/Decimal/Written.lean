import SourceAtlas.Decimal.Shortest

/-!
Floating-point numbers as text.

* `Layout`: the choices a format makes.
* `Layout.write`: the shortest digits of a number, laid out.
-/

namespace SourceAtlas.Decimal

/-- How a format lays out a number. `plain` says for which positions of the decimal point (counted
from the left of the digits) the number is written without an exponent. -/
structure Layout where
  plain : Int → Bool
  /-- A whole number without an exponent ends in a point and a zero. -/
  wholePoint : Bool
  /-- The least number of digits in an exponent. -/
  exponentDigits : Nat

def zeros (n : Nat) : List Char := List.replicate n '0'

/-- Digits with the decimal point after the first `point` of them. -/
def positional (wholePoint : Bool) (digits : List Char) (point : Int) : List Char :=
  if (digits.length : Int) ≤ point then
    digits ++ zeros (point.toNat - digits.length) ++ if wholePoint then ['.', '0'] else []
  else if 0 < point then digits.take point.toNat ++ '.' :: digits.drop point.toNat
  else '0' :: '.' :: (zeros (-point).toNat ++ digits)

/-- An exponent with its sign and at least so many digits. -/
def exponentText (least : Nat) (exponent : Int) : List Char :=
  let digits := Nat.toDigits 10 exponent.natAbs
  (if exponent < 0 then '-' else '+') :: (zeros (least - digits.length) ++ digits)

/-- Digits with the decimal point after the first, and an exponent of ten. -/
def exponential (least : Nat) (digits : List Char) (point : Int) : List Char :=
  digits.take 1 ++ (if digits.length ≤ 1 then [] else '.' :: digits.drop 1) ++
    'e' :: exponentText least (point - 1)

def Layout.writeSize (layout : Layout) (v : Magnitude) : List Char :=
  let short := v.shortest
  let digits := Nat.toDigits 10 short.digits
  let point := (digits.length : Int) + short.exponent
  if layout.plain point then positional layout.wholePoint digits point
  else exponential layout.exponentDigits digits point

def signed (negative : Bool) (text : List Char) : List Char :=
  if negative then '-' :: text else text

/-- A number in the given layout; `inf` and `NaN` stand for what is not finite. -/
def Layout.write (layout : Layout) (x : Float) : String :=
  String.ofList <|
    match classify x with
    | .nan => "NaN".toList
    | .infinite negative => signed negative "inf".toList
    | .zero negative => signed negative (positional layout.wholePoint ['0'] 1)
    | .finite negative size => signed negative (layout.writeSize size)

end SourceAtlas.Decimal
