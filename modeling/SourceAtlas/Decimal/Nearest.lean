/-!
The double that is nearest to a decimal number.

* `nearest`: the double nearest to a number of digits times a power of ten.
* `ofText?`: the double that a text spells. There may be digits before and after a point, at least
  one in all, and an exponent.
-/

namespace SourceAtlas.Decimal

/-- The number that digits spell. -/
def ofDigits (digits : List Char) : Nat :=
  digits.foldl (fun n c => n * 10 + (c.toNat - '0'.toNat)) 0

/-- The double nearest to `digits` times ten to the power of `exponent`. Where all numbers of the
same magnitude are infinite or zero, the power is not computed. -/
def nearest (digits : Nat) (exponent : Int) : Float :=
  let magnitude := exponent + (Nat.toDigits 10 digits).length
  if digits = 0 ∨ magnitude < -330 then 0
  else if 310 < magnitude then 1 / 0
  else if exponent < 0 then Float.ofScientific digits true (-exponent).toNat
  else Float.ofScientific digits false exponent.toNat

/-- A sign in front of a text, and the rest. -/
def sign (cs : List Char) : Bool × List Char :=
  match cs with
  | '-' :: rest => (true, rest)
  | '+' :: rest => (false, rest)
  | _ => (false, cs)

/-- The exponent that a text spells; none at all counts as zero. -/
def exponentOf? : List Char → Option Int
  | [] => some 0
  | c :: rest =>
    let (negative, digits) := sign rest
    if (c = 'e' ∨ c = 'E') ∧ !digits.isEmpty ∧ digits.all Char.isDigit then
      some (if negative then -(ofDigits digits : Int) else ofDigits digits)
    else none

/-- The double that a text spells. -/
def ofText? (cs : List Char) : Option Float :=
  let (negative, cs) := sign cs
  let whole := cs.takeWhile Char.isDigit
  let rest := cs.dropWhile Char.isDigit
  let (fraction, rest) := match rest with
    | '.' :: rest => (rest.takeWhile Char.isDigit, rest.dropWhile Char.isDigit)
    | _ => ([], rest)
  if whole.isEmpty && fraction.isEmpty then none
  else
    (exponentOf? rest).map fun exponent =>
      let x := nearest (ofDigits (whole ++ fraction)) (exponent - fraction.length)
      if negative then -x else x

end SourceAtlas.Decimal
