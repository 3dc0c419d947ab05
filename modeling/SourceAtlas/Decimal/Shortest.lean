/-!
The shortest decimal that reads back as a given binary floating-point number.

* `Magnitude`: a positive number as a significand times a power of two, with the interval of reals
  that round to it.
* `Magnitude.shortest`: the point of the coarsest decimal grid that lies in this interval, and of
  two such points the nearer one.
-/

namespace SourceAtlas.Decimal

/-- The positive number `significand * 2 ^ exponent`. The number below it is only half as far as
the one above it if `narrowBelow` holds. -/
structure Magnitude where
  significand : Nat
  exponent : Int
  narrowBelow : Bool

/-- The number `digits * 10 ^ exponent`. -/
structure Scientific where
  digits : Nat
  exponent : Int
deriving DecidableEq, Repr

/-- What a floating-point number is. -/
inductive Class where
  | nan
  | infinite (negative : Bool)
  | zero (negative : Bool)
  | finite (negative : Bool) (size : Magnitude)

/-- The sign and size of a double-precision number, read off its bits. -/
def classify (x : Float) : Class :=
  let bits := x.toBits.toNat
  let negative := bits / 0x8000000000000000 == 1
  let biased : Nat := bits / 0x10000000000000 % 2048
  let fraction : Nat := bits % 0x10000000000000
  if biased = 2047 then if fraction = 0 then .infinite negative else .nan
  else if biased = 0 then
    if fraction = 0 then .zero negative else .finite negative ⟨fraction, -1074, false⟩
  else
    .finite negative
      ⟨fraction + 0x10000000000000, (biased : Int) - 1075, fraction = 0 && 1 < biased⟩

namespace Magnitude

/-- The rational `2 ^ (exponent - 2)` as numerator and denominator: a quarter of the distance to the
next number, in which the ends of the interval are whole. -/
def quarter (v : Magnitude) : Nat × Nat :=
  if 2 ≤ v.exponent then (Nat.pow 2 (v.exponent - 2).toNat, 1)
  else (1, Nat.pow 2 (2 - v.exponent).toNat)

/-- The grid width `10 ^ k` as numerator and denominator. -/
def gridWidth (k : Int) : Nat × Nat :=
  if 0 ≤ k then (Nat.pow 10 k.toNat, 1) else (1, Nat.pow 10 (-k).toNat)

/-- The point `c * 10 ^ k` rounds to `v`: it lies between the midpoints to the two neighbours of
`v`, and on one of them only if the significand of `v` is even. -/
def covers (v : Magnitude) (k : Int) (c : Nat) : Bool :=
  let (unit, unitDen) := v.quarter
  let (width, widthDen) := gridWidth k
  let point := c * width * unitDen
  let low := (4 * v.significand - if v.narrowBelow then 1 else 2) * unit * widthDen
  let high := (4 * v.significand + 2) * unit * widthDen
  if v.significand % 2 = 0 then low ≤ point && point ≤ high else low < point && point < high

/-- The point of the grid of width `10 ^ k` next to `v` that rounds to `v`, the nearer one if both
neighbours do, and the even one if they are equally near. -/
def onGrid (v : Magnitude) (k : Int) : Option Nat :=
  let (unit, unitDen) := v.quarter
  let (width, widthDen) := gridWidth k
  let value := 4 * v.significand * unit * widthDen
  let step := width * unitDen
  let c := value / step
  let below := c != 0 && v.covers k c
  let above := v.covers k (c + 1)
  if below && above then
    let left := value - c * step
    let right := (c + 1) * step - value
    some (if left < right ∨ (left = right ∧ c % 2 = 0) then c else c + 1)
  else if below then some c
  else if above then some (c + 1)
  else none

/-- The first grid that has a point for `v`, from the width `10 ^ k` down. -/
def shortestFrom (v : Magnitude) (k : Int) : Nat → Scientific
  | 0 => ⟨0, 0⟩
  | fuel + 1 =>
    match v.onGrid k with
    | some c => ⟨c, k⟩
    | none => v.shortestFrom (k - 1) fuel

/-- The fewest digits that read back as `v`. The grids run from beyond the largest number down to
below the smallest. -/
def shortest (v : Magnitude) : Scientific := v.shortestFrom 310 640

end Magnitude

end SourceAtlas.Decimal
