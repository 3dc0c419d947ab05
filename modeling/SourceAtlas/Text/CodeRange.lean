/-!
Sorted tables of code-point ranges.

* `inRanges`: whether a code point lies in one of the ranges of a table, found by bisection.
-/

namespace SourceAtlas.Text

/-- Bisection of the rows `lo, …, hi - 1` of a table; `fuel` bounds the number of halvings. -/
def bisectRanges (table : Array (Nat × Nat)) (n : Nat) : Nat → Nat → Nat → Bool
  | 0, _, _ => false
  | fuel + 1, lo, hi =>
    if hi ≤ lo then false
    else
      let mid := (lo + hi) / 2
      match table[mid]? with
      | none => false
      | some (first, last) =>
        if n < first then bisectRanges table n fuel lo mid
        else if last < n then bisectRanges table n fuel (mid + 1) hi
        else true

/-- Membership in a table whose ranges are disjoint and in increasing order. -/
def inRanges (table : Array (Nat × Nat)) (n : Nat) : Bool :=
  bisectRanges table n table.size 0 table.size

end SourceAtlas.Text
