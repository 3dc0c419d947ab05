/-!
A text as a sequence of lines.

* `splitOn`: the pieces of a text between separators, at least one.
* `splitLines`: the pieces between line feeds; `countLines` is their number.
* `terminatedLines`: the lines of a text in which each line feed ends a line and takes a carriage
  return before it along.
* `lineStarts`: the byte offset at which each line begins; `locate` finds the line of an offset.
* `shorten`: the beginning of a long line, marked as cut.
* `sliceBytes`: the part of a text between two byte offsets.
-/

namespace SourceAtlas.Text

/-- The pieces of a text between the characters that satisfy `cut`, or of bytes between those that
do. A text without one is a single piece. -/
def splitOn {α : Type} (cut : α → Bool) : List α → List (List α)
  | [] => [[]]
  | c :: cs =>
    if cut c then [] :: splitOn cut cs
    else
      match splitOn cut cs with
      | [] => [[c]]
      | piece :: pieces => (c :: piece) :: pieces

/-- The pieces of a text between line feeds. -/
def splitLines (cs : List Char) : List (List Char) := splitOn (· == '\n') cs

/-- One more than the number of line feeds. -/
def countLines (s : String) : Nat := s.toList.count '\n' + 1

/-- A line without the carriage return at its end. -/
def dropReturn (line : List Char) : List Char :=
  if line.getLast? = some '\r' then line.dropLast else line

/-- Lines ended by a line feed; only what follows the last line feed keeps a carriage return at its
end, and it counts as a line only if it is not empty. -/
def terminatedLines (cs : List Char) : List (List Char) :=
  let pieces := splitLines cs
  let last := pieces.getLast?.getD []
  pieces.dropLast.map dropReturn ++ (if last.isEmpty then [] else [last])

/-- Byte offsets of the beginnings of the lines that follow the line feeds of `cs`, the first
character of which stands at `offset`. -/
def lineStartsFrom (offset : Nat) : List Char → List Nat
  | [] => []
  | c :: cs =>
    let next := offset + c.utf8Size
    if c = '\n' then next :: lineStartsFrom next cs else lineStartsFrom next cs

/-- The byte offset of the beginning of every line. -/
def lineStarts (s : String) : List Nat := 0 :: lineStartsFrom 0 s.toList

/-- The number of the line, from zero, in which a byte offset lies, and the offset within it, given
the beginnings of the lines. -/
def locate (starts : List Nat) (offset : Nat) : Nat × Nat :=
  let upTo := starts.takeWhile (· ≤ offset)
  (upTo.length - 1, offset - upTo.getLast?.getD 0)

/-- At most `limit` characters of a line; a longer one is cut there and followed by three dots. -/
def shorten (limit : Nat) (line : List Char) : List Char :=
  if (line.drop limit).isEmpty then line else line.take limit ++ ['.', '.', '.']

/-- What is left of a text after its first `n` bytes. -/
def dropBytes : Nat → List Char → List Char
  | _, [] => []
  | n, c :: cs => if n = 0 then c :: cs else dropBytes (n - c.utf8Size) cs

/-- The first `n` bytes of a text. -/
def takeBytes : Nat → List Char → List Char
  | _, [] => []
  | n, c :: cs => if n < c.utf8Size then [] else c :: takeBytes (n - c.utf8Size) cs

/-- The part of a text between two byte offsets that lie between characters. -/
def sliceBytes (s : String) (start stop : Nat) : String :=
  String.ofList (takeBytes (stop - start) (dropBytes start s.toList))

end SourceAtlas.Text
