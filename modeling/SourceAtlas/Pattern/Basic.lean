import SourceAtlas.Text.Blank
import SourceAtlas.Text.Word

/-!
Patterns of text.

* `CharSet`: sets of characters. `Edge`: places between characters.
* `Pattern`: characters, edges, sequences, choices, repetitions, and one part whose text is kept.
* Ways to build patterns: `Pattern.text`, `Pattern.sequence`, `Pattern.choice`, `Pattern.run`,
  `Pattern.stretch`.
-/

namespace SourceAtlas

inductive CharSet where
  | only (c : Char)
  | range (first last : Char)
  | word
  | blank
  | either (a b : CharSet)
  | except (a : CharSet)
deriving DecidableEq, Repr

namespace CharSet

def contains : CharSet → Char → Bool
  | only a, c => c == a
  | range first last, c => first ≤ c && c ≤ last
  | word, c => Text.isWord c
  | blank, c => Text.isBlank c
  | either a b, c => a.contains c || b.contains c
  | except a, c => !a.contains c

/-- A set and some more characters. -/
def adding (a : CharSet) (more : String) : CharSet :=
  more.toList.foldl (fun set c => either set (only c)) a

/-- The characters of a text, of which there is at least one. -/
def oneOf (first : Char) (more : String) : CharSet := (only first).adding more

/-- Any character of a line. -/
def inLine : CharSet := except (only '\n')

end CharSet

inductive Edge where
  /-- Before the first character. -/
  | start
  /-- After the last character. -/
  | stop
  /-- Between a word character and one that is none, or at an end of the text next to one. -/
  | word
deriving DecidableEq, Repr

/-- Whether an edge lies between two neighbouring characters. -/
def Edge.holds (edge : Edge) (before after : Option Char) : Bool :=
  match edge with
  | start => before.isNone
  | stop => after.isNone
  | word => before.any Text.isWord != after.any Text.isWord

inductive Pattern where
  | empty
  | char (set : CharSet)
  | edge (edge : Edge)
  | seq (a b : Pattern)
  /-- The first pattern, or else the second. -/
  | orElse (a b : Pattern)
  /-- The pattern any number of times, as often as possible or, if `short`, as rarely as
  possible. -/
  | many (short : Bool) (a : Pattern)
  /-- The part of the text that is kept. -/
  | keep (a : Pattern)
deriving Repr

namespace Pattern

/-- Exactly the given text. -/
def text (s : String) : Pattern := s.toList.foldr (fun c rest => seq (char (.only c)) rest) empty

def sequence (parts : List Pattern) : Pattern := parts.foldr seq empty

/-- The first of several patterns that leads to a match. -/
def choice : List Pattern → Pattern
  | [] => empty
  | [a] => a
  | a :: rest => orElse a (choice rest)

/-- The pattern if possible, otherwise nothing. -/
def optional (a : Pattern) : Pattern := orElse a empty

/-- Any number of characters of a set. -/
def run (set : CharSet) : Pattern := many false (char set)

/-- At least one character of a set. -/
def stretch (set : CharSet) : Pattern := seq (char set) (run set)

end Pattern

end SourceAtlas
