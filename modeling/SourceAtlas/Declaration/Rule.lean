import SourceAtlas.Pattern.Search
import SourceAtlas.Record.Node

/-!
Rules that find a declaration in a single line.

* `Rule`: a pattern and the kind of unit that a line with such a pattern declares; the kept part of
  the pattern is the name.
* Patterns that many rules share.
-/

namespace SourceAtlas.Declaration

open Pattern

structure Rule where
  kind : NodeKind
  program : Program

/-- The parts of a rule, one after the other. -/
def rule (kind : NodeKind) (parts : List Pattern) : Rule := ⟨kind, (sequence parts).program⟩

/-- A rule for what a line begins with. -/
def lineRule (kind : NodeKind) (parts : List Pattern) : Rule := rule kind (edge .start :: parts)

/-- Blanks that may be missing. -/
def blanks : Pattern := run .blank

/-- At least one blank. -/
def gap : Pattern := stretch .blank

/-- A word and the blanks that end it. -/
def keyword (s : String) : Pattern := seq (text s) gap

def maybe (s : String) : Pattern := optional (keyword s)

/-- Any of several words. -/
def wordOf (words : List String) : Pattern := choice (words.map text)

/-- Any number of words out of several, each with the blanks that end it. -/
def modifiers (words : List String) : Pattern := many false (choice (words.map keyword))

/-- Letters, digits and the like, and a dollar sign. -/
def identifier : CharSet := CharSet.word.adding "$"

/-- A kept name of at least one character. -/
def name (set : CharSet) : Pattern := keep (stretch set)

/-- A kept name with a first character of its own. -/
def nameFrom (first rest : CharSet) : Pattern := keep (seq (char first) (run rest))

def upper : CharSet := .range 'A' 'Z'

def lowerOrLine : CharSet := (CharSet.range 'a' 'z').adding "_"

def quote : CharSet := .oneOf '"' "\x27"

/-- A kept text up to the next quote. -/
def unquoted : Pattern := name (.except quote)

/-- A kept text between quotes. -/
def quotedName : Pattern := sequence [char quote, unquoted, char quote]

/-- `opening`, anything but `closing`, `closing`. -/
def bracketed (opening closing : Char) : Pattern :=
  sequence [char (.only opening), run (.except (.only closing)), char (.only closing)]

end SourceAtlas.Declaration
