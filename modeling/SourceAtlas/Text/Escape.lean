/-!
Keys and quoted texts.

* `hexDigit?`: the value of a digit to the base 16. `isKeyChar`: what a key without quotes is made
  of.
* `Escape.Place`: what has been read of an escape.
* `unescape`: the text that a quoted text stands for. Between lines, a backslash at the end of one
  takes away the blanks up to the next text.
-/

namespace SourceAtlas.Text

/-- The value of a digit to the base 16. -/
def hexDigit? (c : Char) : Option Nat :=
  if c.isDigit then some (c.toNat - '0'.toNat)
  else if 'a' ≤ c ∧ c ≤ 'f' then some (c.toNat - 'a'.toNat + 10)
  else if 'A' ≤ c ∧ c ≤ 'F' then some (c.toNat - 'A'.toNat + 10)
  else none

/-- What a key without quotes is made of. -/
def isKeyChar (c : Char) : Bool := c.isAlphanum || c == '_' || c == '-'

inductive Escape.Place where
  | plain
  /-- After a backslash. -/
  | escaped
  /-- In the code of a character: how many digits follow, and their value so far. -/
  | code (left value : Nat)
  /-- After a backslash and blanks, with or without the end of a line among them. -/
  | blanks (lineEnded : Bool)
deriving DecidableEq, Repr

namespace Escape

/-- The character that a letter after a backslash stands for. -/
def letter? (c : Char) : Option Char :=
  [('"', '"'), ('\\', '\\'), ('b', '\x08'), ('f', '\x0c'), ('n', '\n'), ('r', '\r'),
    ('t', '\t')].lookup c

/-- The character with a code. -/
def character? (n : Nat) : Option Char := if n.isValidChar then some (Char.ofNat n) else none

/-- Control characters other than the tabulator have to be escaped. -/
def isAllowed (c : Char) : Bool := c == '\t' || (' ' ≤ c && c != '\x7f')

/-- What a character adds to the text, and where it leads. -/
def step (multiline : Bool) (place : Place) (c : Char) : Option (Option Char × Place) :=
  match place with
  | .escaped =>
    if c = 'u' then some (none, .code 4 0)
    else if c = 'U' then some (none, .code 8 0)
    else if multiline && (c == ' ' || c == '\t') then some (none, .blanks false)
    else if multiline && c == '\n' then some (none, .blanks true)
    else (letter? c).map fun d => (some d, .plain)
  | .code left value =>
    match hexDigit? c with
    | none => none
    | some d =>
      if 1 < left then some (none, .code (left - 1) (value * 16 + d))
      else (character? (value * 16 + d)).map fun c => (some c, .plain)
  | .blanks lineEnded =>
    if c = ' ' ∨ c = '\t' then some (none, .blanks lineEnded)
    else if c = '\n' then some (none, .blanks true)
    else if lineEnded then plainStep c
    else none
  | .plain => plainStep c
where
  plainStep (c : Char) : Option (Option Char × Place) :=
    if c = '\\' then some (none, .escaped)
    else if isAllowed c || (multiline && c == '\n') then some (some c, .plain)
    else none

/-- The text may end here. -/
def isComplete : Place → Bool
  | .plain | .blanks true => true
  | _ => false

def runFrom (multiline : Bool) (place : Place) : List Char → Option (List Char)
  | [] => if isComplete place then some [] else none
  | c :: cs =>
    match step multiline place c with
    | none => none
    | some (new, place) => (runFrom multiline place cs).map fun rest => new.toList ++ rest

end Escape

/-- The text that a quoted text stands for, if all its escapes are valid. -/
def unescape (multiline : Bool) (cs : List Char) : Option (List Char) :=
  Escape.runFrom multiline .plain cs

/-- A quoted text up to the quote that ends it, and what follows. A character after a backslash ends
nothing. -/
def upToQuote : List Char → Option (List Char × List Char)
  | [] => none
  | '"' :: rest => some ([], rest)
  | '\\' :: c :: rest => (upToQuote rest).map fun found => ('\\' :: c :: found.1, found.2)
  | c :: rest => (upToQuote rest).map fun found => (c :: found.1, found.2)

end SourceAtlas.Text
