/-!
Blank characters and the text between them.

* `isBlank`: the characters that count as white space.
* `trim`, `trimStart`, `trimEnd`: a text without the blanks around it.
-/

namespace SourceAtlas.Text

/-- White space: the ASCII controls from tab to carriage return, the space, and the blanks and line
separators beyond ASCII. -/
def isBlank (c : Char) : Bool :=
  let n := c.toNat
  (9 ≤ n && n ≤ 13) || n == 32 || n == 0x85 || n == 0xA0 || n == 0x1680 ||
    (0x2000 ≤ n && n ≤ 0x200A) || n == 0x2028 || n == 0x2029 || n == 0x202F || n == 0x205F ||
    n == 0x3000

def trimStart (cs : List Char) : List Char := cs.dropWhile isBlank

def trimEnd (cs : List Char) : List Char := (cs.reverse.dropWhile isBlank).reverse

def trim (cs : List Char) : List Char := trimEnd (trimStart cs)

/-- A text without the blanks on either side. -/
def trimmed (s : String) : String := String.ofList (trim s.toList)

/-- A text without the blanks at its end. -/
def trimmedEnd (s : String) : String := String.ofList (trimEnd s.toList)

end SourceAtlas.Text
