import SourceAtlas.Text.Printable

/-!
Quoted text, as messages show a key.

* `quoted`: the text between double quotes, with escapes for quotes, backslashes and all
  characters that would not show.
-/

namespace SourceAtlas.Text

/-- A code point in hexadecimal digits between braces. -/
def codeEscape (c : Char) : List Char :=
  "\\u\x7b".toList ++ Nat.toDigits 16 c.toNat ++ "\x7d".toList

/-- How one character is written between quotes. -/
def escapeChar (c : Char) : List Char :=
  if c = '"' then "\\\"".toList
  else if c = '\\' then "\\\\".toList
  else if c = '\n' then "\\n".toList
  else if c = '\r' then "\\r".toList
  else if c = '\t' then "\\t".toList
  else if c.toNat = 0 then "\\0".toList
  else if isShown c then [c]
  else codeEscape c

def quoted (s : String) : String :=
  String.ofList ('"' :: (s.toList.flatMap escapeChar ++ ['"']))

end SourceAtlas.Text
