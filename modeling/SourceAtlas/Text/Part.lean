/-!
Texts in other texts.

* `occursIn`: a text is a part of another one.
* `endsWith`: a text is the end of another one.
-/

namespace SourceAtlas.Text

/-- `part` stands somewhere in a text. -/
def occursIn (part : List Char) : List Char → Bool
  | [] => part.isEmpty
  | c :: cs => part.isPrefixOf (c :: cs) || occursIn part cs

/-- A text ends with `tail`. -/
def endsWith (cs tail : List Char) : Bool := tail.reverse.isPrefixOf cs.reverse

end SourceAtlas.Text
