/-!
Pages of text for a terminal.

* `Style`: how a piece of text is shown. `Piece`: a text with its style.
* `Line`: the kinds of lines on a page.
* `Page.render`: a page as text, with the codes of the styles or without.
-/

namespace SourceAtlas.Console

inductive Style where
  | plain
  | bold
  | dim
  | cyan
  | red
  | boldUnderlined
deriving DecidableEq, Repr

/-- The codes that switch a style on. -/
def Style.codes : Style → List String
  | plain => []
  | bold => ["1"]
  | dim => ["2"]
  | cyan => ["36"]
  | red => ["31"]
  | boldUnderlined => ["1", "4"]

/-- A control sequence with the given code. -/
def escape (code : String) : String := "\x1b[" ++ code ++ "m"

structure Piece where
  style : Style
  text : String
deriving DecidableEq, Repr

/-- A piece of text; if `color` holds, between the codes of its style and the one that ends it. -/
def Piece.render (color : Bool) (p : Piece) : String :=
  if color && p.style != .plain then
    String.join (p.style.codes.map escape) ++ p.text ++ escape "0"
  else p.text

inductive Line where
  | header (text : String)
  /-- The title of a section, after an empty line and over a rule. -/
  | heading (title : String)
  | text (pieces : List Piece)
  /-- A value with its label. -/
  | item (label value : String)
  | error (message : String)
deriving DecidableEq, Repr

namespace Line

/-- A line of plain text. -/
def plain (s : String) : Line := text [⟨.plain, s⟩]

/-- The rule below the title of a section. -/
def rule : String := String.ofList (List.replicate 40 '─')

def render (color : Bool) : Line → String
  | header s => Piece.render color ⟨.boldUnderlined, s⟩ ++ "\n"
  | heading title => "\n" ++ Piece.render color ⟨.bold, title⟩ ++ "\n" ++ rule ++ "\n"
  | text pieces => String.join (pieces.map (Piece.render color)) ++ "\n"
  | item label value => "  " ++ Piece.render color ⟨.cyan, label ++ ":"⟩ ++ " " ++ value ++ "\n"
  | error message => "  " ++ Piece.render color ⟨.red, "✗"⟩ ++ " " ++ message ++ "\n"

end Line

abbrev Page := List Line

def Page.render (color : Bool) (page : Page) : String := String.join (page.map (Line.render color))

end SourceAtlas.Console
