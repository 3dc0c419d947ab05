import SourceAtlas.Declaration.Extract
import SourceAtlas.Interpreter.Run
import SourceAtlas.Settings.Basic
import SourceAtlas.Syntax.Statement

/-!
The analysis of a text in a known language.

* `Toolchain`: the parsers that the analysis calls but does not contain.
* `primaryStrategy?`: the strategy that is tried first.
* `analyzeContent`: the record of a text. If the first strategy fails, or if there is none, the
  declarations are found line by line.
-/

namespace SourceAtlas

structure Toolchain where
  /-- The syntax tree of a text in a dialect of TypeScript. -/
  grammar : Syntax.Dialect → String → Option Syntax.Tree
  /-- What a command does with the text of a Python file. -/
  interpreter : String → String → Interpreter.Outcome

namespace Analysis

/-- The strategy that is tried first in a language. -/
def primaryStrategy? (settings : AnalysisSettings) : Language → Option Strategy
  | .javaScript | .typeScript => some .grammar
  | .python => if settings.interpreter.enabled then some .interpreter else none
  | _ => none

/-- The units that the grammar finds in a text. -/
def grammarNodes (tools : Toolchain) (settings : AnalysisSettings) (path content : String) :
    Except FileFailure (List Node) :=
  let dialect := Syntax.Dialect.ofPath path
  match Syntax.statements settings.maxTreeDepth content (tools.grammar dialect content) with
  | .ok nodes => .ok nodes
  | .error fault => .error (.unparsed Strategy.grammar.text (fault.message dialect))

/-- The units that the interpreter finds in a text. -/
def interpreterNodes (tools : Toolchain) (settings : InterpreterSettings) (content : String) :
    Except Crash (Except FileFailure (List Node)) :=
  let outcome := tools.interpreter settings.command content
  (Interpreter.statements settings.command settings.seconds content outcome).map fun found =>
    match found with
    | .ok nodes => .ok nodes
    | .error fault => .error (.unparsed Strategy.interpreter.text fault.message)

/-- The units that a strategy finds in a text. -/
def nodes (tools : Toolchain) (settings : AnalysisSettings) (language : Language)
    (path content : String) : Strategy → Except Crash (Except FileFailure (List Node))
  | .grammar => .ok (grammarNodes tools settings path content)
  | .interpreter => interpreterNodes tools settings.interpreter content
  | .patterns => .ok (.ok (Declaration.extract language settings.snippetWidth content))

/-- The record of a text whose declarations are found line by line. -/
def patternRecord (settings : AnalysisSettings) (path : String) (language : Language)
    (content : String) (byteSize : Nat) : Record :=
  .parsed path language .patterns (Declaration.extract language settings.snippetWidth content)
    (.ofContent content byteSize)

/-- The record of a text, given what the first strategy finds. -/
def strategyRecord (settings : AnalysisSettings) (path : String) (language : Language)
    (content : String) (byteSize : Nat) (strategy : Strategy) :
    Except FileFailure (List Node) → Record
  | .ok nodes => .parsed path language strategy nodes (.ofContent content byteSize)
  | .error _ => patternRecord settings path language content byteSize

/-- The record of a text. -/
def analyzeContent (tools : Toolchain) (settings : AnalysisSettings) (path : String)
    (language : Language) (content : String) (byteSize : Nat) : Except Crash Record :=
  match primaryStrategy? settings language with
  | none => .ok (patternRecord settings path language content byteSize)
  | some strategy =>
    (nodes tools settings language path content strategy).map
      (strategyRecord settings path language content byteSize strategy)

end Analysis

end SourceAtlas
