import SourceAtlas.Declaration.Rule
import SourceAtlas.Language

/-!
The rules of each language, in the order in which they are tried.

* `catalog`: the rules of a language. The rules of TypeScript are those of JavaScript and some more.
-/

namespace SourceAtlas.Declaration

open Pattern

/-- `export`, perhaps with `default`, or neither. -/
def exportMark : Pattern := optional (sequence [keyword "export", maybe "default"])

/-- A constant and the beginning of the function it is bound to. -/
def constant (first : CharSet) : List Pattern :=
  [exportMark, keyword "const", nameFrom first identifier, blanks, text "=", blanks]

def javaScriptRules : List Rule := [
  lineRule .functionComponent
    [exportMark, wordOf ["const", "let", "var"], gap, nameFrom upper identifier, blanks, text "=",
      blanks, text "("],
  lineRule .functionComponent [exportMark, keyword "function", nameFrom upper identifier],
  lineRule .functionDeclaration
    [exportMark, maybe "async", text "function", blanks, optional (text "*"), blanks,
      nameFrom lowerOrLine identifier],
  lineRule .arrowFunction (constant lowerOrLine ++ [text "("]),
  lineRule .asyncArrowFunction (constant lowerOrLine ++ [text "async", blanks, text "("]),
  lineRule .classDeclaration [exportMark, maybe "abstract", keyword "class", name identifier],
  lineRule .importDeclaration
    [keyword "import", many true (char .inLine), keyword "from", quotedName],
  lineRule .importDeclaration [keyword "import", quotedName],
  lineRule .namedExport
    [keyword "export", text "\x7b", name (.except (.only '\x7d')), text "\x7d"],
  lineRule .exportDeclaration [keyword "export", maybe "default"],
  rule .hook
    [edge .word, keep (sequence [text "use", char upper, run identifier]), blanks, text "("],
  rule .reduxSlice [text "createSlice", blanks, text "("],
  rule .reduxStore [text "configureStore", blanks, text "("]]

/-- Declarations that only TypeScript has. -/
def typeScriptExtraRules : List Rule := [
  lineRule .interfaceDeclaration [exportMark, keyword "interface", name identifier],
  lineRule .typeAlias
    [maybe "export", keyword "type", name identifier, blanks,
      optional (sequence [text "<", run (.except (.only '=')), text ">"]), blanks, text "="],
  lineRule .enumDeclaration [maybe "export", maybe "const", keyword "enum", name identifier],
  lineRule .namespaceDeclaration
    [maybe "export", maybe "declare", keyword "namespace", name (identifier.adding ".")]]

def pythonRules : List Rule := [
  lineRule .functionDef [maybe "async", keyword "def", name .word],
  lineRule .classDef [keyword "class", name .word],
  lineRule .plainImport [keyword "import", name (CharSet.word.adding ".")],
  lineRule .importFrom [keyword "from", name (CharSet.word.adding "."), gap, text "import"]]

/-- `public`, `protected`, `private` or none. -/
def javaAccess : Pattern :=
  optional (choice [keyword "public", keyword "protected", keyword "private"])

/-- A method with the given access: the last name before a bracket. -/
def javaMethod (access : String) : Rule :=
  lineRule .methodDeclaration
    [keyword access, run .inLine, gap, name identifier, blanks, text "("]

def javaRules : List Rule := [
  lineRule .classDeclaration
    [javaAccess, modifiers ["abstract", "final", "static"], keyword "class", name identifier],
  lineRule .interfaceDeclaration [javaAccess, keyword "interface", name identifier],
  lineRule .enumDeclaration [javaAccess, keyword "enum", name identifier],
  javaMethod "public",
  javaMethod "protected",
  javaMethod "private",
  lineRule .importDeclaration [keyword "import", maybe "static", name (identifier.adding ".")]]

def goRules : List Rule := [
  lineRule .functionDeclaration [keyword "func", name .word],
  lineRule .methodDeclaration [keyword "func", bracketed '(' ')', blanks, name .word],
  lineRule .structDeclaration [keyword "type", name .word, gap, text "struct"],
  lineRule .interfaceDeclaration [keyword "type", name .word, gap, text "interface"],
  lineRule .importDeclaration
    [keyword "import", optional (seq (stretch (CharSet.word.adding ".")) gap), char quote,
      unquoted]]

/-- `pub`, perhaps with a scope in brackets, or neither. -/
def rustAccess : Pattern :=
  optional (sequence [text "pub", optional (bracketed '(' ')'), gap])

def rustRules : List Rule := [
  lineRule .functionDeclaration
    [rustAccess, maybe "const", maybe "async", maybe "unsafe", keyword "fn", name .word],
  lineRule .structDeclaration [rustAccess, keyword "struct", name .word],
  lineRule .enumDeclaration [rustAccess, keyword "enum", name .word],
  lineRule .traitDeclaration [rustAccess, maybe "unsafe", keyword "trait", name .word],
  lineRule .implDeclaration
    [maybe "unsafe", text "impl", optional (bracketed '<' '>'), gap, name .word],
  lineRule .moduleDeclaration [rustAccess, keyword "mod", name .word],
  lineRule .useDeclaration [rustAccess, keyword "use", name (CharSet.word.adding ":")]]

/-- A header between angle brackets or double quotes. -/
def includeRule : Rule :=
  lineRule .importDeclaration
    [text "#", blanks, text "include", blanks, char (.oneOf '<' "\""),
      name (.except (.oneOf '>' "\"")), char (.oneOf '>' "\"")]

/-- A function head: words in front, signs or blanks, the name, an opening bracket, and no semicolon
to the end of the line. -/
def functionHead (words : List String) (type : CharSet) (signs : CharSet) (last : CharSet) : Rule :=
  lineRule .functionDeclaration
    [modifiers words, stretch type, many false (seq gap (stretch type)),
      stretch signs, name last, blanks, text "(", run (.except (.only ';')), edge .stop]

def cRules : List Rule := [
  includeRule,
  lineRule .structDeclaration [maybe "typedef", keyword "struct", name .word],
  lineRule .enumDeclaration [maybe "typedef", keyword "enum", name .word],
  functionHead ["static", "extern", "inline"] .word (CharSet.blank.adding "*") .word]

/-- A template head, or nothing. -/
def template : Pattern :=
  optional (sequence [text "template", blanks, bracketed '<' '>', blanks])

def cppRules : List Rule := [
  includeRule,
  lineRule .classDeclaration [template, keyword "class", name .word],
  lineRule .structDeclaration [template, keyword "struct", name .word],
  lineRule .namespaceDeclaration [keyword "namespace", name (CharSet.word.adding ":")],
  lineRule .useDeclaration [keyword "using", keyword "namespace", name (CharSet.word.adding ":")],
  functionHead ["static", "extern", "inline", "virtual", "constexpr"] (CharSet.word.adding ":<>")
    (CharSet.blank.adding "*&") (CharSet.word.adding ":~")]

def cSharpRules : List Rule := [
  lineRule .useDeclaration
    [keyword "using", maybe "static", name (CharSet.word.adding "."), blanks, text ";"],
  lineRule .namespaceDeclaration [keyword "namespace", name (CharSet.word.adding ".")],
  lineRule .classDeclaration
    [modifiers ["public", "internal", "private", "protected", "static", "abstract", "sealed",
      "partial"], keyword "class", name .word],
  lineRule .interfaceDeclaration
    [modifiers ["public", "internal", "private", "protected", "partial"], keyword "interface",
      name .word],
  lineRule .structDeclaration
    [modifiers ["public", "internal", "private", "protected", "readonly", "partial"],
      keyword "struct", name .word],
  lineRule .methodDeclaration
    [wordOf ["public", "private", "protected", "internal"], gap, run .inLine, gap, name .word,
      blanks, text "("]]

/-- A file name between quotes, perhaps after an opening bracket. -/
def fileArgument : List Pattern := [blanks, optional (text "("), blanks, quotedName]

def phpRules : List Rule := [
  lineRule .useDeclaration [keyword "use", name (CharSet.word.adding "\\")],
  lineRule .importDeclaration
    ([wordOf ["require", "include"], optional (text "_once")] ++ fileArgument),
  lineRule .namespaceDeclaration [keyword "namespace", name (CharSet.word.adding "\\")],
  lineRule .classDeclaration
    [optional (choice [keyword "abstract", keyword "final"]), keyword "class", name .word],
  lineRule .interfaceDeclaration [keyword "interface", name .word],
  lineRule .traitDeclaration [keyword "trait", name .word],
  lineRule .functionDeclaration
    [modifiers ["public", "private", "protected", "static", "abstract", "final"],
      keyword "function", optional (text "&"), name .word]]

def rubyRules : List Rule := [
  lineRule .importDeclaration ([text "require", optional (text "_relative")] ++ fileArgument),
  lineRule .classDeclaration [keyword "class", name (CharSet.word.adding ":")],
  lineRule .moduleDeclaration [keyword "module", name (CharSet.word.adding ":")],
  lineRule .methodDeclaration
    [keyword "def", optional (text "self."), name (CharSet.word.adding "?!=")]]

/-- The rules of a language; an unknown one has none. -/
def catalog : Language → List Rule
  | .javaScript => javaScriptRules
  | .typeScript => javaScriptRules ++ typeScriptExtraRules
  | .python => pythonRules
  | .java => javaRules
  | .go => goRules
  | .rust => rustRules
  | .cpp => cppRules
  | .c => cRules
  | .cSharp => cSharpRules
  | .php => phpRules
  | .ruby => rubyRules
  | .unknown => []

end SourceAtlas.Declaration
