import SourceAtlas.Report.Text
import SourceAtlas.Text.Lines

/-!
The arguments of the program.

* `Command`: what the program is asked to do.
* `Request`: a command with its settings file, or a question about the program itself.
* `parse`: the request that arguments make.

Switches come before or after the name of the command. A switch with a value takes it from the same
argument or from the next one. Arguments after `--` are no switches.
-/

namespace SourceAtlas.CommandLine

inductive Command where
  | analyze (root : String) (format : Format) (detailed : Bool)
  | showSettings
deriving DecidableEq, Repr

inductive Request where
  | run (command : Command) (settingsFile : Option String)
  | version
  | help
  /-- The arguments make no sense. -/
  | misuse
deriving DecidableEq, Repr

/-- Where an argument stands: before the name of a command, or after it. -/
inductive Scope where
  | program
  | analyze
  | config
deriving DecidableEq, Repr

inductive Switch where
  | settingsFile
  | verbose
  | quiet
  | version
  | help
  | format
  | detailed
deriving DecidableEq, Repr

namespace Switch

def takesValue : Switch → Bool
  | settingsFile | format => true
  | _ => false

/-- The switches that may stand in a scope. -/
def isKnownIn (scope : Scope) : Switch → Bool
  | version => scope == .program
  | format | detailed => scope == .analyze
  | _ => true

def all : List Switch := [settingsFile, verbose, quiet, version, help, format, detailed]

def longName : Switch → String
  | settingsFile => "config"
  | verbose => "verbose"
  | quiet => "quiet"
  | version => "version"
  | help => "help"
  | format => "format"
  | detailed => "detailed"

def letter? : Switch → Option Char
  | settingsFile => some 'c'
  | verbose => none
  | quiet => some 'q'
  | version => some 'V'
  | help => some 'h'
  | format => some 'f'
  | detailed => some 'd'

def ofLong? (scope : Scope) (name : List Char) : Option Switch :=
  all.find? fun s => s.isKnownIn scope && s.longName.toList == name

def ofLetter? (scope : Scope) (c : Char) : Option Switch :=
  all.find? fun s => s.isKnownIn scope && s.letter? == some c

end Switch

/-- What has been set in a scope. -/
structure Options where
  settingsFile : Option String
  verbose : Bool
  quiet : Bool
  format : Option Format
  detailed : Bool
  root : Option String

namespace Options

def none : Options := ⟨.none, false, false, .none, false, .none⟩

/-- Sets a switch without a value; each one may be set only once. -/
def raise (o : Options) : Switch → Except Request Options
  | .verbose => if o.verbose then .error .misuse else .ok { o with verbose := true }
  | .quiet => if o.quiet then .error .misuse else .ok { o with quiet := true }
  | .detailed => if o.detailed then .error .misuse else .ok { o with detailed := true }
  | .version => .error .version
  | .help => .error .help
  | .settingsFile | .format => .error .misuse

def formatOf? (text : String) : Option Format :=
  if text = "text" then some .text else if text = "json" then some .json else .none

/-- Sets a switch with a value. -/
def assign (o : Options) (text : String) : Switch → Except Request Options
  | .settingsFile =>
    if o.settingsFile.isSome || text.isEmpty then .error .misuse
    else .ok { o with settingsFile := some text }
  | .format =>
    match o.format, formatOf? text with
    | .none, some format => .ok { o with format := some format }
    | _, _ => .error .misuse
  | _ => .error .misuse

/-- Takes an argument that is no switch. Only one, the root of an analysis, is possible. -/
def place (o : Options) (scope : Scope) (text : String) : Except Request Options :=
  if scope != .analyze || o.root.isSome || text.isEmpty then .error .misuse
  else .ok { o with root := some text }

end Options

/-- What is left to do after an argument: nothing, or to find the value of a switch. -/
abbrev Reading := Except Request (Options × Option Switch)

/-- An argument of the form `--name` or `--name=value`, after the two dashes. -/
def readLong (scope : Scope) (o : Options) (cs : List Char) : Reading :=
  match Switch.ofLong? scope (cs.takeWhile (· != '=')), cs.dropWhile (· != '=') with
  | none, _ => .error .misuse
  | some s, [] => if s.takesValue then .ok (o, some s) else (o.raise s).map fun o => (o, none)
  | some s, _ :: value => (o.assign (String.ofList value) s).map fun o => (o, none)

/-- An argument of letters, after the dash. What follows the letter of a switch with a value is the
value. -/
def readLetters (scope : Scope) (o : Options) : List Char → Reading
  | [] => .ok (o, none)
  | c :: rest =>
    match Switch.ofLetter? scope c with
    | none => .error .misuse
    | some s =>
      if s.takesValue then
        match rest with
        | [] => .ok (o, some s)
        | '=' :: value => (o.assign (String.ofList value) s).map fun o => (o, none)
        | value => (o.assign (String.ofList value) s).map fun o => (o, none)
      else
        match o.raise s with
        | .error request => .error request
        | .ok o => readLetters scope o rest

/-- An argument that is a switch. A dash alone is none. -/
def isSwitch : List Char → Bool
  | '-' :: _ :: _ => true
  | _ => false

/-- The options that arguments after `--` add. -/
def readPlain (scope : Scope) (o : Options) : List String → Except Request Options
  | [] => .ok o
  | arg :: rest =>
    match o.place scope arg with
    | .error request => .error request
    | .ok o => readPlain scope o rest

/-- The request of a complete list of arguments; `outer` are the options before the command. -/
def finish (scope : Scope) (outer o : Options) : Request :=
  let settingsFile := o.settingsFile.or outer.settingsFile
  match scope with
  | .program => .misuse
  | .analyze =>
    .run (.analyze (o.root.getD ".") (o.format.getD .text) o.detailed) settingsFile
  | .config => .run .showSettings settingsFile

/-- The request of arguments after the word `help`. They may name one command. -/
def helpOn : List String → Request
  | [] | ["analyze"] | ["config"] | ["help"] => .help
  | _ => .misuse

/-- The request of the arguments that are left. `waiting` is a switch that needs a value. -/
def parseFrom (scope : Scope) (outer o : Options) (waiting : Option Switch) :
    List String → Request
  | [] => if waiting.isSome then .misuse else finish scope outer o
  | arg :: rest =>
    let cs := arg.toList
    match waiting with
    | some s =>
      if isSwitch cs then .misuse
      else
        match o.assign arg s with
        | .error request => request
        | .ok o => parseFrom scope outer o none rest
    | none =>
      if cs = ['-', '-'] then
        match readPlain scope o rest with
        | .error request => request
        | .ok o => finish scope outer o
      else if isSwitch cs then
        match if cs.take 2 = ['-', '-'] then readLong scope o (cs.drop 2)
          else readLetters scope o (cs.drop 1) with
        | .error request => request
        | .ok (o, waiting) => parseFrom scope outer o waiting rest
      else if scope = .program then
        if arg = "analyze" then parseFrom .analyze o .none none rest
        else if arg = "config" then parseFrom .config o .none none rest
        else if arg = "help" then helpOn rest
        else .misuse
      else
        match o.place scope arg with
        | .error request => request
        | .ok o => parseFrom scope outer o none rest

/-- The request that arguments make. -/
def parse (args : List String) : Request := parseFrom .program .none .none none args

end SourceAtlas.CommandLine
