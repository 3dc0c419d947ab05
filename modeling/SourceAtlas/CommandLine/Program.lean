import SourceAtlas.CommandLine.Arguments
import SourceAtlas.Settings.Layer
import SourceAtlas.Walk.Records

/-!
The program as a function of its arguments and surroundings.

* `Surroundings`: files, environment variables and parsers.
* `analyze`: the report on a directory in a format.
* `Answer`: exit status, standard output and error message of the program.
* `answer`: what the program does.
-/

namespace SourceAtlas.CommandLine

structure Surroundings where
  fs : FileSystem
  /-- The names and texts of the environment variables. -/
  environment : List (String × String)
  tools : Toolchain

/-- The settings of a run. -/
def settings (s : Surroundings) (file : Option String) : Except RunError Settings :=
  match Settings.load s.fs s.environment file with
  | .ok settings => .ok settings
  | .error fault => .error (.settings fault.message)

/-- The report on a directory in a format, unless an analysis breaks off. -/
def analyze (s : Surroundings) (file : Option String) (root : String) (format : Format)
    (detailed color : Bool) : Except RunError (Except Crash String) :=
  match settings s file with
  | .error e => .error e
  | .ok settings =>
    match survey s.tools s.fs settings (Text.bytes root) with
    | .error e => .error e
    | .ok files =>
      .ok (files.map fun files => (Report.ofRecords settings files).render format detailed color)

structure Answer where
  exit : Nat
  output : String
  error : Option String
deriving DecidableEq, Repr

/-- The line that the error message begins on. -/
def Answer.errorLine? (a : Answer) : Option String :=
  a.error.map fun text => String.ofList (Text.dropReturn (text.toList.takeWhile (· != '\n')))

/-- The output of a command, or the message of the error that ends it. A command that breaks off has
neither. -/
def Answer.of : Except RunError (Except Crash String) → Answer
  | .ok (.ok output) => ⟨0, output, none⟩
  | .ok (.error _) => ⟨101, "", none⟩
  | .error e => ⟨1, "", some e.message⟩

def versionText : String := "repoguide 0.1.0\n"

def helpText : String :=
  "Structural summary of a multi-language source tree\n\n" ++
  "Usage: repoguide [OPTIONS] <COMMAND>\n\n" ++
  "Commands:\n" ++
  "  analyze [PATH]  Analyze a directory and print its report\n" ++
  "  config          Print the effective configuration\n\n" ++
  "Options:\n" ++
  "  -c, --config <CONFIG>  Config file merged over .repoguide.toml and the defaults\n" ++
  "  -f, --format <FORMAT>  Format of the report: text or json\n" ++
  "  -d, --detailed         List every file grouped by language\n" ++
  "      --verbose\n" ++
  "  -q, --quiet\n" ++
  "  -h, --help\n" ++
  "  -V, --version\n"

/-- What a command prints. -/
def runCommand (s : Surroundings) (file : Option String) :
    Command → Except RunError (Except Crash String)
  | .analyze root format detailed =>
    (analyze s file root format detailed false).map fun report =>
      report.map fun text => Text.trimmedEnd text ++ "\n"
  | .showSettings => (settings s file).map fun settings => .ok (settings.toJson.pretty ++ "\n")

/-- What the program does with its arguments. -/
def answer (s : Surroundings) (args : List String) : Answer :=
  match parse args with
  | .run command file => .of (runCommand s file command)
  | .version => ⟨0, versionText, none⟩
  | .help => ⟨0, helpText, none⟩
  | .misuse => ⟨2, "", none⟩

end SourceAtlas.CommandLine
