import Softcode.Batch
import Softcode.Catalogue.Builtin
import Softcode.CommandLine.Arguments
import Softcode.Load
import Softcode.Pattern.Reader

/-!
# Running the command line

A run is a function of the arguments, the files and whether the terminal shows colours. It ends with
an exit status, what is printed, an error if there is one, and the files afterwards.
-/

namespace Softcode.CommandLine

/-- How a run ends. -/
structure Outcome where
  exit : Nat := 0
  printed : String := ""
  error : Option String := none
  /-- the report that was saved -/
  saved : Option (Path × String) := none
  files : FileTree
  deriving Repr

/-- The run failed. -/
def Outcome.failed (files : FileTree) (message : String) : Outcome :=
  { exit := 1, error := some message, files }

/-! ## Help -/

/-- Help on all commands. -/
def overview : String :=
  Report.unlines ["Syntax, security and best-practice analysis for MUSHcode", "",
    "Usage: mushcheck <COMMAND>", "",
    "Commands:",
    "  check     Analyze script files or directories of scripts",
    "  dialects  List known dialects",
    "  rules     List security rules",
    "  help      Print this message or the help of the given subcommand(s)", "",
    "Options:",
    "  -h, --help     Print help",
    "  -V, --version  Print version"]

/-- Help on a listing. -/
def listingHelp (title name : String) : String :=
  Report.unlines [title, "", s!"Usage: mushcheck {name} [OPTIONS]", "",
    "Options:",
    "      --catalogue <CATALOGUE>  ",
    "  -h, --help                   Print help"]

/-- Help on one command. -/
def Verb.help : Verb → String
  | .check =>
    Report.unlines ["Analyze script files or directories of scripts", "",
      "Usage: mushcheck check [OPTIONS] <PATHS>...", "",
      "Arguments:",
      "  <PATHS>...  Files or directories to analyze", "",
      "Options:",
      "  -d, --dialect <DIALECT>      Dialect id or name (e.g. pennmush)",
      "      --catalogue <CATALOGUE>  Extra catalogue (YAML or JSON) merged over the built-in one",
      "      --config <CONFIG>        Engine configuration (YAML or JSON)",
      "      --strict                 Enable strict checks",
      "      --no-security            Skip security rule matching",
      "      --no-best-practices      Skip best-practice analysis",
      "  -f, --format <FORMAT>        Report format (defaults to the output file's extension, " ++
        "else text) [possible values: text, json, yaml, sarif]",
      "  -o, --output <OUTPUT>        Write the report to a file instead of stdout",
      "  -v, --verbose                Debug logging on stderr",
      "  -h, --help                   Print help"]
  | .dialects => listingHelp "List known dialects" "dialects"
  | .rules => listingHelp "List security rules" "rules"

/-! ## Commands -/

/-- The built-in catalogue, with another one laid over it. -/
def catalogue (files : FileTree) (extra : Option Path) : Except LoadError Catalogue :=
  match extra with
  | none => .ok .builtin
  | some path => (Catalogue.load files path).map Catalogue.builtin.merge

/-- The settings of a run. -/
def settings (files : FileTree) (path : Option Path) : Except LoadError Settings :=
  match path with
  | none => .ok {}
  | some path => Settings.load files path

/-- The lines on a dialect. -/
def dialectLines (colours : Bool) (d : Dialect) : List String :=
  let id := Ink.paintWide colours Ink.strong 12 d.id
  let name := String.ofList (Text.padRight 12 ' ' d.name.toList)
  let deprecated := d.functions.countP (·.deprecated)
  s!"  {id} {name} {d.functions.length} functions ({deprecated} deprecated)" ::
    d.notes.map fun note => "      " ++ Ink.paint colours Ink.faint note

/-- The line on a rule. -/
def ruleLine (colours : Bool) (r : SecurityRule) : String :=
  let column (width : Nat) (s : String) : String := String.ofList (Text.padRight width ' ' s.toList)
  let scope := if r.dialects.isEmpty then "all dialects" else ", ".intercalate r.dialects
  "  " ++ " ".intercalate [Ink.paintWide colours Ink.strong 14 r.id, column 9 r.risk.label,
    column 22 r.category, Ink.paint colours Ink.faint scope]

/-- List dialects. -/
def dialects (colours : Bool) (files : FileTree) (given : Given) : Outcome :=
  match catalogue files (given.path? .catalogue) with
  | .error e => .failed files e.message
  | .ok c =>
    let title := Ink.paint colours (Ink.heading .yellow) "DIALECTS"
    { printed := Report.unlines (title :: c.dialects.flatMap (dialectLines colours)), files }

/-- List rules. -/
def rules (colours : Bool) (files : FileTree) (given : Given) : Outcome :=
  match catalogue files (given.path? .catalogue) with
  | .error e => .failed files e.message
  | .ok c =>
    let title := Ink.paint colours (Ink.heading .yellow) "SECURITY RULES"
    { printed := Report.unlines (title :: c.rules.map (ruleLine colours)), files }

/-- The batch that the arguments describe. -/
def batch (given : Given) : Batch where
  paths := given.paths
  dialectId := given.value? .dialect
  options := {
    strictMode := given.has .strict
    checkSecurity := !given.has .noSecurity
    checkBestPractices := !given.has .noBestPractices }

/-- The format of a report: the one that is asked for, or else the one that the name of the output
asks for, or else text. -/
def format (given : Given) : ReportFormat :=
  (((given.value? .format).bind ReportFormat.ofName?).or
    ((given.path? .output).bind ReportFormat.ofPath?)).getD .text

/-- Print a report, or save it and print a summary. Where text is saved, nothing has colours. -/
def deliver (colours : Bool) (files : FileTree) (given : Given) (report : Report) : Outcome :=
  let exit := if report.hasFailures then 1 else 0
  let format := format given
  match given.path? .output with
  | none =>
    let text := format.render colours report
    { exit, printed := if format == .text then text else text ++ "\n", files }
  | some path =>
    let colours := colours && format != .text
    let text := format.render colours report
    match files.save path text with
    | .error e => .failed files e.message
    | .ok files =>
      { exit
        printed := report.summary colours ++ s!"Report saved to: {path.spelling}\n"
        saved := some (path, text)
        files }

/-- Analyse files. -/
def check (colours : Bool) (files : FileTree) (given : Given) : Outcome :=
  match catalogue files (given.path? .catalogue) with
  | .error e => .failed files e.message
  | .ok catalogue =>
    match settings files (given.path? .config) with
    | .error e => .failed files e.message
    | .ok settings =>
      match (batch given).run Pattern.ofText? catalogue settings files with
      | .error e => .failed files e.message
      | .ok report => deliver colours files given report

/-- Do what is asked for. -/
def Invocation.run (colours : Bool) (files : FileTree) : Invocation → Outcome
  | .perform .check given => check colours files given
  | .perform .dialects given => dialects colours files given
  | .perform .rules given => rules colours files given
  | .help none => { printed := overview, files }
  | .help (some verb) => { printed := verb.help, files }
  | .version => { printed := s!"{Sarif.toolName} {Sarif.toolVersion}\n", files }
  | .misuse => { exit := 2, files }

end Softcode.CommandLine
