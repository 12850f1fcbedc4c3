import Softcode.Report.Format

/-!
# Arguments of the command line

A command is followed by options and paths in any order. An option that takes a value has it
attached or as the next argument; options of one letter may be joined. No option may be given twice.
Arguments are taken from left to right, and the first one that asks for help or is not understood
ends the reading.
-/

namespace Softcode.CommandLine

/-- An option. -/
inductive Switch where
  | dialect
  | catalogue
  | config
  | strict
  | noSecurity
  | noBestPractices
  | format
  | output
  | verbose
  | help
  deriving DecidableEq, Repr

namespace Switch

/-- The long name of an option. -/
def name : Switch → String
  | .dialect => "dialect"
  | .catalogue => "catalogue"
  | .config => "config"
  | .strict => "strict"
  | .noSecurity => "no-security"
  | .noBestPractices => "no-best-practices"
  | .format => "format"
  | .output => "output"
  | .verbose => "verbose"
  | .help => "help"

/-- The letter of an option, if it has one. -/
def letter? : Switch → Option Char
  | .dialect => some 'd'
  | .format => some 'f'
  | .output => some 'o'
  | .verbose => some 'v'
  | .help => some 'h'
  | _ => none

/-- The option takes a value. -/
def takesValue : Switch → Bool
  | .dialect | .catalogue | .config | .format | .output => true
  | _ => false

/-- The value can be the value of the option: paths are not empty, and formats are known by name. -/
def accepts : Switch → String → Bool
  | .catalogue, value | .config, value | .output, value => !value.isEmpty
  | .format, value => (ReportFormat.ofName? value).isSome
  | _, _ => true

end Switch

/-- What a command accepts. -/
structure Grammar where
  switches : List Switch
  /-- paths may be given -/
  paths : Bool
  deriving Repr

/-- Why reading ends early. -/
inductive Stop where
  | help
  /-- the arguments are not understood -/
  | misuse
  deriving DecidableEq, Repr

/-- What has been given. -/
structure Given where
  switches : List (Switch × String) := []
  paths : List Path := []
  deriving Repr

namespace Given

/-- Take in an option with its value; options without a value have the empty one. -/
def addSwitch (g : Given) (s : Switch) (value : String) : Except Stop Given :=
  if s == .help then .error .help
  else if g.switches.any (·.1 == s) || !s.accepts value then .error .misuse
  else .ok { g with switches := g.switches ++ [(s, value)] }

/-- Take in a path. -/
def addPath (grammar : Grammar) (g : Given) (value : String) : Except Stop Given :=
  if grammar.paths && !value.isEmpty then .ok { g with paths := g.paths ++ [⟨value⟩] }
  else .error .misuse

/-- The value of an option. -/
def value? (g : Given) (s : Switch) : Option String := g.switches.lookup s

/-- The path that is the value of an option. -/
def path? (g : Given) (s : Switch) : Option Path := (g.value? s).map Path.mk

/-- The option is given. -/
def has (g : Given) (s : Switch) : Bool := (g.value? s).isSome

end Given

/-- Read a long option, after its dashes. The result may wait for a value. -/
def readLong (grammar : Grammar) (g : Given) (arg : List Char) :
    Except Stop (Given × Option Switch) :=
  let name := arg.takeWhile (· != '=')
  let attached := (arg.drop name.length).tail?.map String.ofList
  match grammar.switches.find? (·.name == String.ofList name) with
  | none => .error .misuse
  | some s =>
    match s.takesValue, attached with
    | true, some value => (g.addSwitch s value).map fun g => (g, none)
    | true, none => .ok (g, some s)
    | false, none => (g.addSwitch s "").map fun g => (g, none)
    | false, some _ => .error .misuse

/-- Read joined letters. The result may wait for a value. -/
def readLetters (grammar : Grammar) (g : Given) : List Char → Except Stop (Given × Option Switch)
  | [] => .ok (g, none)
  | c :: rest =>
    match grammar.switches.find? (·.letter? == some c) with
    | none => .error .misuse
    | some s =>
      if !s.takesValue then
        match g.addSwitch s "" with
        | .ok g => readLetters grammar g rest
        | .error stop => .error stop
      else if rest.isEmpty then .ok (g, some s)
      else
        let value := if rest.head? == some '=' then rest.drop 1 else rest
        (g.addSwitch s (String.ofList value)).map fun g => (g, none)

/-- Read arguments from left to right. `pending` is an option that waits for its value, and after
`plain` all arguments are paths. -/
def readFrom (grammar : Grammar) (g : Given) (pending : Option Switch) (plain : Bool) :
    List String → Except Stop Given
  | [] => if pending.isSome then .error .misuse else .ok g
  | arg :: rest =>
    if plain then
      match g.addPath grammar arg with
      | .ok g => readFrom grammar g none true rest
      | .error stop => .error stop
    else
      match pending, arg.toList with
      | some _, '-' :: _ :: _ => .error .misuse
      | some s, _ =>
        match g.addSwitch s arg with
        | .ok g => readFrom grammar g none false rest
        | .error stop => .error stop
      | none, ['-', '-'] => readFrom grammar g none true rest
      | none, '-' :: '-' :: name =>
        match readLong grammar g name with
        | .ok (g, pending) => readFrom grammar g pending false rest
        | .error stop => .error stop
      | none, '-' :: c :: more =>
        match readLetters grammar g (c :: more) with
        | .ok (g, pending) => readFrom grammar g pending false rest
        | .error stop => .error stop
      | none, _ =>
        match g.addPath grammar arg with
        | .ok g => readFrom grammar g none false rest
        | .error stop => .error stop

/-! ## Commands -/

/-- The commands. -/
inductive Verb where
  | check
  | dialects
  | rules
  deriving DecidableEq, Repr

namespace Verb

/-- All commands. -/
def all : List Verb := [.check, .dialects, .rules]

/-- The name of a command. -/
def name : Verb → String
  | .check => "check"
  | .dialects => "dialects"
  | .rules => "rules"

/-- The command of this name. -/
def ofName? (name : String) : Option Verb := all.find? (·.name == name)

/-- What a command accepts. -/
def grammar : Verb → Grammar
  | .check =>
    { switches := [.dialect, .catalogue, .config, .strict, .noSecurity, .noBestPractices, .format,
        .output, .verbose, .help]
      paths := true }
  | .dialects | .rules => { switches := [.catalogue, .help], paths := false }

end Verb

/-- What the command line asks for. -/
inductive Invocation where
  | perform (verb : Verb) (given : Given)
  /-- help on a command, or on all of them -/
  | help (verb : Option Verb)
  | version
  | misuse
  deriving Repr

/-- The arguments of a command. At least one path has to be given where paths are accepted. -/
def Verb.invocation (verb : Verb) (args : List String) : Invocation :=
  match readFrom verb.grammar {} none false args with
  | .ok given => if verb.grammar.paths && given.paths.isEmpty then .misuse else .perform verb given
  | .error .help => .help (some verb)
  | .error .misuse => .misuse

/-- What a list of arguments asks for. -/
def Invocation.ofArguments : List String → Invocation
  | [] => .misuse
  | ["help"] | ["help", "help"] => .help none
  | ["help", name] =>
    match Verb.ofName? name with
    | some verb => .help (some verb)
    | none => .misuse
  | first :: rest =>
    match Verb.ofName? first, first.toList with
    | some verb, _ => verb.invocation rest
    | none, '-' :: '-' :: name =>
      if name == "help".toList then .help none
      else if name == "version".toList then .version
      else .misuse
    | none, '-' :: 'h' :: _ => .help none
    | none, '-' :: 'V' :: _ => .version
    | none, _ => .misuse

end Softcode.CommandLine
