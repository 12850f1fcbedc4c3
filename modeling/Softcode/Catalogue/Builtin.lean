import Softcode.Catalogue.Basic

/-!
# The built-in catalogue

The dialects and security rules that are known without further catalogues. The function lists hold
what is commonly used.
-/

namespace Softcode.Catalogue

/-- Functions that are not deprecated. -/
def current (names : List String) : List DialectFunction := names.map fun name => { name }

/-- The dialect of PennMUSH servers. -/
def pennmush : Dialect where
  id := "pennmush"
  name := "PennMUSH"
  functions := current
      ["add", "sub", "mul", "div", "eq", "gt", "lt", "if", "ifelse", "switch", "case", "iter",
       "map", "filter", "fold", "u", "ulocal", "v", "get", "xget", "setq", "r", "name", "lattr",
       "lsearch", "search", "nsearch", "lwho", "lcon", "lexits", "children", "entrances", "strlen",
       "mid", "left", "right", "words", "first", "rest", "extract", "member", "pemit", "secure",
       "escape", "decompose", "squish", "trim", "cat", "strcat", "lnum", "rand", "ansi", "center",
       "ljust", "rjust", "repeat", "sort", "sortby", "setunion", "setdiff", "setinter", "default",
       "hasattr", "hasflag", "isnum", "isdbref", "num", "loc", "owner", "parse", "munge", "step",
       "objeval", "force", "trigger", "sql", "s"]
    ++ [{ name := "andflag", deprecated := true, replacement := some "andflags" }]
    ++ [{ name := "orflag", deprecated := true, replacement := some "orflags" }]
    ++ current
      ["andflags", "orflags"]
  notes := ["Function names are case-insensitive.",
    "%q<name> named registers are supported."]

/-- The dialect of TinyMUSH servers. -/
def tinymush : Dialect where
  id := "tinymush"
  name := "TinyMUSH"
  functions := current
      ["add", "sub", "mul", "div", "eq", "gt", "lt", "ifelse", "switch", "case", "iter", "map",
       "filter", "fold", "u", "ulocal", "v", "get", "xget", "setq", "r", "name", "lattr", "lsearch",
       "search", "lwho", "lcon", "lexits", "children", "strlen", "mid", "words", "first", "rest",
       "extract", "member", "secure", "escape", "squish", "cat", "strcat", "lnum", "rand", "center",
       "ljust", "rjust", "repeat", "sort", "sortby", "default", "hasattr", "hasflag", "isnum",
       "isdbref", "num", "loc", "owner", "parse", "munge", "objeval", "force", "trigger", "s",
       "eval"]
  notes := ["No %q<name> registers; use %q0-%q9 and %qa-%qz."]

/-- The dialect of RhostMUSH servers. -/
def rhostmush : Dialect where
  id := "rhostmush"
  name := "RhostMUSH"
  functions := current
      ["add", "sub", "eq", "ifelse", "switch", "case", "iter", "map", "filter", "fold", "u",
       "ulocal", "v", "get", "setq", "r", "name", "lattr", "search", "lwho", "lcon", "secure",
       "escape", "strlen", "words", "parse", "objeval", "force", "trigger", "sql", "s", "eval"]

/-- The dialect of TinyMUX servers. -/
def tinymux : Dialect where
  id := "tinymux"
  name := "TinyMUX"
  functions := current
      ["add", "sub", "eq", "if", "ifelse", "switch", "case", "iter", "map", "filter", "fold", "u",
       "ulocal", "v", "get", "setq", "r", "name", "lattr", "search", "lwho", "lcon", "secure",
       "escape", "strlen", "words", "parse", "objeval", "force", "trigger", "sql", "s", "eval"]

/-- The built-in security rules. -/
def builtinRules : List SecurityRule :=
  [{ id := "MUSH-SEC-001"
     pattern := "\\beval\\s*\\(\\s*%[0-9]"
     risk := .high
     category := "code_injection"
     dialects := ["TinyMUSH", "RhostMUSH", "TinyMUX"]
     recommendation := "Pass user input through secure() or escape() before evaluating it."
     description := some "Arguments passed straight into eval() are evaluated as code." },
   { id := "MUSH-SEC-002"
     pattern := "\\bs\\s*\\(\\s*%[0-9]"
     risk := .high
     category := "code_injection"
     recommendation := "Avoid s() on user input; use it only on trusted attribute contents."
     description := some "s() re-evaluates its argument, so user input becomes code." },
   { id := "MUSH-SEC-003"
     pattern := "@force\\s+[^=;]*=[^;]*%[0-9]"
     risk := .critical
     category := "command_injection"
     recommendation :=
       "Never @force with raw arguments; whitelist the command and secure() the input."
     description := some "User input is forced as a command." },
   { id := "MUSH-SEC-004"
     pattern := "\\bobjeval\\s*\\(\\s*%#"
     risk := .high
     category := "privilege_escalation"
     recommendation := "Evaluate as the object itself or check permissions first."
     description := some "objeval() as the enactor runs code with the enactor's privileges." },
   { id := "MUSH-SEC-005"
     pattern := "\\bsql\\s*\\([^)]*%[0-9]"
     risk := .critical
     category := "sql_injection"
     dialects := ["PennMUSH", "RhostMUSH", "TinyMUX"]
     recommendation := "Escape the value with sqlescape() before building the query."
     description := some "User input is interpolated into an SQL query." },
   { id := "MUSH-SEC-006"
     pattern := "@set\\s+[^=]+=\\s*!?(wizard|royalty)\\b"
     risk := .high
     category := "privilege_escalation"
     recommendation := "Keep privileged flag changes out of softcode; do them by hand."
     description := some "Code manipulates privileged flags." },
   { id := "MUSH-SEC-007"
     pattern := "\\bset\\s*\\(\\s*%[0-9]"
     risk := .medium
     category := "attribute_injection"
     recommendation := "Resolve and validate the target with locate() and controls() first."
     description := some "set() targets an object named by user input." },
   { id := "MUSH-SEC-008"
     pattern := "@trigger\\s+%[0-9]"
     risk := .medium
     category := "command_injection"
     recommendation := "Trigger fixed attributes on known objects only."
     description := some "@trigger target is taken from user input." }]

/-- The built-in catalogue. -/
def builtin : Catalogue where
  dialects := [pennmush, tinymush, rhostmush, tinymux]
  rules := builtinRules

end Softcode.Catalogue
