import Softcode.Line.Call

/-!
# Names with a meaning

Tables of function and command names that the advice on good practice looks for. Names have no case.
-/

namespace Softcode.Practice

/-- Functions that choose between branches. -/
def conditionalFunctions : List String := ["switch", "switchall", "if", "ifelse", "case", "caseall"]

/-- Commands that choose between branches. -/
def conditionalCommands : List String := ["switch", "select", "if"]

/-- Functions worth calling only once on a line. -/
def expensiveFunctions : List String :=
  ["lsearch", "search", "nsearch", "lwho", "lattr", "children", "entrances", "lcon", "lexits",
    "sql"]

/-- Functions that go through a list. -/
def iterationFunctions : List String :=
  ["iter", "map", "filter", "fold", "parse", "step", "foreach", "munge", "sortby"]

/-- The command that goes through a list. -/
def iterationCommand : String := "dolist"

/-- Functions that run a command in the name of another object. -/
def forceFunctions : List String := ["force", "trigger", "objeval"]

/-- Commands that run a command in the name of another object. -/
def forceCommands : List String := ["force", "trigger"]

/-- Functions that make user input harmless. -/
def sanitizers : List String := ["secure", "escape", "decompose"]

/-- The table holds the name. -/
def isOneOf (name : String) (table : List String) : Bool := table.any (Text.sameName · name)

/-- A call that branches or iterates. -/
def isControlCall (call : Call) : Bool :=
  isOneOf call.name conditionalFunctions || isOneOf call.name iterationFunctions

/-- A command that branches or iterates. -/
def isControlCommand (command : Command) : Bool :=
  isOneOf command.name conditionalCommands || Text.sameName command.name iterationCommand

/-- Number of calls and commands on a line that branch or iterate. -/
def controlMarkers (gs : List Glyph) : Nat :=
  (Line.calls gs).countP isControlCall + (Line.commands gs).countP isControlCommand

/-- Column of the first call with a name from one table, or else of the first command with a name
from the other. -/
def firstColumn? (functions commands : List String) (gs : List Glyph) : Option Nat :=
  (((Line.calls gs).find? fun call => isOneOf call.name functions).map Call.column).or
    (((Line.commands gs).find? fun command => isOneOf command.name commands).map Command.column)

end Softcode.Practice
