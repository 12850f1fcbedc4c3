import Softcode.Context
import Softcode.Line.Call

/-!
# Deprecation notes

Notes on functions that the dialect of a script has given up, one entry for each function in the
order of first use.
-/

namespace Softcode.Deprecation

/-- The calls of a script, line by line. -/
def scriptCalls (c : Context) : List Call :=
  c.codeLines.flatMap fun line => Line.calls (Line.glyphs line.2)

/-- The names that did not come before, up to case; `seen` holds lowered names. -/
def firstUses (seen : List (List Char)) : List String → List String
  | [] => []
  | name :: rest =>
    let key := Text.lower name.toList
    if seen.contains key then firstUses seen rest else name :: firstUses (key :: seen) rest

/-- The notes on one function name. -/
def notesOn (dialect : Dialect) (name : String) : List String :=
  match dialect.function? name with
  | none => []
  | some function =>
    if function.deprecated then
      s!"{function.name}() is deprecated in {dialect.name}"
        :: (function.replacement.map fun r => s!"Replace {function.name}() with {r}()").toList
    else []

/-- The notes on a script; none without a dialect. -/
def notes (c : Context) : List String :=
  match c.dialect with
  | none => []
  | some dialect => (firstUses [] ((scriptCalls c).map Call.name)).flatMap (notesOn dialect)

end Softcode.Deprecation
