import Softcode.Context
import Softcode.Practice.Hygiene
import Softcode.Practice.Maintainability
import Softcode.Practice.Performance
import Softcode.Practice.Readability
import Softcode.Practice.Style

/-!
# Review of a script

Five passes over the code lines, one after the other, so that the improvements are grouped by pass.
-/

namespace Softcode.Practice

/-- One pass over the code lines. -/
def pass (c : Context) (tips : List Char → List Tip) : List Improvement :=
  c.codeLines.flatMap fun line => (tips line.2).map (Tip.improvement line.1)

/-- All advice on a script. -/
def review (c : Context) : List Improvement :=
  styleFrom c.settings.indentUnit 1 none c.lines
    ++ pass c performance
    ++ pass c maintainability
    ++ pass c (readability c.settings.complexityThreshold)
    ++ pass c fun line => (hygiene line).toList

end Softcode.Practice
