import Softcode.Line.Profile
import Softcode.Syntax.LineCheck

/-!
# Syntax of a script

The flaws of every code line in order, then what only shows when the lines are taken together:
openers that a mismatch on their line has dropped, and nesting that gets too deep.
-/

namespace Softcode.Syntax

/-- Brackets left open across the lines, without those that a line already reports. -/
def unbalanced (profile : BracketProfile) : List SyntaxFinding :=
  Bracket.all.flatMap fun kind =>
    let count := profile.unreportedOpen kind
    if 0 < count then [Flaw.finding 1 ⟨1, .unbalanced kind count⟩] else []

/-- Nesting deeper than the limit, at the line that first gets deepest. -/
def nesting (limit : Nat) (profile : BracketProfile) : List SyntaxFinding :=
  if limit < profile.maxDepth then
    [Flaw.finding profile.maxDepthLine ⟨1, .excessiveNesting profile.maxDepth limit⟩]
  else []

/-- Findings about the script as a whole. -/
def scriptFindings (c : Context) : List SyntaxFinding :=
  let profile := BracketProfile.build c.codeLines
  unbalanced profile ++ nesting c.settings.maxNestingDepth profile

/-- Findings about one numbered line. -/
def lineFindings (c : Context) (line : Nat × List Char) : List SyntaxFinding :=
  (LineCheck.flaws c line.2).map (Flaw.finding line.1)

/-- All syntax findings of a script. -/
def findings (c : Context) : List SyntaxFinding :=
  c.codeLines.flatMap (lineFindings c) ++ scriptFindings c

end Softcode.Syntax
