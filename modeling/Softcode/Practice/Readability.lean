import Softcode.Line.Substitution
import Softcode.Practice.Advice
import Softcode.Practice.Marker

/-!
# Readability: complex expressions and short registers
-/

namespace Softcode.Practice

/-- Most registers named by a single character that a line may use. -/
def maxShortRegisters : Nat := 3

/-- How complex a line is: its branches and iterations, and half its nesting depth. -/
def lineComplexity (gs : List Glyph) : Nat := 1 + controlMarkers gs + Line.maxDepth gs / 2

/-- A tip on a line that is too complex. -/
def complexExpression (limit : Nat) (line : List Char) : Option Tip :=
  let complexity := lineComplexity (Line.glyphs line)
  if limit < complexity then some {
    column := 1, advice := .complexExpression complexity limit, before := line
    after := "Split the expression into named attributes called with u()".toList }
  else none

/-- The registers named by a single character on a line, each once. -/
def shortRegisters (gs : List Glyph) : List Char :=
  ((Line.substitutions gs).filterMap fun sub =>
    match sub.reference with
    | .short register => some register
    | _ => none).eraseDups

/-- A tip on a line with too many registers that say nothing. -/
def unclearNaming (line : List Char) : Option Tip :=
  let count := (shortRegisters (Line.glyphs line)).length
  if maxShortRegisters < count then some {
    column := 1, advice := .shortRegisters count, before := line
    after := "Use named registers such as %q<total>".toList }
  else none

/-- Tips on the readability of a line. -/
def readability (limit : Nat) (line : List Char) : List Tip :=
  (complexExpression limit line).toList ++ (unclearNaming line).toList

end Softcode.Practice
