import Softcode.Practice.Advice
import Softcode.Practice.Marker

/-!
# Performance: repeated calls and nested iterations
-/

namespace Softcode.Practice

/-- Tips on functions that are expensive and called more than once. -/
def repeatedCalls (line : List Char) : List Tip :=
  let found := Line.calls (Line.glyphs line)
  expensiveFunctions.flatMap fun marker =>
    match found.filter fun call => Text.sameName call.name marker with
    | first :: second :: more => [{
        column := second.column
        advice := .repeatedCall marker ((first :: second :: more).length)
        before := line
        after := "[setq(0,".toList ++ marker.toList ++ "(...))] once, then reuse %q0".toList }]
    | _ => []

/-- Where an iteration reaches: from the index `start` up to `stop`. -/
structure Reach where
  start : Nat
  stop : Nat
  column : Nat
  deriving DecidableEq, Repr

/-- The iterations of a line: calls first, then commands, which reach to the end of the line. -/
def iterations (gs : List Glyph) : List Reach :=
  (((Line.calls gs).filter fun call => isOneOf call.name iterationFunctions).map fun call =>
      ⟨call.openIndex, (Line.matchingParen gs call.openIndex).getD gs.length, call.column⟩)
    ++ (((Line.commands gs).filter fun command =>
        Text.sameName command.name iterationCommand).map fun command =>
      ⟨command.column - 1, gs.length, command.column⟩)

/-- An iteration starts within the reach of another. -/
def Reach.within (inner outer : Reach) : Bool :=
  outer.start < inner.start && inner.start < outer.stop

/-- A tip on the first iteration that another one encloses. -/
def nestedIteration (line : List Char) : Option Tip :=
  let found := iterations (Line.glyphs line)
  (found.find? fun inner => found.any inner.within).map fun inner => {
    column := inner.column
    advice := .nestedIteration
    before := line
    after := "Move the inner loop into its own attribute and call it with u()".toList }

/-- Tips on the performance of a line. -/
def performance (line : List Char) : List Tip :=
  repeatedCalls line ++ (nestedIteration line).toList

end Softcode.Practice
