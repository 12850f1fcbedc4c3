import Softcode.Practice.Advice
import Softcode.Practice.Marker

/-!
# Style: indentation and comments

Indentation is either tabs alone, or spaces alone in whole units. A line that branches carries a
comment, or follows one.
-/

namespace Softcode.Practice

/-- A character of the indentation. -/
def isIndent (c : Char) : Bool := c == ' ' || c == '\t'

/-- The least multiple of `unit` that is not below `width`; any width is one if the unit is zero. -/
def roundUp (width unit : Nat) : Nat :=
  if unit = 0 then width else (width + unit - 1) / unit * unit

/-- Width of an indentation with this many spaces and tabs once it is written in spaces. A tab is
worth a unit, but at least one space. -/
def indentWidth (unit spaces tabs : Nat) : Nat := roundUp (spaces + tabs * max unit 1) unit

/-- Indentation that mixes tabs and spaces, or is not made of whole units. -/
def indentation (unit : Nat) (line : List Char) : Option Tip :=
  let indent := line.takeWhile isIndent
  let tabs := indent.countP (· == '\t')
  let spaces := indent.length - tabs
  let tip (advice : Advice) : Tip :=
    { column := 1, advice, before := line
      after := List.replicate (indentWidth unit spaces tabs) ' ' ++ line.dropWhile isIndent }
  if 0 < tabs ∧ 0 < spaces then some (tip .mixedIndentation)
  else if tabs = 0 ∧ 0 < unit ∧ spaces % unit ≠ 0 then
    some (tip (.misalignedIndentation spaces unit))
  else none

/-- The text holds the mark of a comment. -/
def hasCommentMark : List Char → Bool
  | '@' :: '@' :: _ => true
  | [] => false
  | _ :: rest => hasCommentMark rest

/-- A line that branches without a comment on it or above it. -/
def branchComment (above : Option (List Char)) (line : List Char) : Option Tip :=
  match firstColumn? conditionalFunctions conditionalCommands (Line.glyphs line) with
  | none => none
  | some column =>
    if hasCommentMark line || above.any Line.isComment then none
    else some {
      column, advice := .uncommentedBranch, before := line
      after := "@@ Describe what each branch handles\n".toList ++ line }

/-- Tips on the style of a line, given the line above it. -/
def style (unit : Nat) (above : Option (List Char)) (line : List Char) : List Tip :=
  (indentation unit line).toList ++ (branchComment above line).toList

/-- Tips on the style of the code lines among numbered lines, each with the line above it. -/
def styleFrom (unit number : Nat) (above : Option (List Char)) :
    List (List Char) → List Improvement
  | [] => []
  | line :: rest =>
    (if Line.isCode line then (style unit above line).map (Tip.improvement number) else [])
      ++ styleFrom unit (number + 1) (some line) rest

end Softcode.Practice
