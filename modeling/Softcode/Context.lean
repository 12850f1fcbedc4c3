import Softcode.Catalogue.Basic
import Softcode.Line.Glyph
import Softcode.Settings
import Softcode.Text.Lines

/-!
# Context of an analysis

What every pass works on: the text, the dialect it is written for if that is known, the options and
the settings. Lines are numbered from one.
-/

namespace Softcode

/-- A text to analyse, with all that the passes may ask about. -/
structure Context where
  text : List Char
  dialect : Option Dialect := none
  options : Options := {}
  settings : Settings := {}
  deriving Repr

/-- Number lines from `first` on. -/
def numberedFrom (first : Nat) : List (List Char) → List (Nat × List Char)
  | [] => []
  | line :: rest => (first, line) :: numberedFrom (first + 1) rest

namespace Context

/-- The lines of the text, without their terminators. -/
def lines (c : Context) : List (List Char) := Text.lines c.text

/-- Number of lines. -/
def totalLines (c : Context) : Nat := c.lines.length

/-- The line with this number; empty if there is none. -/
def line (c : Context) (number : Nat) : List Char :=
  match number with
  | 0 => []
  | n + 1 => (c.lines[n]?).getD []

/-- The lines that are neither blank nor comments, with their numbers. -/
def codeLines (c : Context) : List (Nat × List Char) :=
  (numberedFrom 1 c.lines).filter fun line => Line.isCode line.2

/-- Number of lines that are comments. -/
def commentLines (c : Context) : Nat := c.lines.countP Line.isComment

end Context

end Softcode
