import Softcode.Line.Glyph

/-!
# Brackets

The three kinds of bracket, the nesting depth of a line and the partner of a parenthesis. Only
glyphs in the code role open or close anything.
-/

namespace Softcode

/-- The kinds of bracket that have to nest. -/
inductive Bracket where
  | paren
  | square
  | brace
  deriving DecidableEq, Repr, Inhabited

namespace Bracket

/-- All kinds, in the order in which they are reported. -/
def all : List Bracket := [.paren, .square, .brace]

/-- The character that opens a kind. -/
def openChar : Bracket → Char
  | .paren => '('
  | .square => '['
  | .brace => '{'

/-- The character that closes a kind. -/
def closeChar : Bracket → Char
  | .paren => ')'
  | .square => ']'
  | .brace => '}'

/-- The kind that a character opens. -/
def ofOpen? (c : Char) : Option Bracket := all.find? (·.openChar == c)

/-- The kind that a character closes. -/
def ofClose? (c : Char) : Option Bracket := all.find? (·.closeChar == c)

end Bracket

namespace Glyph

/-- The kind of bracket that a glyph opens. -/
def opens (g : Glyph) : Option Bracket := if g.isCode then Bracket.ofOpen? g.char else none

/-- The kind of bracket that a glyph closes. -/
def closes (g : Glyph) : Option Bracket := if g.isCode then Bracket.ofClose? g.char else none

end Glyph

/-- Depth after a glyph: an opener goes one deeper, a closer goes back one but never above the
surface. -/
def depthAfter (depth : Nat) (g : Glyph) : Nat :=
  if g.opens.isSome then depth + 1
  else if g.closes.isSome then depth - 1
  else depth

namespace Line

/-- The greatest depth reached after any of the glyphs, or zero. -/
def maxDepthFrom (depth : Nat) : List Glyph → Nat
  | [] => 0
  | g :: rest => max (depthAfter depth g) (maxDepthFrom (depthAfter depth g) rest)

/-- Deepest nesting reached on a line, all kinds taken together. -/
def maxDepth (gs : List Glyph) : Nat := maxDepthFrom 0 gs

/-- Index of the `)` that brings the count of open parentheses back to zero. -/
def closingFrom (index pending : Nat) : List Glyph → Option Nat
  | [] => none
  | g :: rest =>
    if g.opens == some .paren then closingFrom (index + 1) (pending + 1) rest
    else if g.closes == some .paren then
      if pending ≤ 1 then some index else closingFrom (index + 1) (pending - 1) rest
    else closingFrom (index + 1) pending rest

/-- Index of the `)` that closes the `(` at index `start`. -/
def matchingParen (gs : List Glyph) (start : Nat) : Option Nat :=
  closingFrom start 0 (gs.drop start)

end Line

end Softcode
