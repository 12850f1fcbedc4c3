import Softcode.Line.Bracket

/-!
# Brackets across lines

`BracketProfile` counts brackets over numbered lines: how many of each kind stay open over the whole
list, how many are still on a line's own stack where that line ends, and how deep the nesting gets
when it is carried from line to line.
-/

namespace Softcode

/-- A count for each kind of bracket. -/
structure Tally where
  paren : Int := 0
  square : Int := 0
  brace : Int := 0
  deriving DecidableEq, Repr, Inhabited

namespace Tally

/-- The count of one kind. -/
def get (t : Tally) : Bracket → Int
  | .paren => t.paren
  | .square => t.square
  | .brace => t.brace

/-- Add to the count of one kind. -/
def add (t : Tally) (kind : Bracket) (n : Int) : Tally :=
  match kind with
  | .paren => { t with paren := t.paren + n }
  | .square => { t with square := t.square + n }
  | .brace => { t with brace := t.brace + n }

end Tally

/-- Bracket counts and nesting depth over the lines read so far. -/
structure BracketProfile where
  /-- openers minus closers -/
  net : Tally := {}
  /-- openers left on a line's own stack at its end, summed over the lines -/
  lineOpen : Tally := {}
  /-- depth at the end of the last line -/
  depth : Nat := 0
  maxDepth : Nat := 0
  /-- number of the line that first reached `maxDepth`; zero if nothing is nested -/
  maxDepthLine : Nat := 0
  deriving DecidableEq, Repr, Inhabited

namespace BracketProfile

/-- Openers minus closers of one kind. -/
def netOpen (p : BracketProfile) (kind : Bracket) : Int := p.net.get kind

/-- Net open count of one kind, less the openers already left open at the end of some line. -/
def unreportedOpen (p : BracketProfile) (kind : Bracket) : Int :=
  p.net.get kind - p.lineOpen.get kind

/-- The stack below the nearest opener of a kind; unchanged if there is none. -/
def unwind (kind : Bracket) (stack : List Bracket) : List Bracket :=
  match stack.dropWhile (· != kind) with
  | [] => stack
  | _ :: below => below

/-- Take in one glyph of the line with the given number. The stack holds the line's own open
brackets, innermost first. -/
def addGlyph (number : Nat) (state : BracketProfile × List Bracket) (g : Glyph) :
    BracketProfile × List Bracket :=
  let (p, stack) := state
  match g.opens with
  | some kind =>
    let p := { p with net := p.net.add kind 1, depth := p.depth + 1 }
    (if p.maxDepth < p.depth then { p with maxDepth := p.depth, maxDepthLine := number } else p,
      kind :: stack)
  | none =>
    match g.closes with
    | some kind =>
      ({ p with net := p.net.add kind (-1), depth := p.depth - 1 }, unwind kind stack)
    | none => (p, stack)

/-- Take in one numbered line. -/
def addLine (p : BracketProfile) (line : Nat × List Char) : BracketProfile :=
  let (p, stack) := (Line.glyphs line.2).foldl (addGlyph line.1) (p, [])
  { p with lineOpen := stack.foldl (fun t kind => t.add kind 1) p.lineOpen }

/-- Profile of numbered lines. -/
def build (lines : List (Nat × List Char)) : BracketProfile := lines.foldl addLine {}

end BracketProfile

end Softcode
