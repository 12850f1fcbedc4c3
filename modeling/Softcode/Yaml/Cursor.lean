/-!
# Places in a YAML text

A text is read from a cursor, which knows the line and the column of what comes next; both count
from zero. Line breaks are made uniform beforehand.
-/

namespace Softcode.Yaml

/-- A character that ends a line. -/
def isBreak (c : Char) : Bool := c == '\n' || c == '\u2028' || c == '\u2029'

/-- A space or a tab. -/
def isSpace (c : Char) : Bool := c == ' ' || c == '\t'

/-- A character, if there is one, that separates tokens. -/
def separates (c : Option Char) : Bool := c.all fun c => isSpace c || isBreak c

/-- A character that may stand in a text. -/
def isAllowed (c : Char) : Bool :=
  let n := c.toNat
  n == 9 || n == 10 || n == 13 || (0x20 ≤ n && n ≤ 0x7E) || n == 0x85
    || (0xA0 ≤ n && n != 0xFEFF && n != 0xFFFE && n != 0xFFFF)

/-- Write every line break as a line feed, but for the separators of lines and paragraphs. -/
def uniformBreaks : List Char → List Char
  | [] => []
  | '\r' :: '\n' :: rest => '\n' :: uniformBreaks rest
  | c :: rest => (if c == '\r' || c == '\u0085' then '\n' else c) :: uniformBreaks rest

/-- A place in a text. -/
structure Cursor where
  line : Nat := 0
  column : Nat := 0
  rest : List Char
  deriving Repr

namespace Cursor

/-- The next character. -/
def peek? (p : Cursor) : Option Char := p.rest.head?

/-- The character after the next one. -/
def second? (p : Cursor) : Option Char := (p.rest.drop 1).head?

/-- Move past the next character. -/
def next (p : Cursor) : Cursor :=
  match p.rest with
  | [] => p
  | c :: rest =>
    if isBreak c then { line := p.line + 1, column := 0, rest }
    else { p with column := p.column + 1, rest }

/-- Move past characters of the current line. -/
def skip (p : Cursor) (n : Nat) : Cursor := { p with column := p.column + n, rest := p.rest.drop n }

/-- Move past the characters of the current line that meet a condition. -/
def skipWhile (p : Cursor) (test : Char → Bool) : Cursor := p.skip (p.rest.takeWhile test).length

/-- Move to the end of the line. -/
def skipLine (p : Cursor) : Cursor := p.skipWhile fun c => !isBreak c

/-- A mark of three equal characters stands alone at the start of the line. -/
def atMark (p : Cursor) (c : Char) : Bool :=
  p.column == 0 && p.rest.take 3 == [c, c, c] && separates (p.rest.drop 3).head?

/-- A document starts or ends here. -/
def atDocumentMark (p : Cursor) : Bool := p.atMark '-' || p.atMark '.'

end Cursor

end Softcode.Yaml
