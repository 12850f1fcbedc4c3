import Softcode.Text.Blank
import Softcode.Text.Ascii

/-!
# The walk over one line

Every structural question about a line is asked of its glyphs: its characters together with the role
that quotes and escapes give them. A quote toggles literal state unless it is escaped, a backslash
consumes exactly the next character, also inside a literal, and no state crosses a line boundary.
The walk also counts the column and the byte of each glyph.
-/

namespace Softcode

/-- The role of a character on its line. -/
inductive Role where
  /-- outside any literal and not escaped -/
  | code
  /-- a backslash that consumes the next character -/
  | escape
  /-- the character a backslash consumes -/
  | escaped
  | quoteOpen
  | quoteClose
  /-- inside a quoted literal -/
  | literal
  deriving DecidableEq, Repr, Inhabited

/-- A character with its role. -/
structure Glyph where
  char : Char
  role : Role
  deriving DecidableEq, Repr, Inhabited

namespace Glyph

/-- A glyph that takes part in the structure of the line. -/
def isCode (g : Glyph) : Bool := g.role == .code

/-- The structural character `c`. -/
def isCodeChar (g : Glyph) (c : Char) : Bool := g.isCode && g.char == c

/-- A character of a name, whatever its role. -/
def isWord (g : Glyph) : Bool := Text.isWordChar g.char

/-- A structural character of a name. -/
def isCodeWord (g : Glyph) : Bool := g.isCode && g.isWord

/-- A structural decimal digit. -/
def isCodeDigit (g : Glyph) : Bool := g.isCode && g.char.isDigit

end Glyph

/-- What the walk remembers between two characters. -/
structure Quoting where
  /-- the last character was a backslash that consumes the next one -/
  escaped : Bool
  /-- a quote is open -/
  literal : Bool
  deriving DecidableEq, Repr

/-- The role of the next character, and the state after it. -/
def Quoting.step (q : Quoting) (c : Char) : Role × Quoting :=
  if q.escaped then (.escaped, { q with escaped := false })
  else if c == '\\' then (.escape, { q with escaped := true })
  else if c == '"' then
    if q.literal then (.quoteClose, { q with literal := false })
    else (.quoteOpen, { q with literal := true })
  else if q.literal then (.literal, q)
  else (.code, q)

/-- A glyph at its place on a line. -/
structure PlacedGlyph where
  glyph : Glyph
  /-- characters up to and with this one -/
  column : Nat
  /-- bytes before this character -/
  byte : Nat
  deriving DecidableEq, Repr, Inhabited

/-- Walk a text from a given state. The first character stands at the given column and byte. -/
def walkFrom (q : Quoting) (column byte : Nat) : List Char → List PlacedGlyph
  | [] => []
  | c :: rest =>
    ⟨⟨c, (q.step c).1⟩, column, byte⟩
      :: walkFrom (q.step c).2 (column + 1) (byte + c.utf8Size) rest

/-- The glyphs of a walk from a given state, which do not depend on where the text stands. -/
def glyphsFrom (q : Quoting) : List Char → List Glyph
  | [] => []
  | c :: rest => ⟨c, (q.step c).1⟩ :: glyphsFrom (q.step c).2 rest

/-- Without their places, the glyphs of a walk are those of the quoting alone. -/
theorem map_glyph_walkFrom (q : Quoting) (column byte : Nat) (text : List Char) :
    (walkFrom q column byte text).map PlacedGlyph.glyph = glyphsFrom q text := by
  induction text generalizing q column byte with
  | nil => rfl
  | cons c rest ih => rw [walkFrom, glyphsFrom, List.map_cons, ih]

namespace Line

/-- The walk over a line. -/
def walk (line : List Char) : List PlacedGlyph := walkFrom ⟨false, false⟩ 1 0 line

/-- The glyphs of a line. The column of a glyph is its place in the list, counted from one. -/
def glyphs (line : List Char) : List Glyph := (walk line).map PlacedGlyph.glyph

/-- The glyphs of a line do not depend on where the walk counts from. -/
theorem glyphs_eq_glyphsFrom (line : List Char) : glyphs line = glyphsFrom ⟨false, false⟩ line :=
  map_glyph_walkFrom ⟨false, false⟩ 1 0 line

/-- The characters of some glyphs. -/
def chars (gs : List Glyph) : List Char := gs.map Glyph.char

/-- Column of the quote that is open after the glyphs, given the one open before them. -/
def openLiteralFrom (column : Nat) (opened : Option Nat) : List Glyph → Option Nat
  | [] => opened
  | g :: rest =>
    let opened := match g.role with
      | .quoteOpen => some column
      | .quoteClose => none
      | _ => opened
    openLiteralFrom (column + 1) opened rest

/-- Column of the quote of a literal that the line does not close. -/
def unterminatedLiteral (gs : List Glyph) : Option Nat := openLiteralFrom 1 none gs

/-- A comment that fills its line: `@@ ...`, or `#` alone or before a space. -/
def isComment (line : List Char) : Bool :=
  match Text.trim line with
  | '@' :: '@' :: _ => true
  | ['#'] => true
  | '#' :: ' ' :: _ => true
  | _ => false

/-- A line the structural passes look at: not blank and not a comment. -/
def isCode (line : List Char) : Bool := !(Text.trim line).isEmpty && !isComment line

end Line

end Softcode
