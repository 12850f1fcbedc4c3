import Softcode.Text.Blank

/-!
# Lines of a text

A text is cut at its line feeds; a line is a piece without the carriage returns it ends with, and a
text that ends in a line feed has no further empty line. `LineIndex` is the second view: it records
the byte offsets at which the pieces start and maps an offset back to a line and a column.
-/

namespace Softcode.Text

/-- The pieces of a text between the characters that meet a condition. There is always at least
one. -/
def splitBy (test : Char → Bool) : List Char → List (List Char)
  | [] => [[]]
  | c :: rest =>
    if test c then [] :: splitBy test rest
    else
      match splitBy test rest with
      | [] => [[c]]
      | piece :: more => (c :: piece) :: more

/-- The pieces of a text between its line feeds. -/
def pieces (text : List Char) : List (List Char) := splitBy (· == '\n') text

/-- Forget the last piece if it is empty: the text then ends in a line feed or is empty. -/
def dropEmptyLast : List (List Char) → List (List Char)
  | [] => []
  | [piece] => if piece.isEmpty then [] else [piece]
  | piece :: more => piece :: dropEmptyLast more

/-- The lines of a text, without their terminators. -/
def lines (text : List Char) : List (List Char) := (dropEmptyLast (pieces text)).map dropReturns

/-- Size of a text in bytes of UTF-8. -/
def byteSize (text : List Char) : Nat := text.foldl (fun n c => n + c.utf8Size) 0

/-- The characters that start at byte offsets from `start` up to and without `stop`, in a text whose
first character starts at `offset`. -/
def sliceFrom (offset start stop : Nat) : List Char → List Char
  | [] => []
  | c :: rest =>
    let more := sliceFrom (offset + c.utf8Size) start stop rest
    if start ≤ offset && offset < stop then c :: more else more

/-- The part of a text between two byte offsets. -/
def slice (text : List Char) (start stop : Nat) : List Char := sliceFrom 0 start stop text

/-- Byte offsets just after the line feeds of a text that starts at `offset`. -/
def startsFrom (offset : Nat) : List Char → List Nat
  | [] => []
  | c :: rest =>
    let next := offset + c.utf8Size
    if c == '\n' then next :: startsFrom next rest else startsFrom next rest

/-- A text with the byte offsets at which its lines start. -/
structure LineIndex where
  text : List Char
  starts : List Nat
  deriving Repr

namespace LineIndex

/-- Index a text. The first line starts at offset zero. -/
def build (text : List Char) : LineIndex := ⟨text, 0 :: startsFrom 0 text⟩

/-- Line and column, both counted from one, of a byte offset on a character boundary. An offset past
the end counts as the end. -/
def locate (index : LineIndex) (offset : Nat) : Nat × Nat :=
  let offset := min offset (byteSize index.text)
  let before := index.starts.filter (· ≤ offset)
  (before.length, (slice index.text (before.getLast?.getD 0) offset).length + 1)

/-- The text of a line counted from one, without its terminator; empty if there is no such line. -/
def line (index : LineIndex) (number : Nat) : List Char :=
  match number with
  | 0 => []
  | n + 1 =>
    match index.starts[n]? with
    | none => []
    | some start =>
      let stop := match index.starts[n + 1]? with
        | some next => next - 1
        | none => byteSize index.text
      dropReturns (slice index.text start stop)

end LineIndex

end Softcode.Text
