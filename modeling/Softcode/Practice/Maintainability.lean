import Softcode.Line.Substitution
import Softcode.Practice.Advice

/-!
# Maintainability: numbers, parameters and object references
-/

namespace Softcode.Practice

/-- Most positional parameters a line may use. -/
def maxPositionalParameters : Nat := 5

/-- Numbers up to this one need no name. -/
def magicNumberFloor : Nat := 10

/-- A numeral and the column of its first digit. -/
structure Numeral where
  column : Nat
  digits : List Char
  deriving DecidableEq, Repr

/-- A character directly before a numeral that makes it part of something else. -/
def bindsNumeral (c : Char) : Bool := Text.isWordChar c || c == '%' || c == '#' || c == '.'

/-- The numerals among glyphs that start at `column`, after the character `before`. -/
def numeralsFrom (column : Nat) (before : Option Char) : List Glyph → List Numeral
  | [] => []
  | g :: rest =>
    let more := numeralsFrom (column + 1) (some g.char) rest
    if g.isCodeDigit && !before.any bindsNumeral then
      ⟨column, Line.chars ((g :: rest).takeWhile Glyph.isCodeDigit)⟩ :: more
    else more

/-- A numeral with more than one digit, whose value is large but fits a 64-bit word. -/
def isMagic (numeral : Numeral) : Bool :=
  let value := Text.decimalValue numeral.digits
  1 < numeral.digits.length && magicNumberFloor < value && value ≤ Text.wordMax

/-- The numerals whose value did not come before. -/
def firstOfValue (seen : List Nat) : List Numeral → List Numeral
  | [] => []
  | numeral :: rest =>
    let value := Text.decimalValue numeral.digits
    if seen.contains value then firstOfValue seen rest
    else numeral :: firstOfValue (value :: seen) rest

/-- Tips on numbers that should have a name, each value once. -/
def magicNumbers (line : List Char) : List Tip :=
  (firstOfValue [] ((numeralsFrom 1 none (Line.glyphs line)).filter isMagic)).map fun numeral =>
    let value := Text.decimalValue numeral.digits
    { column := numeral.column, advice := .magicNumber value, before := numeral.digits
      after := "v(LIMIT_".toList ++ (toString value).toList ++ [')'] }

/-- The one-digit arguments a line refers to, each once. -/
def parameters (gs : List Glyph) : List Nat :=
  ((Line.substitutions gs).filterMap fun sub =>
    match sub.reference with
    | .positional index => if index ≤ 9 then some index else none
    | _ => none).eraseDups

/-- A tip on a line that takes too many arguments. -/
def manyParameters (line : List Char) : Option Tip :=
  let count := (parameters (Line.glyphs line)).length
  if maxPositionalParameters < count then some {
    column := 1, advice := .manyParameters count, before := line
    after := "Pass a delimited list and split it with extract() or setq()".toList }
  else none

/-- The object numbers among glyphs that start at `column`, after the character `before`. -/
def objectNumbersFrom (column : Nat) (before : Option Char) : List Glyph → List Numeral
  | [] => []
  | g :: rest =>
    let more := objectNumbersFrom (column + 1) (some g.char) rest
    let digits := Line.chars (rest.takeWhile Glyph.isCodeDigit)
    if g.isCodeChar '#' && before != some '%' && !digits.isEmpty then ⟨column, digits⟩ :: more
    else more

/-- Tips on objects referred to by number. -/
def hardcodedReferences (line : List Char) : List Tip :=
  (objectNumbersFrom 1 none (Line.glyphs line)).map fun numeral => {
    column := numeral.column
    advice := .hardcodedReference (String.ofList numeral.digits)
    before := '#' :: numeral.digits
    after := "v(TARGET_DBREF)".toList }

/-- Tips on the maintainability of a line. -/
def maintainability (line : List Char) : List Tip :=
  magicNumbers line ++ (manyParameters line).toList ++ hardcodedReferences line

end Softcode.Practice
