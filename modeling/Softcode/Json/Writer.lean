import Softcode.Decimal.Shortest
import Softcode.Json.Basic
import Softcode.Text.Digits

/-!
# Writing JSON

Text is written as it is, but for quotes, backslashes and the control characters of ASCII. The
pretty form has one member or item a line, indented by two spaces a level; empty lists and objects
stay on their line.
-/

namespace Softcode.Json

/-- Numbers keep a fraction; those outside `10 ^ -5` to `10 ^ 16` are written with a signed
exponent, and those that are not finite have no number in JSON. -/
def layout : Decimal.Layout where
  leastFixed := -5
  greatestFixed := 15
  plus := true
  infinity := "inf"
  undefined := "NaN"

/-- One character of a quoted text. -/
def escapeChar (c : Char) : List Char :=
  match c with
  | '"' => ['\\', '"']
  | '\\' => ['\\', '\\']
  | '\x08' => ['\\', 'b']
  | '\x0c' => ['\\', 'f']
  | '\n' => ['\\', 'n']
  | '\r' => ['\\', 'r']
  | '\t' => ['\\', 't']
  | c => if c.toNat < 0x20 then '\\' :: 'u' :: Text.hexLower 4 c.toNat else [c]

/-- A quoted text. -/
def quote (s : String) : List Char := '"' :: s.toList.flatMap escapeChar ++ ['"']

/-- A floating-point number. -/
def realText (x : Float) : List Char :=
  if x.isFinite then layout.text x else "null".toList

/-- An integer. -/
def integerText (n : Int) : List Char :=
  match n with
  | .ofNat n => Nat.toDigits 10 n
  | .negSucc n => '-' :: Nat.toDigits 10 (n + 1)

/-- A flag. -/
def flagText (b : Bool) : List Char := if b then "true".toList else "false".toList

mutual

/-- A value on one line without blanks. -/
def compact : Json → List Char
  | .null | .unreadable => "null".toList
  | .flag b => flagText b
  | .integer n => integerText n
  | .real x => realText x
  | .text s => quote s
  | .list items => '[' :: compactItems items ++ [']']
  | .object members => '{' :: compactMembers members ++ ['}']

/-- The items of a list, with commas between them. -/
def compactItems : List Json → List Char
  | [] => []
  | [item] => compact item
  | item :: more => compact item ++ ',' :: compactItems more

/-- The members of an object, with commas between them. -/
def compactMembers : List (String × Json) → List Char
  | [] => []
  | [(name, value)] => quote name ++ ':' :: compact value
  | (name, value) :: more => quote name ++ ':' :: compact value ++ ',' :: compactMembers more

end

/-- A line break and the indentation of a level. -/
def newline (level : Nat) : List Char := '\n' :: List.replicate (2 * level) ' '

mutual

/-- A value over several lines, at a level of indentation. -/
def prettyAt (level : Nat) : Json → List Char
  | .null | .unreadable => "null".toList
  | .flag b => flagText b
  | .integer n => integerText n
  | .real x => realText x
  | .text s => quote s
  | .list [] => "[]".toList
  | .list (item :: more) => '[' :: prettyItems (level + 1) (item :: more) ++ newline level ++ [']']
  | .object [] => "\x7b\x7d".toList
  | .object (member :: more) =>
    '{' :: prettyMembers (level + 1) (member :: more) ++ newline level ++ ['}']

/-- The items of a list, a line each. -/
def prettyItems (level : Nat) : List Json → List Char
  | [] => []
  | [item] => newline level ++ prettyAt level item
  | item :: more => newline level ++ prettyAt level item ++ ',' :: prettyItems level more

/-- The members of an object, a line each. -/
def prettyMembers (level : Nat) : List (String × Json) → List Char
  | [] => []
  | [(name, value)] => newline level ++ quote name ++ ':' :: ' ' :: prettyAt level value
  | (name, value) :: more =>
    newline level ++ quote name ++ ':' :: ' ' :: prettyAt level value
      ++ ',' :: prettyMembers level more

end

/-- A value on one line. -/
def toCompact (value : Json) : String := String.ofList (compact value)

/-- A value over several lines. -/
def toPretty (value : Json) : String := String.ofList (prettyAt 0 value)

end Softcode.Json
