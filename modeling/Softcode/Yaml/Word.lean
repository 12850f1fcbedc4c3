import Softcode.Decimal.Reader
import Softcode.Text.Digits

/-!
# Plain words

What a plain scalar means apart from its text: nothing, a flag, an integer or a number. Integers may
be hexadecimal, octal or binary; digits after a leading zero are no number.
-/

namespace Softcode.Yaml

/-- The words for nothing. -/
def isNull (word : String) : Bool := ["null", "Null", "NULL", "~"].contains word

/-- The words for true and false. -/
def flag? (word : String) : Option Bool :=
  if ["true", "True", "TRUE"].contains word then some true
  else if ["false", "False", "FALSE"].contains word then some false
  else none

/-- Drop one character from the start, if it is there. -/
def dropSign (sign : Char) (word : List Char) : List Char :=
  if word.head? == some sign then word.drop 1 else word

/-- More than one digit, the first of them zero. -/
def isZeroLed (word : List Char) : Bool :=
  let digits := if word.head? == some '-' then word.drop 1 else dropSign '+' word
  1 < digits.length && digits.head? == some '0' && digits.all Char.isDigit

/-- The number that digits of a base stand for. There has to be one. -/
def inBase? (base : Nat) (digits : List Char) : Option Nat :=
  if digits.isEmpty then none else Text.valueInBase? base digits

/-- Read an integer without a sign in decimal, hexadecimal, octal or binary digits. -/
def magnitude? (word : List Char) : Option Nat :=
  match word with
  | '0' :: 'x' :: digits => inBase? 16 digits
  | '0' :: 'o' :: digits => inBase? 8 digits
  | '0' :: 'b' :: digits => inBase? 2 digits
  | _ => if isZeroLed word then none else inBase? 10 word

/-- Read a natural number that fits a 64-bit word. -/
def natural? (word : String) : Option Nat :=
  match magnitude? (dropSign '+' word.toList) with
  | some n => if n ≤ Text.wordMax then some n else none
  | none => none

/-- Infinite and undefined numbers by their words, without a plus sign. -/
def special? (word : String) : Option Float :=
  if [".inf", ".Inf", ".INF"].contains word then some (1.0 / 0.0)
  else if ["-.inf", "-.Inf", "-.INF"].contains word then some (-1.0 / 0.0)
  else if [".nan", ".NaN", ".NAN"].contains word then some (0.0 / 0.0)
  else none

/-- Read a number. A finite number must not be too large; only infinity may have a plus sign among
the special words. -/
def real? (word : String) : Option Float :=
  match word.toList with
  | '+' :: rest =>
    if rest.head? == some '+' || rest.head? == some '-' then none
    else if [".inf", ".Inf", ".INF"].contains (String.ofList rest) then some (1.0 / 0.0)
    else Decimal.float? rest
  | chars => (special? word).or (Decimal.float? chars)

/-- Read an integer with a sign of no more than 128 bits, or a number. -/
def isNumeric (word : String) : Bool :=
  let chars := word.toList
  let integer := match chars with
    | '-' :: rest => (magnitude? rest).any (· ≤ 1 <<< 127)
    | _ => (magnitude? (dropSign '+' chars)).any (· < 1 <<< 128)
  integer || (!isZeroLed chars && (real? word).isSome)

/-- The word means something other than its text, or looks as if it did. -/
def isAmbiguous (word : String) : Bool :=
  word.isEmpty || isNull word || (flag? word).isSome || isNumeric word || isZeroLed word.toList

end Softcode.Yaml
