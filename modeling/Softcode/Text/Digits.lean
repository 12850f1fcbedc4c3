/-!
# Numerals

Hexadecimal numerals of a least width, as they appear in messages and escapes, and how they are
read.
-/

namespace Softcode.Text

/-- Fill a list of characters up to a width from the left. -/
def padLeft (width : Nat) (fill : Char) (s : List Char) : List Char :=
  List.replicate (width - s.length) fill ++ s

/-- Fill a list of characters up to a width from the right. -/
def padRight (width : Nat) (fill : Char) (s : List Char) : List Char :=
  s ++ List.replicate (width - s.length) fill

/-- Hexadecimal digits of a number, in lower case, at least `width` of them. -/
def hexLower (width n : Nat) : List Char := padLeft width '0' (Nat.toDigits 16 n)

/-- Hexadecimal digits of a number, in upper case, at least `width` of them. -/
def hexUpper (width n : Nat) : List Char := (hexLower width n).map Char.toUpper

/-- Value of a hexadecimal digit. -/
def hexDigit? (c : Char) : Option Nat :=
  if '0' ≤ c ∧ c ≤ '9' then some (c.toNat - '0'.toNat)
  else if 'a' ≤ c ∧ c ≤ 'f' then some (c.toNat - 'a'.toNat + 10)
  else if 'A' ≤ c ∧ c ≤ 'F' then some (c.toNat - 'A'.toNat + 10)
  else none

/-- Value of digits of a base up to sixteen, read from the left; none if one of them is no digit. -/
def valueInBase? (base : Nat) (digits : List Char) : Option Nat :=
  digits.foldlM (fun n c =>
    match hexDigit? c with
    | some d => if d < base then some (base * n + d) else none
    | none => none) 0

/-- Value of hexadecimal digits. -/
def hexValue? (digits : List Char) : Option Nat := valueInBase? 16 digits

/-- The character with a code point, unless that is a surrogate or too large. -/
def charOf? (n : Nat) : Option Char :=
  if n < 0xD800 || (0xDFFF < n && n < 0x110000) then some (Char.ofNat n) else none

end Softcode.Text
