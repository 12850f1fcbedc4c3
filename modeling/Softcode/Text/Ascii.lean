/-!
# ASCII letters, digits and case

Names in softcode are compared without regard to the case of ASCII letters; all other characters
stand for themselves.
-/

namespace Softcode.Text

/-- ASCII letters, digits and the underscore: the characters a name is made of. -/
def isWordChar (c : Char) : Bool := c.isAlphanum || c == '_'

/-- ASCII letters and the underscore: the characters a name may start with. -/
def isWordStart (c : Char) : Bool := c.isAlpha || c == '_'

/-- Lower the ASCII letters of a text. -/
def lower (s : List Char) : List Char := s.map Char.toLower

/-- Equality up to the case of ASCII letters. -/
def sameName (a b : String) : Bool := lower a.toList == lower b.toList

/-- A name: a letter or underscore, then letters, digits and underscores. -/
def isIdentifier : List Char → Bool
  | [] => false
  | c :: rest => isWordStart c && rest.all isWordChar

/-- Value of a list of decimal digits, read from the left. -/
def decimalValue (digits : List Char) : Nat :=
  digits.foldl (fun n c => 10 * n + (c.toNat - '0'.toNat)) 0

/-- The largest value of a 64-bit word. -/
def wordMax : Nat := UInt64.size - 1

end Softcode.Text
