/-!
# Blank and control characters

`isBlank` is the Unicode property White_Space and `isControl` the general category Cc. Trimming and
blankness of a text are taken with respect to `isBlank`.
-/

namespace Softcode.Text

/-- The Unicode property White_Space. -/
def isBlank (c : Char) : Bool :=
  let n := c.toNat
  (9 ≤ n && n ≤ 13) || n == 0x20 || n == 0x85 || n == 0xA0 || n == 0x1680
    || (0x2000 ≤ n && n ≤ 0x200A) || n == 0x2028 || n == 0x2029 || n == 0x202F
    || n == 0x205F || n == 0x3000

/-- The general category Cc: the control characters of ASCII and of Latin-1. -/
def isControl (c : Char) : Bool :=
  c.toNat < 0x20 || (0x7F ≤ c.toNat && c.toNat < 0xA0)

/-- Drop the blank characters a text starts with. -/
def trimStart (s : List Char) : List Char := s.dropWhile isBlank

/-- Drop the blank characters a text ends with. -/
def trimEnd (s : List Char) : List Char := (s.reverse.dropWhile isBlank).reverse

/-- Drop the blank characters at both ends of a text. -/
def trim (s : List Char) : List Char := trimEnd (trimStart s)

/-- A text without a character that shows. -/
def isBlankText (s : List Char) : Bool := s.all isBlank

/-- Drop every carriage return a line ends with. -/
def dropReturns (s : List Char) : List Char := (s.reverse.dropWhile (· == '\r')).reverse

end Softcode.Text
