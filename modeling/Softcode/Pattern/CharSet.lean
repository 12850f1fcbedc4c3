import Softcode.Text.Blank
import Softcode.Text.CaseOrbit
import Softcode.Text.DecimalDigit
import Softcode.Text.Word

/-!
# Sets of characters

The sets that patterns are made of, as expressions. A set is closed under case by asking for any
case variant of a character.
-/

namespace Softcode.Pattern

/-- A set of characters. -/
inductive CharSet where
  | none
  | range (low high : Char)
  /-- letters, marks, digits and connectors of any script -/
  | word
  /-- decimal digits of any script -/
  | digit
  | blank
  | union (a b : CharSet)
  | inter (a b : CharSet)
  | compl (a : CharSet)
  /-- the characters with a case variant in the set -/
  | folded (a : CharSet)
  deriving DecidableEq, Repr, Inhabited

namespace CharSet

/-- The character is in the set. -/
def mem (c : Char) : CharSet → Bool
  | none => false
  | range low high => low ≤ c && c ≤ high
  | word => Text.isWordLetter c
  | digit => Text.isDecimalDigit c
  | blank => Text.isBlank c
  | union a b => a.mem c || b.mem c
  | inter a b => a.mem c && b.mem c
  | compl a => !a.mem c
  | folded a => (Text.caseVariants c).any fun v => a.mem v

/-- The set of one character. -/
def single (c : Char) : CharSet := range c c

/-- The set of every character. -/
def every : CharSet := compl none

/-- The characters of the first set that are not in the second. -/
def diff (a b : CharSet) : CharSet := inter a (compl b)

/-- The characters of exactly one of two sets. -/
def symmDiff (a b : CharSet) : CharSet := union (diff a b) (diff b a)

/-- The union of several ranges. -/
def ranges (rs : List (Char × Char)) : CharSet :=
  rs.foldl (fun s r => union s (range r.1 r.2)) none

/-- The classes of ASCII characters that have a name. -/
def named? : String → Option CharSet
  | "alnum" => some (ranges [('0', '9'), ('A', 'Z'), ('a', 'z')])
  | "alpha" => some (ranges [('A', 'Z'), ('a', 'z')])
  | "ascii" => some (range '\x00' '\x7f')
  | "blank" => some (ranges [('\t', '\t'), (' ', ' ')])
  | "cntrl" => some (ranges [('\x00', '\x1f'), ('\x7f', '\x7f')])
  | "digit" => some (range '0' '9')
  | "graph" => some (range '!' '~')
  | "lower" => some (range 'a' 'z')
  | "print" => some (range ' ' '~')
  | "punct" => some (ranges [('!', '/'), (':', '@'), ('[', '\x60'), ('\x7b', '~')])
  | "space" => some (ranges [('\t', '\r'), (' ', ' ')])
  | "upper" => some (range 'A' 'Z')
  | "word" => some (ranges [('0', '9'), ('A', 'Z'), ('_', '_'), ('a', 'z')])
  | "xdigit" => some (ranges [('0', '9'), ('A', 'F'), ('a', 'f')])
  | _ => Option.none

end CharSet

end Softcode.Pattern
