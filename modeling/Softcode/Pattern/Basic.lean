import Softcode.Pattern.CharSet

/-!
# Patterns

A pattern describes texts with an order of preference among the ways to match them: of two
alternatives the first is preferred, and a repetition prefers more rounds if it is greedy and fewer
if it is lazy. All repetitions are built from one or more rounds.
-/

namespace Softcode

namespace Pattern

/-- A condition on the place between two characters. -/
inductive Anchor where
  | textStart
  | textEnd
  | lineStart
  | lineEnd
  /-- the start of a line that a carriage return, a line feed or both end -/
  | anyLineStart
  /-- the end of such a line -/
  | anyLineEnd
  | wordBoundary
  | notWordBoundary
  | wordStart
  | wordEnd
  /-- no word character before -/
  | wordStartHalf
  /-- no word character after -/
  | wordEndHalf
  deriving DecidableEq, Repr, Inhabited

/-- The character is there and belongs to a word. -/
def inWord (c : Option Char) : Bool := c.any Text.isWordLetter

/-- The condition holds between two characters, which are missing at the ends of the text. -/
def Anchor.holds (before after : Option Char) : Anchor → Bool
  | textStart => before.isNone
  | textEnd => after.isNone
  | lineStart => before.all (· == '\n')
  | lineEnd => after.all (· == '\n')
  | anyLineStart => before.all fun c => c == '\n' || c == '\r' && after != some '\n'
  | anyLineEnd => after.all fun c => c == '\r' || c == '\n' && before != some '\r'
  | wordBoundary => inWord before != inWord after
  | notWordBoundary => inWord before == inWord after
  | wordStart => !inWord before && inWord after
  | wordEnd => inWord before && !inWord after
  | wordStartHalf => !inWord before
  | wordEndHalf => !inWord after

end Pattern

/-- A pattern. -/
inductive Pattern where
  | empty
  | set (s : Pattern.CharSet)
  | anchor (a : Pattern.Anchor)
  | seq (p q : Pattern)
  /-- either pattern, the first preferred -/
  | alt (p q : Pattern)
  /-- one or more rounds -/
  | plus (greedy : Bool) (p : Pattern)
  deriving DecidableEq, Repr, Inhabited

namespace Pattern

/-- A way to read the written form of patterns, some of which cannot be read. -/
abbrev Reader : Type := List Char → Option Pattern

/-- The pattern or nothing. -/
def opt (greedy : Bool) (p : Pattern) : Pattern := if greedy then alt p empty else alt empty p

/-- Any number of rounds. -/
def star (greedy : Bool) (p : Pattern) : Pattern := opt greedy (plus greedy p)

/-- Patterns one after the other. -/
def sequence : List Pattern → Pattern
  | [] => empty
  | [p] => p
  | p :: more => seq p (sequence more)

/-- Any of several patterns, earlier ones preferred. -/
def choice : List Pattern → Pattern
  | [] => empty
  | [p] => p
  | p :: more => alt p (choice more)

/-- Exactly `n` rounds. -/
def exactly (n : Nat) (p : Pattern) : Pattern := sequence (List.replicate n p)

/-- Up to `n` rounds; each further round depends on the one before it. -/
def upTo (greedy : Bool) (p : Pattern) : Nat → Pattern
  | 0 => empty
  | 1 => opt greedy p
  | n + 1 => opt greedy (seq p (upTo greedy p n))

/-- At least `n` rounds. -/
def atLeast (greedy : Bool) (n : Nat) (p : Pattern) : Pattern :=
  match n with
  | 0 => star greedy p
  | 1 => plus greedy p
  | n + 1 => seq (exactly n p) (plus greedy p)

/-- From `low` to `high` rounds. -/
def between (greedy : Bool) (low high : Nat) (p : Pattern) : Pattern :=
  if high ≤ low then exactly low p
  else if low = 0 then upTo greedy p high
  else seq (exactly low p) (upTo greedy p (high - low))

end Pattern

end Softcode
