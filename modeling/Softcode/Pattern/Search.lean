import Softcode.Pattern.Basic
import Softcode.Text.Lines

/-!
# Searching a text

A match is found by following all ways to match side by side, in order of preference. A way is what
is left to match: a list of steps. At a place in the text each way is opened until it is clear which
set the next character has to be in; of two ways with the same rest the one that is preferred stays.
A way that is complete ends all ways of lesser preference, and the last complete way that was
reached is the match. Matches are looked for from left to right and do not overlap.
-/

namespace Softcode.Pattern

/-- Something left to match. -/
inductive Step where
  | one (p : Pattern)
  /-- further rounds of a repetition, if wanted -/
  | rounds (greedy : Bool) (p : Pattern)
  deriving DecidableEq, Repr, Inhabited

/-- What can come next. -/
inductive Move where
  /-- nothing is left to match -/
  | accept
  /-- a character of the set, and then the rest -/
  | eat (s : CharSet) (rest : List Step)
  deriving DecidableEq, Repr, Inhabited

/-- The moves of both lists, in order, without those that came before. -/
def joinMoves (first second : List Move) : List Move :=
  first ++ second.filter fun m => !first.contains m

/-- The moves into a pattern that is followed by `rest`, whose own moves are `after`. -/
def enter (before next : Option Char) (rest : List Step) (after : List Move) :
    Pattern → List Move
  | empty => after
  | set s => [.eat s rest]
  | anchor a => if a.holds before next then after else []
  | seq p q => enter before next (.one q :: rest) (enter before next rest after q) p
  | alt p q => joinMoves (enter before next rest after p) (enter before next rest after q)
  | plus greedy p => enter before next (.rounds greedy p :: rest) after p

/-- The moves into a list of steps. -/
def moves (before next : Option Char) : List Step → List Move
  | [] => [.accept]
  | .one p :: rest => enter before next rest (moves before next rest) p
  | .rounds greedy p :: rest =>
    let leave := moves before next rest
    let again := enter before next (.rounds greedy p :: rest) [] p
    if greedy then joinMoves again leave else joinMoves leave again

/-- The ways that the character allows. -/
def advance (c : Char) (ms : List Move) : List (List Step) :=
  (ms.filterMap fun
    | .accept => none
    | .eat s rest => if s.mem c then some rest else none).eraseDups

/-- The moves of several ways, in order of preference, up to one that is complete. -/
def allMoves (before next : Option Char) (ways : List (List Step)) : List Move :=
  ways.foldl (fun ms way => joinMoves ms (moves before next way)) []

/-- The moves that a complete way does not rule out. -/
def preferred (ms : List Move) : List Move := ms.takeWhile (· != .accept)

/-- Follow the ways through a text. The result is the number of characters of the match; `count`
characters have been passed, and `best` is the match found so far. -/
def follow (before : Option Char) (ways : List (List Step)) (count : Nat) (best : Option Nat) :
    List Char → Option Nat
  | [] =>
    if (allMoves before none ways).contains .accept then some count else best
  | c :: rest =>
    let ms := allMoves before (some c) ways
    let best := if ms.contains .accept then some count else best
    let ways := advance c (preferred ms)
    if ways.isEmpty then best else follow (some c) ways (count + 1) best rest

/-- Length in characters of the preferred match that starts where the text does. `before` is the
character in front of the text. -/
def matchLength? (p : Pattern) (before : Option Char) (text : List Char) : Option Nat :=
  follow before [[.one p]] 0 none text

/-- A part of a text, by byte offsets. -/
structure Span where
  start : Nat
  stop : Nat
  deriving DecidableEq, Repr

/-- The matches in a text that starts at `offset`, after the character `before`; the first `skip`
characters belong to a match already found. Empty matches do not count. -/
def spansFrom (p : Pattern) (offset skip : Nat) (before : Option Char) : List Char → List Span
  | [] => []
  | c :: rest =>
    let offset' := offset + c.utf8Size
    match skip with
    | n + 1 => spansFrom p offset' n (some c) rest
    | 0 =>
      match p.matchLength? before (c :: rest) with
      | some (n + 1) =>
        ⟨offset, offset' + Text.byteSize (rest.take n)⟩ :: spansFrom p offset' n (some c) rest
      | _ => spansFrom p offset' 0 (some c) rest

/-- The non-empty matches in a text, from left to right. -/
def spans (p : Pattern) (text : List Char) : List Span := spansFrom p 0 0 none text

end Softcode.Pattern
