import Softcode.Pattern.Class

/-!
# Reading patterns

The written form of patterns: characters and sets, anchors, alternatives, groups with or without a
name, flags, and repetitions. A pattern that refers back to a group or looks around is not one of
these, and neither is one whose parentheses, brackets or repetitions are incomplete, or one that is
nested too deep. Case does not count unless a flag says so. Classes of characters by their
properties, blanks that do not count (`x`) and patterns of bytes (`-u`) are not read.
-/

namespace Softcode.Pattern

/-- What the flags in force say. -/
structure Flags where
  /-- `i`: case does not count -/
  caseless : Bool := true
  /-- `m`: `^` and `$` hold at the ends of every line -/
  multiLine : Bool := false
  /-- `s`: a dot also stands for a line feed -/
  dotAll : Bool := false
  /-- `U`: repetitions are lazy, and greedy with a question mark -/
  swapGreed : Bool := false
  /-- `R`: carriage returns end lines too -/
  returns : Bool := false
  deriving DecidableEq, Repr

/-- Set a flag by its letter. -/
def Flags.set? (f : Flags) (letter : Char) (on : Bool) : Option Flags :=
  match letter, on with
  | 'i', on => some { f with caseless := on }
  | 'm', on => some { f with multiLine := on }
  | 's', on => some { f with dotAll := on }
  | 'U', on => some { f with swapGreed := on }
  | 'R', on => some { f with returns := on }
  | 'u', true => some f
  | 'x', false => some f
  | _, _ => none

/-- What a dot stands for. -/
def Flags.dot (f : Flags) : CharSet :=
  if f.dotAll then .every
  else if f.returns then .compl (.union (.single '\r') (.single '\n'))
  else .compl (.single '\n')

/-- What `^` stands for. -/
def Flags.startAnchor (f : Flags) : Anchor :=
  if !f.multiLine then .textStart else if f.returns then .anyLineStart else .lineStart

/-- What `$` stands for. -/
def Flags.endAnchor (f : Flags) : Anchor :=
  if !f.multiLine then .textEnd else if f.returns then .anyLineEnd else .lineEnd

/-- A pattern that has been read, with how deep it is nested. -/
structure Written where
  pattern : Pattern
  depth : Nat := 0
  deriving Repr

/-- Part of an alternative. -/
inductive Item where
  | pattern (w : Written)
  /-- a change of flags, which cannot be repeated -/
  | setting
  deriving Repr

namespace Item

/-- The pattern of an item. -/
def pattern? : Item → Option Pattern
  | pattern w => some w.pattern
  | setting => none

/-- How deep an item is nested. -/
def depth : Item → Nat
  | pattern w => w.depth
  | setting => 0

end Item

/-- A group that is being read: its finished alternatives and the items of the current one, the last
first. -/
structure Group where
  branches : List Written := []
  items : List Item := []
  deriving Repr

namespace Group

/-- The current alternative. -/
def branch (g : Group) : Written where
  pattern := sequence (g.items.reverse.filterMap Item.pattern?)
  depth := depthOf (g.items.map Item.depth)

/-- Start another alternative. -/
def alternate (g : Group) : Group := { branches := g.branch :: g.branches }

/-- The pattern of the group. -/
def close (g : Group) : Written :=
  let branches := (g.branch :: g.branches).reverse
  ⟨choice (branches.map Written.pattern), depthOf (branches.map Written.depth)⟩

/-- Add an item. -/
def add (g : Group) (w : Written) : Group := { g with items := .pattern w :: g.items }

end Group

/-- What has been read of a pattern. -/
structure Reading where
  flags : Flags := {}
  group : Group := {}
  /-- the groups around the current one, with the flags that hold in them again afterwards -/
  outer : List (Flags × Group) := []
  /-- names of groups -/
  names : List (List Char) := []
  deriving Repr

namespace Reading

/-- Add a pattern to the current alternative. -/
def add (r : Reading) (w : Written) : Reading := { r with group := r.group.add w }

/-- Add a set of characters as it is. -/
def addSet (r : Reading) (s : CharSet) : Reading := r.add ⟨.set s, 0⟩

/-- Add a condition. -/
def addAnchor (r : Reading) (a : Anchor) : Reading := r.add ⟨.anchor a, 0⟩

/-- Add a character. -/
def addChar (r : Reading) (c : Char) : Reading :=
  r.addSet (foldCase r.flags.caseless (.single c))

/-- Add what an escape stands for. -/
def addAtom (r : Reading) : Atom → Reading
  | .char c => r.addChar c
  | .set s => r.addSet s
  | .anchor a => r.addAnchor a

/-- Open a group in which these flags hold. -/
def openGroup (r : Reading) (flags : Flags) : Reading :=
  { r with flags, group := {}, outer := (r.flags, r.group) :: r.outer }

/-- Close the current group. -/
def closeGroup? (r : Reading) : Option Reading :=
  match r.outer with
  | [] => none
  | (flags, group) :: outer =>
    let inner := r.group.close
    some { r with flags, group := group.add ⟨inner.pattern, inner.depth + 1⟩, outer }

/-- Repeat the last item. `build` takes whether the repetition is greedy; a question mark at the
start of the text makes it lazy. -/
def repeatLast? (r : Reading) (build : Bool → Pattern → Pattern) (text : List Char) :
    Option (Reading × List Char) :=
  match r.group.items with
  | .pattern w :: items =>
    let lazy := text.head? == some '?'
    let greedy := lazy == r.flags.swapGreed
    let rounds : Written := ⟨build greedy w.pattern, w.depth + 1⟩
    some ({ r with group := { r.group with items := .pattern rounds :: items } },
      if lazy then text.drop 1 else text)
  | _ => none

end Reading

/-! ## Counted repetitions -/

/-- The greatest number of rounds that a repetition may ask for. -/
def maxRounds : Nat := 200000

/-- A number with blanks around it, if there is one. -/
def readNumber (text : List Char) : Option Nat × List Char :=
  let text := Text.trimStart text
  let digits := text.takeWhile Char.isDigit
  (if digits.isEmpty then none else some (Text.decimalValue digits),
    Text.trimStart (text.drop digits.length))

/-- The counts of a repetition, after its brace: a least number of rounds and a greatest, if there
is one. -/
def readCounts? (text : List Char) : Option ((Nat × Option Nat) × List Char) :=
  match readNumber text with
  | (some low, '}' :: rest) => some ((low, some low), rest)
  | (some low, ',' :: '}' :: rest) => some ((low, none), rest)
  | (some low, ',' :: rest) =>
    match readNumber rest with
    | (some high, '}' :: rest) => if low ≤ high then some ((low, some high), rest) else none
    | _ => none
  | _ => none

/-- A counted repetition, after its brace. -/
def Reading.repeatCounted? (r : Reading) (text : List Char) : Option (Reading × List Char) :=
  match readCounts? text with
  | none => none
  | some ((low, high), rest) =>
    if maxRounds < high.getD low then none
    else
      match high with
      | some high => r.repeatLast? (fun greedy p => between greedy low high p) rest
      | none => r.repeatLast? (fun greedy p => atLeast greedy low p) rest

/-! ## Groups -/

/-- Read flags up to the parenthesis that ends them or the colon that starts a group. `seen` holds
what came before, the last first. The result says whether a group starts. -/
def readFlags? (flags : Flags) (on : Bool) (seen : List Char) :
    List Char → Option ((Flags × Bool) × List Char)
  | [] => none
  | c :: rest =>
    if c == ':' then if seen.head? == some '-' then none else some ((flags, true), rest)
    else if c == ')' then
      if seen.isEmpty || seen.head? == some '-' then none else some ((flags, false), rest)
    else if seen.contains c then none
    else if c == '-' then readFlags? flags false (c :: seen) rest
    else
      match flags.set? c on with
      | some flags => readFlags? flags on (c :: seen) rest
      | none => none

/-- A character that the name of a group may start with. -/
def isNameStart (c : Char) : Bool := Text.isWordLetter c && !Text.isDecimalDigit c

/-- A character of the name of a group. -/
def isNameChar (c : Char) : Bool :=
  Text.isWordLetter c || c == '.' || c == '[' || c == ']'

/-- Open a group with a name, after `<`. -/
def Reading.openNamed? (r : Reading) (text : List Char) : Option (Reading × List Char) :=
  let name := text.takeWhile (· != '>')
  match text.drop name.length with
  | '>' :: rest =>
    if name.head?.any isNameStart && name.all isNameChar && !r.names.contains name then
      some ({ r.openGroup r.flags with names := name :: r.names }, rest)
    else none
  | _ => none

/-- Open a group or set flags, after the parenthesis. -/
def Reading.openParen? (r : Reading) (text : List Char) : Option (Reading × List Char) :=
  match text with
  | '?' :: '=' :: _ | '?' :: '!' :: _ | '?' :: '<' :: '=' :: _ | '?' :: '<' :: '!' :: _ => none
  | '?' :: 'P' :: '<' :: rest | '?' :: '<' :: rest => r.openNamed? rest
  | '?' :: rest =>
    match readFlags? r.flags true [] rest with
    | some ((flags, true), rest) => some (r.openGroup flags, rest)
    | some ((flags, false), rest) =>
      some ({ r with flags, group := { r.group with items := .setting :: r.group.items } }, rest)
    | none => none
  | _ => some (r.openGroup r.flags, text)

/-! ## The whole pattern -/

/-- Read one construct, which starts with the character `c`. -/
def Reading.step? (r : Reading) (c : Char) (rest : List Char) : Option (Reading × List Char) :=
  match c with
  | '(' => r.openParen? rest
  | ')' => r.closeGroup?.map fun r => (r, rest)
  | '|' => some ({ r with group := r.group.alternate }, rest)
  | '[' =>
    (readSet? r.flags.caseless rest).map fun (s, rest) => (r.add ⟨.set s.chars, s.depth⟩, rest)
  | '?' => r.repeatLast? opt rest
  | '*' => r.repeatLast? star rest
  | '+' => r.repeatLast? plus rest
  | '{' => r.repeatCounted? rest
  | '\\' => (readEscape? rest).map fun (atom, rest) => (r.addAtom atom, rest)
  | '.' => some (r.addSet r.flags.dot, rest)
  | '^' => some (r.addAnchor r.flags.startAnchor, rest)
  | '$' => some (r.addAnchor r.flags.endAnchor, rest)
  | c => some (r.addChar c, rest)

/-- The most that a pattern may be nested. -/
def maxDepth : Nat := 250

/-- The pattern that has been read, if all its groups are closed and it is not nested too deep. -/
def Reading.finish? (r : Reading) : Option Pattern :=
  let whole := r.group.close
  if r.outer.isEmpty && whole.depth ≤ maxDepth then some whole.pattern else none

/-- Read a pattern to its end; each round takes at least one character. -/
def readFrom? (fuel : Nat) (r : Reading) (text : List Char) : Option Pattern :=
  match text, fuel with
  | [], _ => r.finish?
  | _ :: _, 0 => none
  | c :: rest, fuel + 1 =>
    match r.step? c rest with
    | some (r, rest) => readFrom? fuel r rest
    | none => none

/-- Read the written form of a pattern. -/
def ofText? : Reader := fun text => readFrom? text.length {} text

end Softcode.Pattern
