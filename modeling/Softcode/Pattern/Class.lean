import Softcode.Pattern.Basic
import Softcode.Text.Ascii
import Softcode.Text.Digits

/-!
# Escapes and bracketed sets

How a pattern writes single characters, conditions and sets of characters: escapes such as `\d` and
`\x41`, and sets in brackets, which may be negated, nested and combined.
-/

namespace Softcode.Pattern

/-- What an escape stands for. -/
inductive Atom where
  | char (c : Char)
  | set (s : CharSet)
  | anchor (a : Anchor)
  deriving DecidableEq, Repr

/-- The character with a code point given in hexadecimal digits. -/
def charOfHex? (digits : List Char) : Option Char :=
  if digits.isEmpty then none else (Text.hexValue? digits).bind Text.charOf?

/-- A character given by `width` hexadecimal digits, or by any number of them in braces. -/
def readHex? (width : Nat) : List Char → Option (Atom × List Char)
  | '{' :: rest =>
    let digits := rest.takeWhile (· != '}')
    match rest.drop digits.length with
    | '}' :: rest => (charOfHex? digits).map fun c => (.char c, rest)
    | _ => none
  | text =>
    if text.length < width then none
    else (charOfHex? (text.take width)).map fun c => (.char c, text.drop width)

/-- A character of the name of a special word boundary. -/
def isBoundaryLetter (c : Char) : Bool := c.isAlpha || c == '-'

/-- A word boundary, after its escape: the plain one, or one with a name in braces. Braces that do
not start with a letter belong to a repetition. -/
def readBoundary? (text : List Char) : Option (Atom × List Char) :=
  match text with
  | ['{'] => none
  | '{' :: c :: rest =>
    if !isBoundaryLetter c then some (.anchor .wordBoundary, text)
    else
      let name := (c :: rest).takeWhile isBoundaryLetter
      match (c :: rest).drop name.length with
      | '}' :: rest =>
        match String.ofList name with
        | "start" => some (.anchor .wordStart, rest)
        | "end" => some (.anchor .wordEnd, rest)
        | "start-half" => some (.anchor .wordStartHalf, rest)
        | "end-half" => some (.anchor .wordEndHalf, rest)
        | _ => none
      | _ => none
  | _ => some (.anchor .wordBoundary, text)

/-- A character that stands for itself after a backslash. -/
def isEscapable (c : Char) : Bool :=
  c.toNat < 0x80 && !c.isAlphanum && c != '<' && c != '>'

/-- Read what follows a backslash. -/
def readEscape? : List Char → Option (Atom × List Char)
  | [] => none
  | c :: rest =>
    match c with
    | 'x' => readHex? 2 rest
    | 'u' => readHex? 4 rest
    | 'U' => readHex? 8 rest
    | 'd' => some (.set .digit, rest)
    | 'D' => some (.set (.compl .digit), rest)
    | 's' => some (.set .blank, rest)
    | 'S' => some (.set (.compl .blank), rest)
    | 'w' => some (.set .word, rest)
    | 'W' => some (.set (.compl .word), rest)
    | 'a' => some (.char '\x07', rest)
    | 'f' => some (.char '\x0c', rest)
    | 't' => some (.char '\t', rest)
    | 'n' => some (.char '\n', rest)
    | 'r' => some (.char '\r', rest)
    | 'v' => some (.char '\x0b', rest)
    | 'A' => some (.anchor .textStart, rest)
    | 'z' => some (.anchor .textEnd, rest)
    | 'b' => readBoundary? rest
    | 'B' => some (.anchor .notWordBoundary, rest)
    | '<' => some (.anchor .wordStart, rest)
    | '>' => some (.anchor .wordEnd, rest)
    | c => if isEscapable c then some (.char c, rest) else none

/-! ## Nesting -/

/-- How deep parts are nested that stand side by side: one part stands for itself, and several are
one level deeper than the deepest of them. -/
def depthOf : List Nat → Nat
  | [] => 0
  | [depth] => depth
  | depths => depths.foldl max 0 + 1

/-! ## Bracketed sets -/

/-- How two sets inside brackets are combined. -/
inductive SetOp where
  | inter
  | diff
  | symmDiff
  deriving DecidableEq, Repr

/-- Combine two sets. -/
def SetOp.apply : SetOp → CharSet → CharSet → CharSet
  | .inter => .inter
  | .diff => .diff
  | .symmDiff => .symmDiff

/-- A set that a pattern writes, with how deep it is nested there. -/
structure WrittenSet where
  chars : CharSet
  depth : Nat := 0
  deriving Repr

/-- A set in brackets that is being read. -/
structure OpenSet where
  negated : Bool
  /-- a combination that waits for its second set -/
  pending : Option (SetOp × WrittenSet) := none
  items : CharSet := .none
  /-- how deep each of the items is nested -/
  depths : List Nat := []
  deriving Repr

/-- Close a set under case, unless case counts. -/
def foldCase (caseless : Bool) (s : CharSet) : CharSet := if caseless then .folded s else s

namespace OpenSet

/-- Add an item to a set. -/
def add (o : OpenSet) (s : WrittenSet) : OpenSet :=
  { o with items := .union o.items s.chars, depths := s.depth :: o.depths }

/-- The set read so far, with the combination that was waiting. -/
def combined (caseless : Bool) (o : OpenSet) : WrittenSet :=
  let depth := depthOf o.depths
  match o.pending with
  | none => ⟨o.items, depth⟩
  | some (op, left) =>
    ⟨op.apply (foldCase caseless left.chars) (foldCase caseless o.items), max left.depth depth + 1⟩

/-- Let what was read so far wait for a second set. -/
def combine (caseless : Bool) (op : SetOp) (o : OpenSet) : OpenSet :=
  { o with pending := some (op, o.combined caseless), items := .none, depths := [] }

/-- The set that the brackets stand for. -/
def close (caseless : Bool) (o : OpenSet) : WrittenSet :=
  let inner := o.combined caseless
  let s := foldCase caseless inner.chars
  ⟨if o.negated then .compl s else s, inner.depth + 1⟩

/-- Open a set after its bracket. Dashes at the start stand for themselves, and so does a closing
bracket. -/
def start (text : List Char) : OpenSet × List Char :=
  let negated := text.head? == some '^'
  let text := if negated then text.drop 1 else text
  let dashes := text.takeWhile (· == '-')
  let text := text.drop dashes.length
  if !dashes.isEmpty then
    ({ negated, items := .single '-', depths := dashes.map fun _ => 0 }, text)
  else
    match text with
    | ']' :: rest => ({ negated, items := .single ']', depths := [0] }, rest)
    | _ => ({ negated }, text)

end OpenSet

/-- A class with a name, such as `[:digit:]`, after its bracket. What a negated class leaves out is
closed under case. -/
def readNamed? (caseless : Bool) (text : List Char) : Option (CharSet × List Char) :=
  match text with
  | ':' :: rest =>
    let negated := rest.head? == some '^'
    let rest := if negated then rest.drop 1 else rest
    let name := rest.takeWhile (· != ':')
    match rest.drop name.length with
    | ':' :: ']' :: rest =>
      (CharSet.named? (String.ofList name)).map fun s =>
        let s := foldCase caseless s
        (if negated then .compl s else s, rest)
    | _ => none
  | _ => none

/-- One character, or an escape. -/
def readAtom? : List Char → Option (Atom × List Char)
  | [] => none
  | '\\' :: rest => readEscape? rest
  | c :: rest => some (.char c, rest)

/-- One item of a set: a character, a range or a class. -/
def readItem? (text : List Char) : Option (CharSet × List Char) :=
  match readAtom? text with
  | none | some (.anchor _, _) => none
  | some (.set s, rest) =>
    match rest with
    | '-' :: c :: _ => if c == ']' || c == '-' then some (s, rest) else none
    | _ => some (s, rest)
  | some (.char low, rest) =>
    match rest with
    | '-' :: c :: more =>
      if c == ']' || c == '-' then some (.single low, rest)
      else
        match readAtom? (c :: more) with
        | some (.char high, rest) => if low ≤ high then some (.range low high, rest) else none
        | _ => none
    | _ => some (.single low, rest)

/-- Read a set in brackets to its end. `outer` holds the sets around it, and each round takes at
least one character. -/
def readSetFrom? (caseless : Bool) (fuel : Nat) (outer : List OpenSet) (o : OpenSet)
    (text : List Char) : Option (WrittenSet × List Char) :=
  match fuel with
  | 0 => none
  | fuel + 1 =>
    match text with
    | [] => none
    | '[' :: rest =>
      match readNamed? caseless rest with
      | some (s, rest) => readSetFrom? caseless fuel outer (o.add ⟨s, 0⟩) rest
      | none =>
        let (inner, rest) := OpenSet.start rest
        readSetFrom? caseless fuel (o :: outer) inner rest
    | ']' :: rest =>
      let s := o.close caseless
      match outer with
      | [] => some (s, rest)
      | o :: outer => readSetFrom? caseless fuel outer (o.add s) rest
    | '&' :: '&' :: rest => readSetFrom? caseless fuel outer (o.combine caseless .inter) rest
    | '-' :: '-' :: rest => readSetFrom? caseless fuel outer (o.combine caseless .diff) rest
    | '~' :: '~' :: rest => readSetFrom? caseless fuel outer (o.combine caseless .symmDiff) rest
    | _ =>
      match readItem? text with
      | some (s, rest) => readSetFrom? caseless fuel outer (o.add ⟨s, 0⟩) rest
      | none => none

/-- Read a set in brackets, after the first bracket. -/
def readSet? (caseless : Bool) (text : List Char) : Option (WrittenSet × List Char) :=
  let (o, rest) := OpenSet.start text
  readSetFrom? caseless (rest.length + 1) [] o rest

end Softcode.Pattern
