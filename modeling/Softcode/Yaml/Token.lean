import Softcode.Yaml.Scalar

/-!
# Tokens

A YAML text as a list of tokens. Indentation shows as tokens that open and close block collections.
A scalar turns out to be a key only when its colon is met; the token that says so is then put in
front of it, and so is the token that opens a block mapping if the key starts one. Such a key has to
stand on one line with its colon.
-/

namespace Softcode.Yaml

/-- A token. -/
inductive Token where
  | directive
  | documentStart
  | documentEnd
  | blockSequence
  | blockMapping
  | blockEnd
  | flowSequence
  | flowSequenceEnd
  | flowMapping
  | flowMappingEnd
  | blockEntry
  | flowEntry
  | key
  | value
  | anchor (name : List Char)
  | alias (name : List Char)
  | tag
  | scalar (plain : Bool) (text : List Char)
  deriving DecidableEq, Repr

/-- A token that may turn out to be a key. -/
structure Candidate where
  /-- number of tokens in front of it -/
  index : Nat
  line : Nat
  column : Nat
  /-- nothing else can stand here -/
  required : Bool
  deriving Repr

/-- What has been read of a text. -/
structure Scan where
  cursor : Cursor
  /-- the tokens, the last first -/
  tokens : List Token := []
  /-- columns of the open block collections, innermost first -/
  indents : List Nat := []
  /-- candidates for keys of the open flow collections, innermost first, and of the block around
  them -/
  candidates : List (Option Candidate) := [none]
  /-- a key may start here -/
  keyAllowed : Bool := true
  deriving Repr

namespace Scan

/-- Inside a flow collection. -/
def inFlow (s : Scan) : Bool := 1 < s.candidates.length

/-- Add a token. -/
def push (s : Scan) (t : Token) : Scan := { s with tokens := t :: s.tokens }

/-- Put tokens in front of the token with this index, the last first. -/
def insertAt (s : Scan) (index : Nat) (ts : List Token) : Scan :=
  let later := s.tokens.length - index
  { s with tokens := s.tokens.take later ++ ts ++ s.tokens.drop later }

/-- Close the block collections that are indented deeper than a column; all of them without one. -/
def unroll (s : Scan) (column : Option Nat) : Scan :=
  if s.inFlow then s
  else
    let deeper := s.indents.takeWhile fun n => column.all (· < n)
    { s with
      indents := s.indents.drop deeper.length
      tokens := List.replicate deeper.length .blockEnd ++ s.tokens }

/-- Whether a block collection starts at a column. -/
def rolls (s : Scan) (column : Nat) : Bool := !s.inFlow && s.indents.head?.all (· < column)

/-- Open a block collection at a column, if that is deeper than the current one. -/
def roll (s : Scan) (column : Nat) (t : Token) : Scan :=
  if s.rolls column then { s with indents := column :: s.indents, tokens := t :: s.tokens } else s

/-- Give up the current candidate, which must not be required. -/
def dropCandidate? (s : Scan) : Option Scan :=
  match s.candidates with
  | some c :: outer => if c.required then none else some { s with candidates := none :: outer }
  | _ => some s

/-- Make the next token a candidate, if a key may start here. -/
def addCandidate? (s : Scan) : Option Scan :=
  if !s.keyAllowed then some s
  else
    match s.dropCandidate? with
    | none => none
    | some s =>
      let candidate : Candidate :=
        { index := s.tokens.length, line := s.cursor.line, column := s.cursor.column,
          required := !s.inFlow && s.indents.head? == some s.cursor.column }
      some { s with candidates := some candidate :: s.candidates.drop 1 }

/-- Give up the candidates of earlier lines; none of them must be required. -/
def dropStale? (s : Scan) : Option Scan :=
  let stale (c : Candidate) : Bool := c.line < s.cursor.line
  if s.candidates.any fun c => c.any fun c => stale c && c.required then none
  else some { s with candidates := s.candidates.map fun c => c.filter fun c => !stale c }

/-- Move to the next token, past blanks, comments and line breaks. -/
def skipBlanks (s : Scan) : Nat → Scan
  | 0 => s
  | fuel + 1 =>
    match s.cursor.peek? with
    | none => s
    | some c =>
      if c == ' ' || (c == '\t' && (s.inFlow || !s.keyAllowed)) then
        skipBlanks { s with cursor := s.cursor.next } fuel
      else if c == '#' then skipBlanks { s with cursor := s.cursor.skipLine } fuel
      else if isBreak c then
        skipBlanks { s with cursor := s.cursor.next, keyAllowed := s.keyAllowed || !s.inFlow } fuel
      else s

/-- Move past characters of the line. -/
def skip (s : Scan) (n : Nat) : Scan := { s with cursor := s.cursor.skip n }

/-! ## One token -/

/-- The start or the end of a document. -/
def document? (s : Scan) (t : Token) : Option Scan := do
  let s ← (s.unroll none).dropCandidate?
  return ({ s with keyAllowed := false }.skip 3).push t

/-- The start of a flow collection. -/
def openFlow? (s : Scan) (t : Token) : Option Scan := do
  let s ← s.addCandidate?
  return ({ s with candidates := none :: s.candidates, keyAllowed := true }.skip 1).push t

/-- The end of a flow collection. -/
def closeFlow? (s : Scan) (t : Token) : Option Scan := do
  let s ← s.dropCandidate?
  let candidates := if s.inFlow then s.candidates.drop 1 else s.candidates
  return ({ s with candidates, keyAllowed := false }.skip 1).push t

/-- The comma between items of a flow collection. -/
def flowEntry? (s : Scan) : Option Scan := do
  let s ← s.dropCandidate?
  return ({ s with keyAllowed := true }.skip 1).push .flowEntry

/-- The dash before an item of a block sequence. -/
def blockEntry? (s : Scan) : Option Scan := do
  if !s.inFlow && !s.keyAllowed then none
  else
    let s ← (s.roll s.cursor.column .blockSequence).dropCandidate?
    return ({ s with keyAllowed := true }.skip 1).push .blockEntry

/-- The mark before a key. -/
def key? (s : Scan) : Option Scan := do
  if !s.inFlow && !s.keyAllowed then none
  else
    let s ← (s.roll s.cursor.column .blockMapping).dropCandidate?
    return ({ s with keyAllowed := !s.inFlow }.skip 1).push .key

/-- The colon before a value. -/
def value? (s : Scan) : Option Scan :=
  match s.candidates with
  | some c :: outer =>
    let rolled := s.rolls c.column
    let s := s.insertAt c.index (.key :: if rolled then [.blockMapping] else [])
    let indents := if rolled then c.column :: s.indents else s.indents
    some (({ s with indents, candidates := none :: outer, keyAllowed := false }.skip 1).push .value)
  | _ =>
    if !s.inFlow && !s.keyAllowed then none
    else
      let s := s.roll s.cursor.column .blockMapping
      some (({ s with keyAllowed := !s.inFlow }.skip 1).push .value)

/-- A character of the name of an anchor. -/
def isNameChar (c : Char) : Bool := c.isAlphanum || c == '_' || c == '-'

/-- An anchor or an alias. -/
def reference? (s : Scan) (t : List Char → Token) : Option Scan := do
  let s ← s.addCandidate?
  let name := (s.cursor.rest.drop 1).takeWhile isNameChar
  let s := { s with keyAllowed := false }.skip (name.length + 1)
  let ended := separates s.cursor.peek? || s.cursor.peek?.any ("?:,]\x7d%@\x60".toList.contains ·)
  if name.isEmpty || !ended then none else some (s.push (t name))

/-- A tag. Tags do not change what a node means here. -/
def tag? (s : Scan) : Option Scan := do
  let s ← s.addCandidate?
  let text := s.cursor.rest.takeWhile fun c =>
    !separates (some c) && !(s.inFlow && isFlowMark c)
  return ({ s with keyAllowed := false }.skip text.length).push .tag

/-- A literal or folded block. -/
def block? (s : Scan) (literal : Bool) : Option Scan := do
  let s ← s.dropCandidate?
  let (text, cursor) ← Yaml.block? literal s.indents.head? s.cursor.next
  return { s with cursor, keyAllowed := true }.push (.scalar false text)

/-- A quoted scalar. -/
def quoted? (s : Scan) (double : Bool) : Option Scan := do
  let s ← s.addCandidate?
  let p := s.cursor.next
  let (text, cursor) ← quotedFrom? double {} [] p (p.rest.length + 1)
  return { s with cursor, keyAllowed := false }.push (.scalar false text)

/-- A plain scalar. -/
def plain? (s : Scan) : Option Scan := do
  let s ← s.addCandidate?
  let indent := match s.indents with
    | [] => 0
    | n :: _ => n + 1
  let (text, cursor, broken) ←
    plainFrom? s.inFlow indent {} [] s.cursor (s.cursor.rest.length + 1)
  return { s with cursor, keyAllowed := broken }.push (.scalar true text)

/-- A directive, which takes the rest of its line. -/
def directive? (s : Scan) : Option Scan := do
  let name := (s.cursor.rest.drop 1).takeWhile fun c => !separates (some c)
  if name != "YAML".toList && name != "TAG".toList then none
  else
    let s ← (s.unroll none).dropCandidate?
    return { s with keyAllowed := false, cursor := s.cursor.skipLine }.push .directive

/-- The character cannot start a plain scalar. -/
def isIndicator (c : Char) : Bool := "-?:,[]\x7b\x7d#&*!|>'\"%@\x60".toList.contains c

/-- Read the next token, which starts with the character `c`. -/
def token? (s : Scan) (c : Char) : Option Scan :=
  let alone := separates s.cursor.second?
  if s.cursor.column == 0 && c == '%' then s.directive?
  else if s.cursor.atMark '-' then s.document? .documentStart
  else if s.cursor.atMark '.' then s.document? .documentEnd
  else
    match c with
    | '[' => s.openFlow? .flowSequence
    | '{' => s.openFlow? .flowMapping
    | ']' => s.closeFlow? .flowSequenceEnd
    | '}' => s.closeFlow? .flowMappingEnd
    | ',' => s.flowEntry?
    | '-' => if alone then s.blockEntry? else s.plain?
    | '?' => if s.inFlow || alone then s.key? else s.plain?
    | ':' => if s.inFlow || alone then s.value? else s.plain?
    | '*' => s.reference? .alias
    | '&' => s.reference? .anchor
    | '!' => s.tag?
    | '|' => if s.inFlow then none else s.block? true
    | '>' => if s.inFlow then none else s.block? false
    | '\'' => s.quoted? false
    | '"' => s.quoted? true
    | c => if separates (some c) || isIndicator c then none else s.plain?

/-- Read all tokens; each round takes at least one character. -/
def all? (s : Scan) : Nat → Option (List Token)
  | 0 => none
  | fuel + 1 => do
    let s ← (s.skipBlanks (s.cursor.rest.length + 1)).dropStale?
    match s.cursor.peek? with
    | none =>
      let s ← (s.unroll none).dropCandidate?
      return s.tokens.reverse
    | some c =>
      let s ← (s.unroll (some s.cursor.column)).token? c
      all? s fuel

end Scan

/-- The tokens of a text. A byte order mark at its start does not count. -/
def tokens? (text : List Char) : Option (List Token) :=
  let text := dropMark text
  if text.all isAllowed then
    let rest := uniformBreaks text
    Scan.all? { cursor := { rest } } (rest.length + 1)
  else none
where
  /-- Drop a byte order mark. -/
  dropMark : List Char → List Char
    | '\ufeff' :: rest => rest
    | text => text

end Softcode.Yaml
