import Softcode.Text.Digits
import Softcode.Yaml.Cursor

/-!
# Scalars

The five ways to write a text in YAML: plain, in single or double quotes, and as a literal or folded
block. Inside a plain or quoted scalar a line break and the blanks around it become one space, and
further breaks stay.
-/

namespace Softcode.Yaml

/-! ## Gaps -/

/-- Blanks and line breaks between two pieces of a plain or quoted scalar. -/
structure Gap where
  /-- blanks before the first break -/
  blanks : List Char := []
  /-- there is a break -/
  broken : Bool := false
  /-- the first break; missing if it was escaped -/
  first : Option Char := none
  /-- the breaks after the first -/
  more : List Char := []
  deriving Repr

namespace Gap

/-- Add a blank. Blanks after a break do not count. -/
def addBlank (g : Gap) (c : Char) : Gap :=
  if g.broken then g else { g with blanks := g.blanks ++ [c] }

/-- Add a line break. -/
def addBreak (g : Gap) (c : Char) : Gap :=
  if g.broken then { g with more := g.more ++ [c] } else { broken := true, first := some c }

/-- The gap is there. -/
def isOpen (g : Gap) : Bool := g.broken || !g.blanks.isEmpty

/-- What the gap stands for. -/
def text (g : Gap) : List Char :=
  if !g.broken then g.blanks
  else if g.first == some '\n' then if g.more.isEmpty then [' '] else g.more
  else g.first.toList ++ g.more

end Gap

/-! ## Plain scalars -/

/-- A character that ends a plain scalar inside brackets. -/
def isFlowMark (c : Char) : Bool := c == ',' || c == '[' || c == ']' || c == '{' || c == '}'

/-- Read on in a plain scalar. `out` holds its characters, the last first, and `gap` what came after
them. The result also says whether the scalar was followed by a line break. -/
def plainFrom? (flow : Bool) (indent : Nat) (gap : Gap) (out : List Char) (p : Cursor) :
    Nat → Option (List Char × Cursor × Bool)
  | 0 => none
  | fuel + 1 =>
    let done := some (out.reverse, p, gap.broken)
    match p.rest with
    | [] => done
    | c :: rest =>
      if isSpace c then
        if gap.broken && p.column < indent && c == '\t' then none
        else plainFrom? flow indent (gap.addBlank c) out p.next fuel
      else if isBreak c then plainFrom? flow indent (gap.addBreak c) out p.next fuel
      else if gap.isOpen && (c == '#' || p.atDocumentMark || (!flow && p.column < indent)) then done
      else if flow && c == ':' && rest.head?.any fun d => isFlowMark d || d == '?' then none
      else if (c == ':' && separates rest.head?) || (flow && isFlowMark c) then done
      else plainFrom? flow indent {} (c :: (gap.text.reverse ++ out)) p.next fuel

/-! ## Quoted scalars -/

/-- Number of digits of a numeric escape. -/
def escapeWidth? : Char → Option Nat
  | 'x' => some 2
  | 'u' => some 4
  | 'U' => some 8
  | _ => none

/-- The character that a letter stands for after a backslash. -/
def escapeChar? : Char → Option Char
  | '0' => some '\x00'
  | 'a' => some '\x07'
  | 'b' => some '\x08'
  | 't' | '\t' => some '\t'
  | 'n' => some '\n'
  | 'v' => some '\x0b'
  | 'f' => some '\x0c'
  | 'r' => some '\r'
  | 'e' => some '\x1b'
  | ' ' => some ' '
  | '"' => some '"'
  | '/' => some '/'
  | '\\' => some '\\'
  | 'N' => some '\u0085'
  | '_' => some '\u00a0'
  | 'L' => some '\u2028'
  | 'P' => some '\u2029'
  | _ => none

/-- What an escape stands for, and how many characters it takes after the backslash. -/
def escape? : List Char → Option (Char × Nat)
  | [] => none
  | c :: rest =>
    match escapeWidth? c with
    | none => (escapeChar? c).map fun e => (e, 1)
    | some width =>
      if rest.length < width then none
      else
        ((Text.hexValue? (rest.take width)).bind Text.charOf?).map fun e => (e, width + 1)

/-- Read on in a quoted scalar, after its quote. -/
def quotedFrom? (double : Bool) (gap : Gap) (out : List Char) (p : Cursor) :
    Nat → Option (List Char × Cursor)
  | 0 => none
  | fuel + 1 =>
    if p.atDocumentMark then none
    else
      match p.rest with
      | [] => none
      | c :: rest =>
        let shown := gap.text.reverse ++ out
        if isSpace c then quotedFrom? double (gap.addBlank c) out p.next fuel
        else if isBreak c then quotedFrom? double (gap.addBreak c) out p.next fuel
        else if double && c == '\\' then
          if rest.head?.any isBreak then
            quotedFrom? double { broken := true } shown p.next.next fuel
          else
            match escape? rest with
            | some (e, width) => quotedFrom? double {} (e :: shown) (p.skip (width + 1)) fuel
            | none => none
        else if !double && c == '\'' && rest.head? == some '\'' then
          quotedFrom? double {} ('\'' :: shown) (p.skip 2) fuel
        else if c == (if double then '"' else '\'') then some (shown.reverse, p.next)
        else quotedFrom? double {} (c :: shown) p.next fuel

/-! ## Blocks -/

/-- What happens to the breaks at the end of a block. -/
inductive Chomping where
  /-- none stays -/
  | strip
  /-- one stays -/
  | clip
  /-- all stay -/
  | keep
  deriving DecidableEq, Repr

/-- The chomping that a sign asks for. -/
def Chomping.ofSign? : Char → Option Chomping
  | '-' => some .strip
  | '+' => some .keep
  | _ => none

/-- The head of a block, after its mark: chomping and indentation, in either order. -/
def blockHead? (p : Cursor) : Option (Chomping × Option Nat × Cursor) :=
  let sign (p : Cursor) : Option Chomping × Cursor :=
    match p.peek?.bind Chomping.ofSign? with
    | some chomping => (some chomping, p.next)
    | none => (none, p)
  let digit (p : Cursor) : Option Nat × Cursor :=
    if p.peek?.any Char.isDigit then (p.peek?.bind Text.hexDigit?, p.next) else (none, p)
  let (first, p) := sign p
  let (increment, p) := digit p
  let (second, p) := if first.isNone && increment.isSome then sign p else (none, p)
  if increment == some 0 then none
  else some ((first.or second).getD .clip, increment, p)

/-- Skip the indentation of a block and its empty lines. An `indent` of zero is not known yet: it
becomes the greatest that is found, but at least `least`. -/
def blockBreaks? (indent least deepest : Nat) (breaks : List Char) (p : Cursor) :
    Nat → Option (Nat × List Char × Cursor)
  | 0 => none
  | fuel + 1 =>
    let inside := indent == 0 || p.column < indent
    let settled := if indent == 0 then max (max deepest p.column) (max least 1) else indent
    match p.peek? with
    | none => some (settled, breaks, p)
    | some c =>
      if inside && c == ' ' then blockBreaks? indent least deepest breaks p.next fuel
      else if inside && c == '\t' then none
      else if isBreak c then
        blockBreaks? indent least (max deepest p.column) (breaks ++ [c]) p.next fuel
      else some (settled, breaks, p)

/-- Read the lines of a block. `out` holds its characters, the last first; `lead` is the break after
the last line, `trail` the breaks after that, and `blank` says that the last line starts with a
blank. -/
def blockLines? (literal : Bool) (chomping : Chomping) (indent : Nat) (out : List Char)
    (lead : Option Char) (trail : List Char) (blank : Bool) (p : Cursor) :
    Nat → Option (List Char × Cursor)
  | 0 => none
  | fuel + 1 =>
    if p.column == indent && !p.rest.isEmpty then
      let blank' := p.peek?.any isSpace
      let joined :=
        if !literal && lead == some '\n' && !blank && !blank' then
          if trail.isEmpty then [' '] else []
        else lead.toList
      let line := p.rest.takeWhile fun c => !isBreak c
      let out := line.reverse ++ (trail.reverse ++ (joined ++ out))
      let p := p.skip line.length
      match blockBreaks? indent 0 0 [] p.next (p.rest.length + 1) with
      | none => none
      | some (_, trail, q) =>
        blockLines? literal chomping indent out p.peek? trail blank' q fuel
    else
      let kept := match chomping with
        | .strip => []
        | .clip => lead.toList
        | .keep => lead.toList ++ trail
      some (out.reverse ++ kept, p)

/-- Read a block, after its mark. `parent` is the indentation of what the block belongs to. -/
def block? (literal : Bool) (parent : Option Nat) (p : Cursor) : Option (List Char × Cursor) := do
  let (chomping, increment, p) ← blockHead? p
  let p := p.skipWhile isSpace
  let p := if p.peek? == some '#' then p.skipLine else p
  if !p.peek?.all isBreak then none
  else
    let p := p.next
    let least := match parent with
      | some n => n + 1
      | none => 0
    let known := match increment with
      | some n => parent.getD 0 + n
      | none => 0
    let fuel := p.rest.length + 1
    let (indent, breaks, p) ← blockBreaks? known least 0 [] p fuel
    blockLines? literal chomping indent [] none breaks false p fuel

end Softcode.Yaml
