import Softcode.Context
import Softcode.Line.Call
import Softcode.Line.Substitution
import Softcode.Syntax.Defect

/-!
# Checks of one line

Each check takes a line, or its glyphs, and returns the flaws it finds in the order in which they
are reported. `flaws` runs all of them.
-/

namespace Softcode.LineCheck

/-- Control characters other than the tab. -/
def charactersFrom (column : Nat) : List Glyph → List Flaw
  | [] => []
  | g :: rest =>
    let more := charactersFrom (column + 1) rest
    if Text.isControl g.char && g.char != '\t' then
      ⟨column, .invalidCharacter g.char⟩ :: more
    else more

/-- Control characters do not belong in a script. -/
def characters (gs : List Glyph) : List Flaw := charactersFrom 1 gs

/-- An opener and its column. -/
abbrev Opener := Bracket × Nat

/-- Close the nearest opener of a kind on a stack, innermost first. Openers of other kinds above it
are given up; if there are any, or if there is no opener of the kind, that is a flaw. -/
def closeBracket (kind : Bracket) (column : Nat) (stack : List Opener) :
    List Flaw × List Opener :=
  match stack, stack.dropWhile (·.1 != kind) with
  | _, [] => ([⟨column, .unmatchedCloser kind⟩], stack)
  | [], _ :: below => ([], below)
  | (top, topColumn) :: _, _ :: below =>
    if top == kind then ([], below)
    else ([⟨column, .mismatchedCloser kind top topColumn⟩], below)

/-- Match brackets from `column` on, with the given openers open. -/
def bracketsFrom (column : Nat) (stack : List Opener) : List Glyph → List Flaw
  | [] => stack.reverse.map fun opener => ⟨opener.2, .unclosedOpener opener.1⟩
  | g :: rest =>
    match g.opens with
    | some kind => bracketsFrom (column + 1) ((kind, column) :: stack) rest
    | none =>
      match g.closes with
      | some kind =>
        let closed := closeBracket kind column stack
        closed.1 ++ bracketsFrom (column + 1) closed.2 rest
      | none => bracketsFrom (column + 1) stack rest

/-- Brackets have to nest within the line. -/
def brackets (gs : List Glyph) : List Flaw := bracketsFrom 1 [] gs

/-- A literal has to end on its line. -/
def string (gs : List Glyph) : List Flaw :=
  ((Line.unterminatedLiteral gs).map fun column => ⟨column, .unterminatedString⟩).toList

/-- What a dialect has to say about a call. -/
def catalogued (dialect : Dialect) (strict : Bool) (call : Call) : List Flaw :=
  match dialect.function? call.name with
  | some function =>
    if function.deprecated then
      [⟨call.column, .deprecatedFunction call.name dialect.name function.replacement⟩]
    else []
  | none =>
    if strict && !dialect.functions.isEmpty then
      [⟨call.column, .unknownFunction call.name dialect.name⟩]
    else []

/-- Calls have no space after the parenthesis and name functions that the dialect has. -/
def calls (dialect : Option Dialect) (strict : Bool) (gs : List Glyph) : List Flaw :=
  (Line.calls gs).flatMap fun call =>
    (if call.spaced then [⟨call.openIndex + 2, .spaceAfterParen call.name⟩] else [])
      ++ (dialect.toList.flatMap fun d => catalogued d strict call)

/-- A character that does not end the name of an attribute. -/
def inAttributeName (c : Char) : Bool := !Text.isBlank c && c != '='

/-- A line that sets an attribute gives it a proper name. -/
def attributeName (limit : Nat) (line : List Char) : List Flaw :=
  match Text.trimStart line with
  | '&' :: rest =>
    let name := rest.takeWhile inAttributeName
    let column := line.length - (rest.length + 1) + 2
    if name.isEmpty then []
    else
      (if Text.isIdentifier name then []
        else [⟨column, .invalidAttributeName (String.ofList name)⟩])
        ++ (if limit < name.length then [⟨column, .attributeNameTooLong name.length limit⟩] else [])
  | _ => []

/-- What is wrong with one substitution. -/
def reference (limit : Nat) (sub : Substitution) : List Flaw :=
  match sub.reference with
  | .positional index =>
    if limit < index then [⟨sub.column, .variableOutOfRange index limit⟩] else []
  | .named name closed =>
    if !closed || !Text.isIdentifier name.toList then [⟨sub.column, .invalidRegister name⟩] else []
  | .short _ => []

/-- Positional arguments stay in range and registers have names. -/
def references (limit : Nat) (gs : List Glyph) : List Flaw :=
  (Line.substitutions gs).flatMap (reference limit)

/-- Column of the last glyph that is not blank, if that is a structural semicolon. -/
def trailingSemicolon? (gs : List Glyph) : Option Nat :=
  let shown := (gs.reverse.dropWhile (Text.isBlank ·.char)).reverse
  if shown.getLast?.any (·.isCodeChar ';') then some shown.length else none

/-- A line that starts with a command: the length of its name, and a semicolon at the end. -/
def command (limit : Nat) (gs : List Glyph) : List Flaw :=
  let leading := gs.takeWhile (Text.isBlank ·.char)
  if (gs.drop leading.length).head?.any (·.char == '@') then
    match (Line.commands gs).find? (·.column == leading.length + 1) with
    | none => []
    | some found =>
      let length := found.name.length
      (if limit < length then [⟨found.column, .commandNameTooLong found.name length limit⟩] else [])
        ++ ((trailingSemicolon? gs).map fun column => ⟨column, .trailingSemicolon⟩).toList
  else []

/-- A line is not too long. -/
def length (limit : Nat) (line : List Char) : List Flaw :=
  if line.length ≤ limit then [] else [⟨limit + 1, .lineTooLong line.length limit⟩]

/-- All flaws of a line. Its length is checked only in strict mode. -/
def flaws (c : Context) (line : List Char) : List Flaw :=
  let gs := Line.glyphs line
  characters gs ++ brackets gs ++ string gs ++ calls c.dialect c.options.strictMode gs
    ++ attributeName c.settings.maxAttributeNameLength line
    ++ references c.settings.maxVariableIndex gs
    ++ command c.settings.maxCommandNameLength gs
    ++ (if c.options.strictMode then length c.settings.maxLineLength line else [])

end Softcode.LineCheck
