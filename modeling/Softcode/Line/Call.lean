import Softcode.Line.Bracket

/-!
# Function calls and commands

A call is a name directly before a structural `(`; a command is a name directly after a structural
`@` at the start of an action. Both are found by one pass that keeps the glyphs already passed,
nearest first.
-/

namespace Softcode

/-- A function call on a line. -/
structure Call where
  name : String
  /-- column of the first character of the name -/
  column : Nat
  /-- index of the `(` among the glyphs -/
  openIndex : Nat
  /-- a space follows the `(` directly -/
  spaced : Bool
  deriving DecidableEq, Repr

/-- A character before which a name is not the name of a function. -/
def bindsName (c : Char) : Bool :=
  Text.isWordChar c || c == '@' || c == '&' || c == '%' || c == '#' || c == '$' || c == '\\'

/-- The call whose `(` stands after the glyphs `past` (nearest first) and before `rest`. -/
def callAt? (past rest : List Glyph) : Option Call :=
  let word := past.takeWhile Glyph.isCodeWord
  match word.getLast? with
  | none => none
  | some first =>
    if !Text.isWordStart first.char then none
    else if (past.drop word.length).head?.any (bindsName ·.char) then none
    else some {
      name := String.ofList (Line.chars word.reverse)
      column := past.length - word.length + 1
      openIndex := past.length
      spaced := rest.head?.any (·.char == ' ') }

namespace Line

/-- The calls among glyphs that follow `past` (nearest first). -/
def callsFrom (past : List Glyph) : List Glyph → List Call
  | [] => []
  | g :: rest =>
    let more := callsFrom (g :: past) rest
    if g.isCodeChar '(' then (callAt? past rest).toList ++ more else more

/-- The function calls of a line, from left to right. -/
def calls (gs : List Glyph) : List Call := callsFrom [] gs

end Line

/-- A command on a line. -/
structure Command where
  /-- the name without its `@` -/
  name : String
  /-- column of the `@` -/
  column : Nat
  deriving DecidableEq, Repr

/-- A character after which an action starts. -/
def startsAction (c : Char) : Bool := c == ';' || c == '{' || c == ':' || Text.isBlank c

/-- The command whose `@` stands at `column`, after the character `before` and before `rest`. -/
def commandAt? (column : Nat) (before : Option Char) (rest : List Glyph) : Option Command :=
  let word := rest.takeWhile Glyph.isCodeWord
  if before.all startsAction && !word.isEmpty then
    some ⟨String.ofList (Line.chars word), column⟩
  else none

namespace Line

/-- The commands among glyphs that start at `column`, after the character `before`. -/
def commandsFrom (column : Nat) (before : Option Char) : List Glyph → List Command
  | [] => []
  | g :: rest =>
    let more := commandsFrom (column + 1) (some g.char) rest
    if g.isCodeChar '@' then (commandAt? column before rest).toList ++ more else more

/-- The commands of a line, from left to right. -/
def commands (gs : List Glyph) : List Command := commandsFrom 1 none gs

end Line

end Softcode
