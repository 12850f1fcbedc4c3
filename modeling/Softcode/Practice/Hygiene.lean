import Softcode.Line.Substitution
import Softcode.Practice.Advice
import Softcode.Practice.Marker

/-!
# Security hygiene: user input in forced commands

A line that forces a command and refers to a positional argument should pass the argument through a
sanitizer. The tip wraps every positional reference of the line.
-/

namespace Softcode.Practice

/-- The characters of glyphs with every positional reference wrapped; the first `skip` glyphs belong
to a reference already written. -/
def securedFrom (skip : Nat) : List Glyph → List Char
  | [] => []
  | g :: rest =>
    match skip with
    | n + 1 => securedFrom n rest
    | 0 =>
      let digits := rest.takeWhile Glyph.isCodeDigit
      if g.isCodeChar '%' && !digits.isEmpty then
        "[secure(%".toList ++ Line.chars digits ++ ")]".toList ++ securedFrom digits.length rest
      else g.char :: securedFrom 0 rest

/-- The line with every positional reference wrapped in a call that makes it harmless. -/
def secured (gs : List Glyph) : List Char := securedFrom 0 gs

/-- The line refers to a positional argument. -/
def usesPositional (gs : List Glyph) : Bool :=
  (Line.substitutions gs).any fun sub =>
    match sub.reference with
    | .positional _ => true
    | _ => false

/-- The line calls a sanitizer. -/
def isSanitized (gs : List Glyph) : Bool :=
  (Line.calls gs).any fun call => isOneOf call.name sanitizers

/-- A tip on a line that forces a command with user input as it is. -/
def hygiene (line : List Char) : Option Tip :=
  let gs := Line.glyphs line
  match firstColumn? forceFunctions forceCommands gs with
  | none => none
  | some column =>
    if usesPositional gs && !isSanitized gs then
      some { column, advice := .unsanitizedInput, before := line, after := secured gs }
    else none

end Softcode.Practice
