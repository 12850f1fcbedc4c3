import Softcode.Line.Glyph

/-!
# Substitutions

A structural `%` starts a substitution: `%12` is a positional argument, `%q0` a register of one
letter or digit, `%q<name>` a named register. Every other `%x` is a pair that refers to no variable
and is passed over whole. A substitution lies inside one run of structural characters.
-/

namespace Softcode

/-- What a substitution refers to. -/
inductive Reference where
  /-- the argument with this number; a number too large for a 64-bit word counts as the largest -/
  | positional (index : Nat)
  /-- a register named by one letter or digit, in lower case -/
  | short (register : Char)
  /-- a register with a name; `closed` says whether the `>` is there -/
  | named (name : String) (closed : Bool)
  deriving DecidableEq, Repr

/-- A substitution that refers to a variable. -/
structure Substitution where
  /-- column of the `%` -/
  column : Nat
  reference : Reference
  deriving DecidableEq, Repr

namespace Line

/-- A structural character that does not end the name of a register. -/
def inRegisterName (g : Glyph) : Bool := g.isCode && g.char != '>'

/-- The variable that follows a `%`, with the number of glyphs it takes after the `%`. The first
component is missing for a pair that refers to no variable. -/
def referenceAt : List Glyph → Option Reference × Nat
  | [] => (none, 0)
  | g :: rest =>
    if !g.isCode then (none, 0)
    else if g.char.isDigit then
      let digits := (g :: rest).takeWhile Glyph.isCodeDigit
      (some (.positional (min (Text.decimalValue (chars digits)) Text.wordMax)), digits.length)
    else if g.char == 'q' || g.char == 'Q' then
      match rest with
      | [] => (none, 1)
      | h :: more =>
        if h.isCodeChar '<' then
          let name := more.takeWhile inRegisterName
          let closed := (more.drop name.length).head?.any (·.isCodeChar '>')
          (some (.named (String.ofList (chars name)) closed),
            name.length + if closed then 3 else 2)
        else if h.isCode && h.char.isAlphanum then (some (.short h.char.toLower), 2)
        else (none, 1)
    else (none, 1)

/-- The substitutions among glyphs that start at `column`; the first `skip` glyphs belong to a
reference already read. -/
def substitutionsFrom (column skip : Nat) : List Glyph → List Substitution
  | [] => []
  | g :: rest =>
    match skip with
    | n + 1 => substitutionsFrom (column + 1) n rest
    | 0 =>
      if g.isCodeChar '%' then
        let found := referenceAt rest
        (found.1.map fun r => ⟨column, r⟩).toList ++ substitutionsFrom (column + 1) found.2 rest
      else substitutionsFrom (column + 1) 0 rest

/-- The substitutions of a line, from left to right. -/
def substitutions (gs : List Glyph) : List Substitution := substitutionsFrom 1 0 gs

end Line

end Softcode
