import Softcode.Finding
import Softcode.Line.Bracket
import Softcode.Text.Digits

/-!
# Defects

A defect is the cause of a syntax finding. Its code, its level, its wording and whether it can be
fixed mechanically follow from the cause alone, so every code has one level.
-/

namespace Softcode

/-- What is wrong with a piece of syntax. -/
inductive Defect where
  | invalidCharacter (char : Char)
  | unmatchedCloser (kind : Bracket)
  /-- a closer meets another kind of bracket that is still open -/
  | mismatchedCloser (kind top : Bracket) (topColumn : Nat)
  | unclosedOpener (kind : Bracket)
  | unterminatedString
  | spaceAfterParen (name : String)
  | deprecatedFunction (name dialect : String) (replacement : Option String)
  | unknownFunction (name dialect : String)
  | invalidAttributeName (name : String)
  | attributeNameTooLong (length limit : Nat)
  | variableOutOfRange (index limit : Nat)
  | invalidRegister (name : String)
  | commandNameTooLong (name : String) (length limit : Nat)
  | trailingSemicolon
  | lineTooLong (length limit : Nat)
  | unbalanced (kind : Bracket) (count : Int)
  | excessiveNesting (depth limit : Nat)
  deriving DecidableEq, Repr

namespace Defect

/-- The stable code of a defect. -/
def code : Defect → Code
  | invalidCharacter _ => .invalidCharacter
  | unmatchedCloser _ => .unmatchedClosingBracket
  | mismatchedCloser _ _ _ => .mismatchedBracket
  | unclosedOpener _ => .unclosedBracket
  | unterminatedString => .unterminatedString
  | spaceAfterParen _ => .spaceAfterParen
  | deprecatedFunction _ _ _ => .deprecatedFunction
  | unknownFunction _ _ => .unknownFunction
  | invalidAttributeName _ => .invalidAttributeName
  | attributeNameTooLong _ _ => .attributeNameTooLong
  | variableOutOfRange _ _ => .variableOutOfRange
  | invalidRegister _ => .invalidVariableReference
  | commandNameTooLong _ _ _ => .commandNameTooLong
  | trailingSemicolon => .trailingSemicolon
  | lineTooLong _ _ => .lineTooLong
  | unbalanced _ _ => .unbalancedBrackets
  | excessiveNesting _ _ => .excessiveNesting

/-- The level of a defect. -/
def level : Defect → Level
  | invalidCharacter _ | unmatchedCloser _ | mismatchedCloser _ _ _ | unclosedOpener _
  | unterminatedString | invalidAttributeName _ | attributeNameTooLong _ _ | invalidRegister _
  | unbalanced _ _ => .error
  | spaceAfterParen _ | deprecatedFunction _ _ _ | unknownFunction _ _ | variableOutOfRange _ _
  | commandNameTooLong _ _ _ | lineTooLong _ _ | excessiveNesting _ _ => .warning
  | trailingSemicolon => .info

/-- What is wrong, in words. -/
def message : Defect → String
  | invalidCharacter c =>
    let digits := String.ofList (Text.hexUpper 4 c.toNat)
    s!"Invalid control character U+{digits}"
  | unmatchedCloser kind => s!"Unmatched closing '{kind.closeChar}'"
  | mismatchedCloser kind top column =>
    s!"Found '{kind.closeChar}' but '{top.openChar}' opened at column {column} is still open"
  | unclosedOpener kind => s!"Unclosed '{kind.openChar}'"
  | unterminatedString => "Unterminated string literal"
  | spaceAfterParen name => s!"Space after '(' in call to {name}()"
  | deprecatedFunction name dialect _ => s!"Function '{name}' is deprecated in {dialect}"
  | unknownFunction name dialect => s!"Function '{name}' is not in the {dialect} catalogue"
  | invalidAttributeName name => s!"Invalid attribute name '{name}'"
  | attributeNameTooLong length limit =>
    s!"Attribute name is {length} characters long (maximum {limit})"
  | variableOutOfRange index limit => s!"Variable reference %{index} is outside 0-{limit}"
  | invalidRegister name => s!"Invalid register reference %q<{name}"
  | commandNameTooLong name length limit =>
    s!"Command name '@{name}' is {length} characters long (maximum {limit})"
  | trailingSemicolon => "Trailing ';' adds an empty action"
  | lineTooLong length limit => s!"Line is {length} characters long (maximum {limit})"
  | unbalanced kind count => s!"{count} '{kind.openChar}' left open across the script"
  | excessiveNesting depth limit => s!"Nesting depth {depth} exceeds {limit}"

/-- What to do about it. -/
def suggestion : Defect → String
  | invalidCharacter _ => "Remove the control character"
  | unmatchedCloser kind => s!"Remove it or add a matching '{kind.openChar}' before it"
  | mismatchedCloser _ top _ => s!"Close '{top.openChar}' with '{top.closeChar}' first"
  | unclosedOpener kind => s!"Add a matching '{kind.closeChar}'"
  | unterminatedString => "Close the string with '\"' on the same line"
  | spaceAfterParen name => s!"Write {name}(arg, ...) without the leading space"
  | deprecatedFunction _ _ (some replacement) => s!"Use {replacement}() instead"
  | deprecatedFunction _ _ none => "Replace it with a supported alternative"
  | unknownFunction _ _ => "Check the spelling or the target dialect"
  | invalidAttributeName _ =>
    "Attribute names must start with a letter or '_' and contain only letters, digits and '_'"
  | attributeNameTooLong _ _ => "Shorten the attribute name"
  | variableOutOfRange _ _ => "Use a register or a named attribute instead"
  | invalidRegister _ => "Register names must be identifiers written as %q<name>"
  | commandNameTooLong _ _ _ => "Use a shorter command name"
  | trailingSemicolon => "Remove the trailing ';'"
  | lineTooLong _ _ => "Split the line or move logic into a separate attribute"
  | unbalanced kind count => s!"Add {count} matching '{kind.closeChar}'"
  | excessiveNesting _ _ =>
    "Move inner expressions into separate attributes and call them with u()"

/-- The defect can be mended without knowing what the script is for. -/
def fixable : Defect → Bool
  | invalidCharacter _ | spaceAfterParen _ | trailingSemicolon => true
  | deprecatedFunction _ _ replacement => replacement.isSome
  | _ => false

end Defect

/-- A defect at a column of some line. -/
structure Flaw where
  column : Nat
  defect : Defect
  deriving DecidableEq, Repr

/-- The finding that reports a flaw of the line with this number. -/
def Flaw.finding (line : Nat) (flaw : Flaw) : SyntaxFinding where
  line
  column := flaw.column
  level := flaw.defect.level
  code := flaw.defect.code
  message := flaw.defect.message
  suggestion := flaw.defect.suggestion
  fixable := flaw.defect.fixable

end Softcode
