import Softcode.Finding
import Softcode.Json.Basic
import Softcode.Record.Source

/-!
# Findings as records

Names of levels, risks, codes, aspects and efforts, the JSON form of findings and results, and how
they are read back.
-/

namespace Softcode

/-- The name of a level in a record. -/
def Level.name : Level → String
  | .info => "info"
  | .warning => "warning"
  | .error => "error"

/-- The name of a risk in a record. -/
def Risk.name : Risk → String
  | .low => "low"
  | .medium => "medium"
  | .high => "high"
  | .critical => "critical"

/-- The name of a code. -/
def Code.name : Code → String
  | .invalidCharacter => "INVALID_CHARACTER"
  | .unmatchedClosingBracket => "UNMATCHED_CLOSING_BRACKET"
  | .mismatchedBracket => "MISMATCHED_BRACKET"
  | .unclosedBracket => "UNCLOSED_BRACKET"
  | .unterminatedString => "UNTERMINATED_STRING"
  | .spaceAfterParen => "SPACE_AFTER_PAREN"
  | .deprecatedFunction => "DEPRECATED_FUNCTION"
  | .unknownFunction => "UNKNOWN_FUNCTION"
  | .invalidAttributeName => "INVALID_ATTRIBUTE_NAME"
  | .attributeNameTooLong => "ATTRIBUTE_NAME_TOO_LONG"
  | .variableOutOfRange => "VARIABLE_OUT_OF_RANGE"
  | .invalidVariableReference => "INVALID_VARIABLE_REFERENCE"
  | .trailingSemicolon => "TRAILING_SEMICOLON"
  | .commandNameTooLong => "COMMAND_NAME_TOO_LONG"
  | .lineTooLong => "LINE_TOO_LONG"
  | .unbalancedBrackets => "UNBALANCED_BRACKETS"
  | .excessiveNesting => "EXCESSIVE_NESTING"

/-- The name of an aspect. -/
def Aspect.name : Aspect → String
  | .readability => "readability"
  | .performance => "performance"
  | .maintainability => "maintainability"
  | .security => "security"
  | .bestPractice => "best_practice"

/-- The name of an effort. -/
def Effort.name : Effort → String
  | .low => "low"
  | .medium => "medium"
  | .high => "high"

/-- All levels. -/
def Level.all : List Level := [.info, .warning, .error]

/-- All risks. -/
def Risk.all : List Risk := [.low, .medium, .high, .critical]

/-- All codes. -/
def Code.all : List Code :=
  [.invalidCharacter, .unmatchedClosingBracket, .mismatchedBracket, .unclosedBracket,
    .unterminatedString, .spaceAfterParen, .deprecatedFunction, .unknownFunction,
    .invalidAttributeName, .attributeNameTooLong, .variableOutOfRange, .invalidVariableReference,
    .trailingSemicolon, .commandNameTooLong, .lineTooLong, .unbalancedBrackets, .excessiveNesting]

/-- All aspects. -/
def Aspect.all : List Aspect :=
  [.readability, .performance, .maintainability, .security, .bestPractice]

/-- All efforts. -/
def Effort.all : List Effort := [.low, .medium, .high]

/-! ## JSON forms -/

/-- The JSON form of a syntax finding. -/
def SyntaxFinding.toJson (f : SyntaxFinding) : Json :=
  .object [("line", .natural f.line), ("column", .natural f.column),
    ("severity", .text f.level.name), ("code", .text f.code.name), ("message", .text f.message),
    ("suggestion", .text f.suggestion), ("fixable", .flag f.fixable)]

/-- The JSON form of a security finding. -/
def SecurityFinding.toJson (f : SecurityFinding) : Json :=
  .object [("line", .natural f.line), ("column", .natural f.column), ("ruleId", .text f.ruleId),
    ("category", .text f.category), ("severity", .text f.risk.name), ("message", .text f.message),
    ("mitigation", .text f.mitigation), ("snippet", .text f.snippet),
    ("references", .texts f.references), ("fixable", .flag f.fixable)]

/-- The JSON form of an improvement. -/
def Improvement.toJson (f : Improvement) : Json :=
  .object [("line", .natural f.line), ("column", .natural f.column), ("type", .text f.aspect.name),
    ("category", .text f.category), ("severity", .text f.level.name), ("message", .text f.message),
    ("before", .text f.before), ("after", .text f.after), ("confidence", .real f.confidence),
    ("effort", .text f.effort.name), ("fixable", .flag f.fixable)]

/-- The JSON form of a result. -/
def AnalysisResult.toJson (r : AnalysisResult) : Json :=
  .object [("isValid", .flag r.isValid),
    ("syntaxFindings", .list (r.syntaxFindings.map SyntaxFinding.toJson)),
    ("securityFindings", .list (r.securityFindings.map SecurityFinding.toJson)),
    ("improvements", .list (r.improvements.map Improvement.toJson)),
    ("compatibilityNotes", .texts r.compatibilityNotes), ("totalLines", .natural r.totalLines),
    ("complexityScore", .natural r.scores.complexity),
    ("securityScore", .natural r.scores.security),
    ("maintainabilityScore", .natural r.scores.maintainability)]

/-! ## Reading -/

section

variable {ν : Type} [Source ν]

/-- Read one of several choices by its name. -/
def Source.oneOf? {α : Type} (choices : List α) (name : α → String) (value : ν) : Option α := do
  let found ← Source.choice? value
  choices.find? (name · == found)

/-- Read a level. -/
def Level.read? (value : ν) : Option Level := Source.oneOf? Level.all Level.name value

/-- Read a risk. -/
def Risk.read? (value : ν) : Option Risk := Source.oneOf? Risk.all Risk.name value

/-- Read a code. -/
def Code.read? (value : ν) : Option Code := Source.oneOf? Code.all Code.name value

/-- Read an aspect. -/
def Aspect.read? (value : ν) : Option Aspect := Source.oneOf? Aspect.all Aspect.name value

/-- Read an effort. -/
def Effort.read? (value : ν) : Option Effort := Source.oneOf? Effort.all Effort.name value

/-- Read a syntax finding. -/
def SyntaxFinding.read? (value : ν) : Option SyntaxFinding := do
  let members ← Source.record?
    ["line", "column", "severity", "code", "message", "suggestion", "fixable"] value
  return {
    line := ← Source.field? members "line" Source.natural?
    column := ← Source.field? members "column" Source.natural?
    level := ← Source.field? members "severity" Level.read?
    code := ← Source.field? members "code" Code.read?
    message := ← Source.field? members "message" Source.text?
    suggestion := ← Source.field? members "suggestion" Source.text?
    fixable := ← Source.field? members "fixable" Source.flag? }

/-- Read a security finding. -/
def SecurityFinding.read? (value : ν) : Option SecurityFinding := do
  let members ← Source.record?
    ["line", "column", "ruleId", "category", "severity", "message", "mitigation", "snippet",
      "references", "fixable"] value
  return {
    line := ← Source.field? members "line" Source.natural?
    column := ← Source.field? members "column" Source.natural?
    ruleId := ← Source.field? members "ruleId" Source.text?
    category := ← Source.field? members "category" Source.text?
    risk := ← Source.field? members "severity" Risk.read?
    message := ← Source.field? members "message" Source.text?
    mitigation := ← Source.field? members "mitigation" Source.text?
    snippet := ← Source.field? members "snippet" Source.text?
    references := ← Source.fieldOr? members "references" [] (Source.listOf? Source.text?)
    fixable := ← Source.field? members "fixable" Source.flag? }

/-- Read an improvement. -/
def Improvement.read? (value : ν) : Option Improvement := do
  let members ← Source.record?
    ["line", "column", "type", "category", "severity", "message", "before", "after", "confidence",
      "effort", "fixable"] value
  return {
    line := ← Source.field? members "line" Source.natural?
    column := ← Source.field? members "column" Source.natural?
    aspect := ← Source.field? members "type" Aspect.read?
    category := ← Source.field? members "category" Source.text?
    level := ← Source.field? members "severity" Level.read?
    message := ← Source.field? members "message" Source.text?
    before := ← Source.field? members "before" Source.text?
    after := ← Source.field? members "after" Source.text?
    confidence := ← Source.field? members "confidence" Source.real?
    effort := ← Source.field? members "effort" Effort.read?
    fixable := ← Source.field? members "fixable" Source.flag? }

/-- Read a result. -/
def AnalysisResult.read? (value : ν) : Option AnalysisResult := do
  let members ← Source.record?
    ["isValid", "syntaxFindings", "securityFindings", "improvements", "compatibilityNotes",
      "totalLines", "complexityScore", "securityScore", "maintainabilityScore"] value
  return {
    isValid := ← Source.field? members "isValid" Source.flag?
    syntaxFindings :=
      ← Source.field? members "syntaxFindings" (Source.listOf? SyntaxFinding.read?)
    securityFindings :=
      ← Source.field? members "securityFindings" (Source.listOf? SecurityFinding.read?)
    improvements := ← Source.field? members "improvements" (Source.listOf? Improvement.read?)
    compatibilityNotes :=
      ← Source.field? members "compatibilityNotes" (Source.listOf? Source.text?)
    totalLines := ← Source.field? members "totalLines" Source.natural?
    scores := {
      complexity := ← Source.field? members "complexityScore" Source.natural?
      security := ← Source.field? members "securityScore" Source.natural?
      maintainability := ← Source.field? members "maintainabilityScore" Source.natural? } }

end

end Softcode
