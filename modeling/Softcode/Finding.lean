/-!
# Findings and results

The records an analysis hands out. They are plain data: a report can be built from them whether they
come from an analysis or from elsewhere.
-/

namespace Softcode

/-- How bad a defect or a piece of advice is. -/
inductive Level where
  | info
  | warning
  | error
  deriving DecidableEq, Repr, Inhabited

/-- How dangerous a security finding is. -/
inductive Risk where
  | low
  | medium
  | high
  | critical
  deriving DecidableEq, Repr, Inhabited

namespace Risk

/-- Risks in ascending order. -/
def rank : Risk → Nat
  | .low => 0
  | .medium => 1
  | .high => 2
  | .critical => 3

/-- The greater of two risks. -/
def max (a b : Risk) : Risk := if a.rank < b.rank then b else a

end Risk

/-- Stable codes of syntax findings. -/
inductive Code where
  | invalidCharacter
  | unmatchedClosingBracket
  | mismatchedBracket
  | unclosedBracket
  | unterminatedString
  | spaceAfterParen
  | deprecatedFunction
  | unknownFunction
  | invalidAttributeName
  | attributeNameTooLong
  | variableOutOfRange
  | invalidVariableReference
  | trailingSemicolon
  | commandNameTooLong
  | lineTooLong
  | unbalancedBrackets
  | excessiveNesting
  deriving DecidableEq, Repr, Inhabited

/-- What a piece of advice improves. -/
inductive Aspect where
  | readability
  | performance
  | maintainability
  | security
  | bestPractice
  deriving DecidableEq, Repr, Inhabited

/-- How much work it is to follow a piece of advice. -/
inductive Effort where
  | low
  | medium
  | high
  deriving DecidableEq, Repr, Inhabited

/-- A defect of the syntax, or a note on it. -/
structure SyntaxFinding where
  line : Nat
  column : Nat
  level : Level
  code : Code
  message : String
  suggestion : String
  fixable : Bool
  deriving DecidableEq, Repr, Inhabited

/-- A match of a security rule. -/
structure SecurityFinding where
  line : Nat
  column : Nat
  ruleId : String
  category : String
  risk : Risk
  message : String
  mitigation : String
  /-- the matched line with one line of context on either side -/
  snippet : String
  references : List String
  fixable : Bool
  deriving DecidableEq, Repr, Inhabited

/-- A piece of advice on good practice. -/
structure Improvement where
  line : Nat
  column : Nat
  aspect : Aspect
  category : String
  level : Level
  message : String
  before : String
  after : String
  /-- between zero and one -/
  confidence : Float
  effort : Effort
  fixable : Bool
  deriving Repr, Inhabited

/-- The three quality scores, each from 0 to 100. -/
structure Scores where
  complexity : Nat
  security : Nat
  maintainability : Nat
  deriving DecidableEq, Repr, Inhabited

/-- All that an analysis finds out about a script. -/
structure AnalysisResult where
  isValid : Bool
  syntaxFindings : List SyntaxFinding
  securityFindings : List SecurityFinding
  improvements : List Improvement
  compatibilityNotes : List String
  totalLines : Nat
  scores : Scores
  deriving Repr, Inhabited

namespace AnalysisResult

/-- Number of syntax findings at error level. -/
def errorCount (r : AnalysisResult) : Nat := r.syntaxFindings.countP (·.level == .error)

/-- Number of syntax findings at warning level. -/
def warningCount (r : AnalysisResult) : Nat := r.syntaxFindings.countP (·.level == .warning)

/-- The greatest risk among the security findings. -/
def highestRisk? (r : AnalysisResult) : Option Risk :=
  match r.securityFindings.map (·.risk) with
  | [] => none
  | risk :: more => some (more.foldl Risk.max risk)

end AnalysisResult

end Softcode
