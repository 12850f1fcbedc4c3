import Softcode.Report.Basic

/-!
# Reports for code scanning

A report as a log in the Static Analysis Results Interchange Format. Every finding is a result, file
by file and family by family; every code that a result names is declared once, where it first
occurs.
-/

namespace Softcode.Sarif

/-- How a log grades results. -/
inductive Grade where
  | error
  | warning
  | note
  deriving DecidableEq, Repr

/-- The name of a grade. -/
def Grade.name : Grade → String
  | .error => "error"
  | .warning => "warning"
  | .note => "note"

/-- The grade of a level. -/
def Grade.ofLevel : Level → Grade
  | .error => .error
  | .warning => .warning
  | .info => .note

/-- The grade of a risk. -/
def Grade.ofRisk : Risk → Grade
  | .critical | .high => .error
  | .medium => .warning
  | .low => .note

/-- The declaration of a code. -/
structure Rule where
  id : String
  name : String
  description : String
  grade : Grade
  deriving DecidableEq, Repr

/-- One finding. -/
structure Result where
  ruleId : String
  grade : Grade
  text : String
  uri : String
  line : Nat
  column : Nat
  deriving DecidableEq, Repr

/-- A log: declarations and results. -/
structure Log where
  rules : List Rule
  results : List Result
  deriving DecidableEq, Repr

/-- A finding with the declaration of its code. -/
structure Item where
  rule : Rule
  result : Result
  deriving DecidableEq, Repr

/-- A syntax finding in the file at `uri`. -/
def ofSyntax (uri : String) (f : SyntaxFinding) : Item :=
  let id := f.code.name
  let name := String.ofList (id.toList.map fun c => if c == '_' then '-' else c.toLower)
  let grade := Grade.ofLevel f.level
  { rule := { id, name, description := id, grade }
    result := { ruleId := id, grade, text := s!"{f.message} ({f.suggestion})", uri, line := f.line,
                column := f.column } }

/-- A security finding in the file at `uri`. -/
def ofSecurity (uri : String) (f : SecurityFinding) : Item :=
  let grade := Grade.ofRisk f.risk
  { rule := { id := f.ruleId, name := f.category, description := f.message, grade }
    result := { ruleId := f.ruleId, grade, text := s!"{f.message}. {f.mitigation}", uri,
                line := f.line, column := f.column } }

/-- An improvement in the file at `uri`. -/
def ofImprovement (uri : String) (f : Improvement) : Item :=
  let id := s!"practice/{f.category}"
  let grade := Grade.ofLevel f.level
  { rule := { id, name := f.category, description := f.aspect.name, grade }
    result := { ruleId := id, grade, text := f.message, uri, line := f.line, column := f.column } }

/-- A path as a reference to a resource. -/
def uriOf (path : Path) : String :=
  String.ofList (path.spelling.toList.map fun c => if c == '\\' then '/' else c)

/-- The findings of one file. -/
def fileItems (f : FileReport) : List Item :=
  match f.result with
  | none => []
  | some r =>
    let uri := uriOf f.path
    r.syntaxFindings.map (ofSyntax uri) ++ r.securityFindings.map (ofSecurity uri)
      ++ r.improvements.map (ofImprovement uri)

/-- The rules whose codes are not among those seen and did not come before. -/
def firstRules (seen : List String) : List Rule → List Rule
  | [] => []
  | rule :: rest =>
    if seen.contains rule.id then firstRules seen rest
    else rule :: firstRules (rule.id :: seen) rest

/-- The log of a report. -/
def log (r : Report) : Log :=
  let items := r.results.flatMap fileItems
  { rules := firstRules [] (items.map Item.rule), results := items.map Item.result }

/-! ## The written log -/

/-- A text in an object of its own. -/
def message (text : String) : Json := .object [("text", .text text)]

/-- The JSON form of a declaration. -/
def Rule.toJson (rule : Rule) : Json :=
  .object [("id", .text rule.id), ("name", .text rule.name),
    ("shortDescription", message rule.description),
    ("defaultConfiguration", .object [("level", .text rule.grade.name)])]

/-- The JSON form of a result. Lines and columns count from one. -/
def Result.toJson (result : Result) : Json :=
  let region : Json := .object
    [("startLine", .natural (max result.line 1)), ("startColumn", .natural (max result.column 1))]
  .object [("ruleId", .text result.ruleId), ("level", .text result.grade.name),
    ("message", message result.text),
    ("locations", .list [.object [("physicalLocation", .object
      [("artifactLocation", .object [("uri", .text result.uri)]), ("region", region)])]])]

/-- The name of the tool. -/
def toolName : String := "mushcheck"

/-- The version of the tool. -/
def toolVersion : String := "0.3.0"

/-- The JSON form of a log. -/
def Log.toJson (log : Log) : Json :=
  let tool : Json := .object [("name", .text toolName), ("version", .text toolVersion),
    ("informationUri", .text "https://github.com/hyperpolymath/mushcheck"),
    ("rules", .list (log.rules.map Rule.toJson))]
  .object [
    ("$schema", .text ("https://raw.githubusercontent.com/oasis-tcs/sarif-spec/main/sarif-2.1/" ++
      "schema/sarif-schema-2.1.0.json")),
    ("version", .text "2.1.0"),
    ("runs", .list [.object [("tool", .object [("driver", tool)]),
      ("results", .list (log.results.map Result.toJson))]])]

end Softcode.Sarif
