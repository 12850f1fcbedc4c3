import Softcode.Decimal.Shortest
import Softcode.Report.Basic
import Softcode.Report.Ink

/-!
# Reports as text

The report a person reads: every file with its findings, and a line of totals. The summary is a
table with one row a file.
-/

namespace Softcode

/-- A level as it is shown. -/
def Level.label (level : Level) : String := level.name.toUpper

/-- The colour of a level. -/
def Level.hue : Level → Hue
  | .error => .red
  | .warning => .yellow
  | .info => .blue

/-- A risk as it is shown. -/
def Risk.label (risk : Risk) : String := risk.name.toUpper

/-- The colour of a risk. -/
def Risk.hue : Risk → Hue
  | .critical => .red
  | .high => .yellow
  | .medium => .blue
  | .low => .green

namespace Report

/-- The colour of a score where more is better. -/
def scoreHue (score : Nat) : Hue :=
  if 80 ≤ score then .green else if 50 ≤ score then .yellow else .red

/-- Lines, each with a line feed. -/
def unlines (lines : List String) : String := String.join (lines.map (· ++ "\n"))

section

variable (colours : Bool)

/-- A heading and what stands below it; nothing if that is empty. -/
def block (title : String) (hue : Hue) (lines : List String) : List String :=
  if lines.isEmpty then []
  else
    let head := Ink.paint colours (Ink.heading hue) title
    s!"  {head}" :: lines

/-- The lines of a syntax finding. -/
def syntaxLines (f : SyntaxFinding) : List String :=
  let level := Ink.paint colours (Ink.ofHue f.level.hue) f.level.label
  let code := Ink.paint colours Ink.strong f.code.name
  let suggestion := Ink.paint colours Ink.faint f.suggestion
  [s!"    {f.line}:{f.column} [{level}] {code} {f.message}", s!"      {suggestion}"]

/-- The lines of a security finding. -/
def securityLines (f : SecurityFinding) : List String :=
  let risk := Ink.paint colours (Ink.ofHue f.risk.hue) f.risk.label
  let rule := Ink.paint colours Ink.strong f.ruleId
  let mitigation := Ink.paint colours Ink.faint f.mitigation
  [s!"    {f.line}:{f.column} [{risk}] {rule} {f.message}", s!"      Mitigation: {mitigation}"]

/-- The line of an improvement. -/
def improvementLine (f : Improvement) : String :=
  let confidence := String.ofList (Decimal.hundredths f.confidence)
  s!"    {f.line}:{f.column} {f.aspect.name}/{f.category} {f.message} (confidence {confidence})"

/-- A score in its colour. -/
def scoreText (score : Nat) : String :=
  Ink.paint colours (Ink.ofHue (scoreHue score)) (toString score)

/-- The lines of a result. -/
def resultLines (r : AnalysisResult) : List String :=
  let status :=
    if r.isValid then Ink.paint colours (Ink.ofHue .green) "VALID"
    else Ink.paint colours (Ink.ofHue .red) "INVALID"
  let counts := s!"lines: {r.totalLines}  errors: {r.errorCount}  warnings: {r.warningCount}"
  let security := scoreText colours r.scores.security
  let maintainability := scoreText colours r.scores.maintainability
  let scores := s!"complexity: {r.scores.complexity}  security: {security}"
  let notes := r.compatibilityNotes.map fun note => s!"    - {note}"
  [s!"  {status}  {counts}  {scores}  maintainability: {maintainability}"]
    ++ block colours "SYNTAX" .yellow (r.syntaxFindings.flatMap (syntaxLines colours))
    ++ block colours "SECURITY" .red (r.securityFindings.flatMap (securityLines colours))
    ++ block colours "IMPROVEMENTS" .blue (r.improvements.map improvementLine)
    ++ block colours "COMPATIBILITY" .magenta notes

/-- The lines of a file. -/
def fileLines (f : FileReport) : List String :=
  Ink.paint colours Ink.strong f.path.spelling ::
    match f.error, f.result with
    | some error, _ =>
      let failed := Ink.paint colours (Ink.heading .red) "FAILED"
      [s!"  {failed} {error}"]
    | none, some result => resultLines colours result
    | none, none => []

/-- A report as text. -/
def text (r : Report) : String :=
  let total := Ink.paint colours (Ink.heading .yellow) "TOTAL"
  unlines (["", Ink.paint colours (Ink.heading .cyan) "=== MUSHCHECK REPORT ===", ""]
    ++ (r.results.flatMap fun f => fileLines colours f ++ [""])
    ++ [s!"{total} {r.filesAnalyzed} analyzed, {r.validFiles} valid, {r.invalidFiles} invalid, " ++
        s!"{r.failedFiles} failed"])

/-! ## The summary -/

/-- A text filled up with spaces on its left. -/
def rightAligned (width : Nat) (s : String) : String :=
  String.ofList (Text.padLeft width ' ' s.toList)

/-- A row of the table: a name and five columns. -/
def row (name : String) (columns : List String) : String :=
  let name := String.ofList (Text.padRight 48 ' ' name.toList)
  "  " ++ " ".intercalate (name :: columns.map (rightAligned 6))

/-- The row of a file. -/
def fileRow (f : FileReport) : Option String :=
  match f.error, f.result with
  | some error, _ =>
    let label := Ink.paint colours (Ink.ofHue .red) "ERROR"
    some (row f.path.spelling [] ++ s!" {label}: {error}")
  | none, some r =>
    some (row f.path.spelling
      ([r.errorCount, r.securityFindings.length, r.scores.complexity, r.scores.security,
        r.scores.maintainability].map toString))
  | none, none => none

/-- The table of a report. -/
def summary (r : Report) : String :=
  let valid := Ink.paint colours (Ink.ofHue .green) (toString r.validFiles)
  let invalid := Ink.paint colours (Ink.ofHue .red) (toString r.invalidFiles)
  unlines (["", Ink.paint colours (Ink.heading .cyan) "=== MUSHCHECK SUMMARY ===",
      s!"Files analyzed: {r.filesAnalyzed}  |  Valid: {valid}  |  Invalid: {invalid}  |  " ++
        s!"Failed: {r.failedFiles}",
      s!"Syntax errors: {r.totalSyntaxErrors}  |  Security findings: {r.totalSecurityFindings}",
      ""]
    ++ if r.results.isEmpty then ["  No script files found."]
      else
        [row "File" ["Errors", "Sec", "Cplx", "Secu", "Maint"],
          "  " ++ String.ofList (List.replicate 84 '-')]
          ++ r.results.filterMap (fileRow colours) ++ [""])

end

end Report

end Softcode
