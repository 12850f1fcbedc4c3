import Softcode.Files.Path
import Softcode.Finding.Record

/-!
# Reports

The outcome of a run over many files: for each file a result, or the reason why there is none, and
counts over all of them.
-/

namespace Softcode

/-- The outcome for one file. -/
structure FileReport where
  path : Path
  /-- why the file was not analysed -/
  error : Option String := none
  result : Option AnalysisResult := none
  deriving Repr, Inhabited

namespace FileReport

/-- Number of syntax errors in the file. -/
def errorCount (f : FileReport) : Nat := (f.result.map AnalysisResult.errorCount).getD 0

/-- The file was analysed and has no syntax error. -/
def isValid (f : FileReport) : Bool := f.result.any AnalysisResult.isValid

/-- The JSON form of the outcome for one file. -/
def toJson (f : FileReport) : Json :=
  .object (("path", .text f.path.spelling) :: Json.member? "error" (f.error.map .text)
    ++ Json.member? "result" (f.result.map AnalysisResult.toJson))

end FileReport

/-- The outcome of a run. -/
structure Report where
  filesAnalyzed : Nat := 0
  validFiles : Nat := 0
  invalidFiles : Nat := 0
  /-- files that could not be read or were rejected -/
  failedFiles : Nat := 0
  totalSyntaxErrors : Nat := 0
  totalSecurityFindings : Nat := 0
  results : List FileReport := []
  deriving Repr, Inhabited

namespace Report

/-- Some file is invalid or failed. -/
def hasFailures (r : Report) : Bool := 0 < r.invalidFiles || 0 < r.failedFiles

/-- The JSON form of a report. -/
def toJson (r : Report) : Json :=
  .object [("files_analyzed", .natural r.filesAnalyzed), ("valid_files", .natural r.validFiles),
    ("invalid_files", .natural r.invalidFiles), ("failed_files", .natural r.failedFiles),
    ("total_syntax_errors", .natural r.totalSyntaxErrors),
    ("total_security_findings", .natural r.totalSecurityFindings),
    ("results", .list (r.results.map FileReport.toJson))]

/-- Count the outcomes of files. -/
def ofResults (results : List FileReport) : Report :=
  let failed := results.countP (·.error.isSome)
  let valid := results.countP FileReport.isValid
  let analysed := results.filterMap FileReport.result
  { filesAnalyzed := results.length - failed
    validFiles := valid
    invalidFiles := results.length - failed - valid
    failedFiles := failed
    totalSyntaxErrors := (analysed.flatMap (·.syntaxFindings)).countP (·.level == .error)
    totalSecurityFindings := (analysed.flatMap (·.securityFindings)).length
    results }

end Report

end Softcode
