import Softcode.Deprecation
import Softcode.Practice.Review
import Softcode.Request.Basic
import Softcode.Score
import Softcode.Security.Scan
import Softcode.Syntax.ScriptCheck

/-!
# Analysis of a request

A request is first checked: its text shows something and is not too long, and the dialect it names
is known. Then every pass runs that the options ask for. How the patterns of rules are read is a
parameter throughout.
-/

namespace Softcode

/-- The dialect that a request asks for. A blank identifier asks for none. -/
def Catalogue.requested (catalogue : Catalogue) (dialectId : Option String) :
    Except Failure (Option Dialect) :=
  match dialectId.map fun id => Text.trim id.toList with
  | none | some [] => .ok none
  | some id =>
    match catalogue.dialect? (String.ofList id) with
    | some dialect => .ok (some dialect)
    | none => .error (.unknownDialect (String.ofList id))

/-- The context in which a request is analysed. -/
def Request.context (r : Request) (catalogue : Catalogue) (settings : Settings) :
    Except Failure Context :=
  let text := r.text.toList
  if Text.isBlankText text then .error .emptyText
  else if settings.maxTextLength < text.length then
    .error (.textTooLong text.length settings.maxTextLength)
  else
    match catalogue.requested r.dialectId with
    | .error failure => .error failure
    | .ok dialect => .ok { text, dialect, options := r.options, settings }

/-- Run the passes on a context. -/
def Context.analyze (c : Context) (read : Pattern.Reader) (rules : List SecurityRule) :
    AnalysisResult :=
  let syntaxFindings := Syntax.findings c
  let securityFindings := if c.options.checkSecurity then Security.scan read c rules else []
  let improvements := if c.options.checkBestPractices then Practice.review c else []
  { isValid := !syntaxFindings.any (·.level == .error)
    syntaxFindings
    securityFindings
    improvements
    compatibilityNotes := Deprecation.notes c
    totalLines := c.totalLines
    scores := c.scores securityFindings improvements }

/-- Analyse a request. -/
def Request.analyze (r : Request) (read : Pattern.Reader) (catalogue : Catalogue)
    (settings : Settings) : Except Failure AnalysisResult :=
  match r.context catalogue settings with
  | .error failure => .error failure
  | .ok c => .ok (c.analyze read catalogue.rules)

end Softcode
