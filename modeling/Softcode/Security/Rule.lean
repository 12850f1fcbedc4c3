import Softcode.Catalogue.Basic
import Softcode.Pattern.Search

/-!
# Matches of security rules

A rule is matched against the whole text, so a match may run across lines. Every non-empty match is
a finding, at the place where the match starts. A rule whose pattern cannot be read matches nothing;
how patterns are read is a parameter.
-/

namespace Softcode.SecurityRule

/-- What the rule looks for, if its pattern can be read. -/
def pattern? (rule : SecurityRule) (read : Pattern.Reader) : Option Pattern :=
  read rule.pattern.toList

/-- What a finding of the rule says. -/
def message (rule : SecurityRule) : String :=
  rule.description.getD s!"Matched security rule {rule.id}"

/-- A line with its neighbours, as far as there are any. -/
def snippet (index : Text.LineIndex) (line lastLine : Nat) : List Char :=
  let first := max (line - 1) 1
  let last := min (line + 1) lastLine
  let numbers := List.range' first (last + 1 - first)
  ['\n'].intercalate (numbers.map index.line)

/-- The finding for a match that starts at a byte offset. No line comes after `lastLine`. -/
def finding (rule : SecurityRule) (index : Text.LineIndex) (lastLine offset : Nat) :
    SecurityFinding :=
  let (line, column) := index.locate offset
  let line := min line lastLine
  { line
    column
    ruleId := rule.id
    category := rule.category
    risk := rule.risk
    message := rule.message
    mitigation := rule.recommendation
    snippet := String.ofList (snippet index line lastLine)
    references := rule.references
    fixable := false }

/-- The findings of a rule in a text with this number of lines, from left to right. -/
def findings (rule : SecurityRule) (read : Pattern.Reader) (index : Text.LineIndex)
    (totalLines : Nat) : List SecurityFinding :=
  match rule.pattern? read with
  | none => []
  | some pattern =>
    (pattern.spans index.text).map fun span => rule.finding index (max totalLines 1) span.start

end Softcode.SecurityRule
