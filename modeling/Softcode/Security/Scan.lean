import Softcode.Context
import Softcode.Security.Rule

/-!
# Security scan

The rules of a catalogue that apply to the dialect, and then rules for secrets written into a
script, which apply everywhere.
-/

namespace Softcode.Security

/-- A rule for a secret in quotes: a name, an equals sign or a colon, and a text that is not empty.
-/
def secretRule (id name recommendation description : String) : SecurityRule where
  id
  pattern := "\\b" ++ name ++ "\\s*[=:]\\s*\"[^\"\\r\\n]+\""
  risk := .medium
  category := "sensitive_data"
  recommendation
  description := some description

/-- Passwords in a script. -/
def passwordRule : SecurityRule :=
  secretRule "SENSITIVE-PASSWORD" "password"
    "Keep passwords out of softcode; store them on a locked, wizard-only attribute"
    "Hardcoded password"

/-- Secrets in a script. -/
def secretsRule : SecurityRule :=
  secretRule "SENSITIVE-SECRET" "secret"
    "Move secrets to a protected attribute and read them with get()"
    "Hardcoded secret"

/-- Keys of services in a script. -/
def apiKeyRule : SecurityRule :=
  secretRule "SENSITIVE-API-KEY" "api[_-]?key"
    "Never embed API keys in script text; configure them server-side"
    "Hardcoded API key"

/-- The rules for secrets, in the order in which they are matched. -/
def sensitiveRules : List SecurityRule := [passwordRule, secretsRule, apiKeyRule]

/-- The rules that apply to a dialect; without a dialect all of them do. -/
def applicable (dialect : Option Dialect) (rules : List SecurityRule) : List SecurityRule :=
  rules.filter fun rule => dialect.all rule.appliesTo

/-- All security findings in a script, rule by rule. -/
def scan (read : Pattern.Reader) (c : Context) (rules : List SecurityRule) :
    List SecurityFinding :=
  let index := Text.LineIndex.build c.text
  (applicable c.dialect rules ++ sensitiveRules).flatMap fun rule =>
    rule.findings read index c.totalLines

end Softcode.Security
