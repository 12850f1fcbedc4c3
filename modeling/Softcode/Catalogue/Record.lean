import Softcode.Catalogue.Basic
import Softcode.Finding.Record
import Softcode.Json.Basic
import Softcode.Record.Source

/-!
# Catalogues as records

The JSON form of dialects, rules and catalogues, and how they are read from any format. Lists may be
left out; so may the replacement of a function and the description of a rule.
-/

namespace Softcode

/-- The JSON form of a function. -/
def DialectFunction.toJson (f : DialectFunction) : Json :=
  .object ([("name", .text f.name), ("deprecated", .flag f.deprecated)]
    ++ Json.member? "replacement" (f.replacement.map .text))

/-- The JSON form of a dialect. -/
def Dialect.toJson (d : Dialect) : Json :=
  .object [("id", .text d.id), ("name", .text d.name),
    ("functions", .list (d.functions.map DialectFunction.toJson)), ("notes", .texts d.notes)]

/-- The JSON form of a rule. -/
def SecurityRule.toJson (r : SecurityRule) : Json :=
  .object ([("id", .text r.id), ("pattern", .text r.pattern), ("severity", .text r.risk.name),
      ("category", .text r.category), ("dialects", .texts r.dialects),
      ("recommendation", .text r.recommendation)]
    ++ Json.member? "description" (r.description.map .text)
    ++ [("references", .texts r.references)])

/-- The JSON form of a catalogue. -/
def Catalogue.toJson (c : Catalogue) : Json :=
  .object [("dialects", .list (c.dialects.map Dialect.toJson)),
    ("rules", .list (c.rules.map SecurityRule.toJson))]

variable {ν : Type} [Source ν]

/-- Read a list of texts. -/
def Source.texts? (value : ν) : Option (List String) := Source.listOf? Source.text? value

/-- Read a function. -/
def DialectFunction.read? (value : ν) : Option DialectFunction := do
  let members ← Source.record? ["name", "deprecated", "replacement"] value
  return {
    name := ← Source.field? members "name" Source.text?
    deprecated := ← Source.fieldOr? members "deprecated" false Source.flag?
    replacement := ← Source.fieldOr? members "replacement" none (Source.optional? Source.text?) }

/-- Read a dialect. -/
def Dialect.read? (value : ν) : Option Dialect := do
  let members ← Source.record? ["id", "name", "functions", "notes"] value
  return {
    id := ← Source.field? members "id" Source.text?
    name := ← Source.field? members "name" Source.text?
    functions := ← Source.fieldOr? members "functions" [] (Source.listOf? DialectFunction.read?)
    notes := ← Source.fieldOr? members "notes" [] Source.texts? }

/-- Read a rule. -/
def SecurityRule.read? (value : ν) : Option SecurityRule := do
  let members ← Source.record?
    ["id", "pattern", "severity", "category", "dialects", "recommendation", "description",
      "references"] value
  return {
    id := ← Source.field? members "id" Source.text?
    pattern := ← Source.field? members "pattern" Source.text?
    risk := ← Source.field? members "severity" Risk.read?
    category := ← Source.field? members "category" Source.text?
    dialects := ← Source.fieldOr? members "dialects" [] Source.texts?
    recommendation := ← Source.field? members "recommendation" Source.text?
    description := ← Source.fieldOr? members "description" none (Source.optional? Source.text?)
    references := ← Source.fieldOr? members "references" [] Source.texts? }

/-- Read a catalogue. -/
def Catalogue.read? (value : ν) : Option Catalogue := do
  let members ← Source.record? ["dialects", "rules"] value
  return {
    dialects := ← Source.fieldOr? members "dialects" [] (Source.listOf? Dialect.read?)
    rules := ← Source.fieldOr? members "rules" [] (Source.listOf? SecurityRule.read?) }

end Softcode
