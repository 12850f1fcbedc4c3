import Softcode.Json.Writer
import Softcode.Report.Sarif
import Softcode.Report.Text
import Softcode.Text.Ascii
import Softcode.Yaml.Writer

/-!
# Formats of reports

The four formats a report is written in, how they are named, and the format that the name of a file
asks for.
-/

namespace Softcode

/-- A format of reports. -/
inductive ReportFormat where
  | text
  | json
  | yaml
  | sarif
  deriving DecidableEq, Repr

namespace ReportFormat

/-- All formats. -/
def all : List ReportFormat := [.text, .json, .yaml, .sarif]

/-- The name of a format. -/
def name : ReportFormat → String
  | .text => "text"
  | .json => "json"
  | .yaml => "yaml"
  | .sarif => "sarif"

/-- The extension of files in a format. -/
def extension : ReportFormat → String
  | .text => "txt"
  | .json => "json"
  | .yaml => "yaml"
  | .sarif => "sarif"

/-- The format of this name. -/
def ofName? (name : String) : Option ReportFormat := all.find? (·.name == name)

/-- The format that a word stands for: a name or an extension, in any case of ASCII letters. -/
def parse? (word : String) : Option ReportFormat :=
  match String.ofList (Text.lower word.toList) with
  | "text" | "txt" => some .text
  | "json" => some .json
  | "yaml" | "yml" => some .yaml
  | "sarif" => some .sarif
  | _ => none

/-- The format that the extension of a path asks for. -/
def ofPath? (path : Path) : Option ReportFormat := path.extension?.bind parse?

/-- Write a report in a format. Only text has colours. -/
def render (format : ReportFormat) (colours : Bool) (report : Report) : String :=
  match format with
  | .text => report.text colours
  | .json => report.toJson.toPretty
  | .yaml => Yaml.render report.toJson
  | .sarif => (Sarif.log report).toJson.toPretty

end ReportFormat

end Softcode
