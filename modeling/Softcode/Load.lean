import Softcode.Catalogue.Record
import Softcode.Files.Tree
import Softcode.Record.Json
import Softcode.Record.Yaml
import Softcode.Settings.Record

/-!
# Loading catalogues and settings

Catalogues and settings are read from files in JSON or YAML; the extension says which, and it has to
be spelled in lower case.
-/

namespace Softcode

/-- The formats that records are stored in. -/
inductive DataFormat where
  | json
  | yaml
  deriving DecidableEq, Repr

/-- The format that an extension stands for. -/
def DataFormat.ofExtension? : String → Option DataFormat
  | "json" => some .json
  | "yaml" | "yml" => some .yaml
  | _ => none

/-- The name of a format. -/
def DataFormat.name : DataFormat → String
  | .json => "json"
  | .yaml => "yaml"

/-- Read a catalogue from a text in a format. -/
def Catalogue.parse? (format : DataFormat) (text : List Char) : Option Catalogue :=
  match format with
  | .json => (Json.parse? text).bind Catalogue.read?
  | .yaml => (Yaml.parse? text).bind Catalogue.read?

/-- Read settings from a text in a format. -/
def Settings.parse? (format : DataFormat) (text : List Char) : Option Settings :=
  match format with
  | .json => (Json.parse? text).bind Settings.read?
  | .yaml => (Yaml.parse? text).bind Settings.read?

/-- Why a file could not be loaded. -/
inductive LoadError where
  | unreadable (what : String) (path : Path)
  | malformed (format : DataFormat) (what : String) (path : Path)
  | unsupported (what : String) (path : Path)
  deriving DecidableEq, Repr

/-- A load error in words. -/
def LoadError.message : LoadError → String
  | unreadable what path => s!"reading {what} {path.spelling}"
  | malformed format what path => s!"parsing {format.name} {what} {path.spelling}"
  | unsupported what path => s!"unsupported {what} extension for {path.spelling}"

/-- Load a file with a reader for both formats. The file has to be UTF-8. -/
def FileTree.load {α : Type} (t : FileTree) (what : String)
    (parse? : DataFormat → List Char → Option α) (path : Path) : Except LoadError α :=
  match (t.read? path).bind Text.utf8? with
  | none => .error (.unreadable what path)
  | some text =>
    match path.extension?.bind DataFormat.ofExtension? with
    | none => .error (.unsupported what path)
    | some format =>
      match parse? format text with
      | none => .error (.malformed format what path)
      | some value => .ok value

/-- Load a catalogue. -/
def Catalogue.load (t : FileTree) (path : Path) : Except LoadError Catalogue :=
  t.load "catalogue" Catalogue.parse? path

/-- Load settings. -/
def Settings.load (t : FileTree) (path : Path) : Except LoadError Settings :=
  t.load "engine config" Settings.parse? path

end Softcode
