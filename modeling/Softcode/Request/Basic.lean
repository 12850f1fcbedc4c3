import Softcode.Json.Token
import Softcode.Json.Writer
import Softcode.Settings
import Softcode.Text.Printable

/-!
# Requests

A request asks for one analysis. It has a JSON form, which may be refused; a refusal says what is
wrong and where, and names a field of the request.
-/

namespace Softcode

/-- One request for an analysis. -/
structure Request where
  text : String
  dialectId : Option String := none
  options : Options := {}
  deriving DecidableEq, Repr

namespace Request

/-- The JSON form of a request. A missing dialect is left out. -/
def toJson (r : Request) : Json :=
  .object (("text", .text r.text) :: Json.member? "dialectId" (r.dialectId.map .text) ++
    [("strictMode", .flag r.options.strictMode),
      ("checkSecurity", .flag r.options.checkSecurity),
      ("checkBestPractices", .flag r.options.checkBestPractices)])

/-- The fields of the JSON form, in order. -/
inductive Field where
  | text
  | dialectId
  | strictMode
  | checkSecurity
  | checkBestPractices
  deriving DecidableEq, Repr

namespace Field

/-- All fields, in order. -/
def all : List Field := [.text, .dialectId, .strictMode, .checkSecurity, .checkBestPractices]

/-- The name of a field. -/
def name : Field → String
  | .text => "text"
  | .dialectId => "dialectId"
  | .strictMode => "strictMode"
  | .checkSecurity => "checkSecurity"
  | .checkBestPractices => "checkBestPractices"

/-- The field of this name. -/
def ofName? (name : String) : Option Field := all.find? (·.name == name)

/-- What the value of a field has to be. -/
def expected : Field → String
  | .text | .dialectId => "a string"
  | .strictMode | .checkSecurity | .checkBestPractices => "a boolean"

end Field

/-- A value that was not expected. -/
inductive Unexpected where
  | scalar (value : Json)
  | sequence
  | map
  deriving Repr

/-- An unexpected value in words. -/
def Unexpected.text : Unexpected → String
  | .scalar (.flag b) => s!"boolean `{b}`"
  | .scalar (.integer n) => s!"integer `{n}`"
  | .scalar (.real x) =>
    let digits := String.ofList (Json.layout.text x)
    s!"floating point `{digits}`"
  | .scalar (.text s) =>
    let quoted := String.ofList (Text.quoted s)
    s!"string {quoted}"
  | .scalar _ => "null"
  | .sequence => "sequence"
  | .map => "map"

/-- Why the JSON form of a request is refused. -/
inductive Reason where
  /-- the text is not JSON -/
  | form (problem : Json.Problem)
  | invalidType (found : Unexpected) (expected : String)
  /-- a list without items -/
  | noItems
  | unknownField (name : String)
  | duplicateField (field : Field)
  | missingField (field : Field)
  deriving Repr

/-- What the request as a whole has to be. -/
def recordName : String := "struct RequestRecord"

/-- A reason in words. -/
def Reason.text : Reason → String
  | .form problem => problem.message
  | .invalidType found expected => s!"invalid type: {found.text}, expected {expected}"
  | .noItems => s!"invalid length 0, expected {recordName} with {Field.all.length} elements"
  | .unknownField name =>
    let names := ", ".intercalate (Field.all.map fun field => s!"`{field.name}`")
    s!"unknown field `{name}`, expected one of {names}"
  | .duplicateField field => s!"duplicate field `{field.name}`"
  | .missingField field => s!"missing field `{field.name}`"

/-- A reason and the place it was found at. -/
structure Refusal where
  reason : Reason
  place : Json.Place
  deriving Repr

/-- A refusal in words. -/
def Refusal.text (r : Refusal) : String :=
  s!"{r.reason.text} at line {r.place.line} column {r.place.column}"

/-- What stands between the first two backquotes of a text, or after the only one. -/
def firstQuoted? (s : List Char) : Option (List Char) :=
  match s.dropWhile (· != '\x60') with
  | [] => none
  | _ :: rest => some (rest.takeWhile (· != '\x60'))

/-- The field a refusal is about: the first word in backquotes, or else the request as a whole. -/
def Refusal.field (r : Refusal) : String :=
  match firstQuoted? r.text.toList with
  | some name => if name.isEmpty || name.contains ' ' then "request" else String.ofList name
  | none => "request"

end Request

/-- Why a request is not analysed. -/
inductive Failure where
  | emptyText
  | textTooLong (length limit : Nat)
  | unknownDialect (id : String)
  | malformed (refusal : Request.Refusal)
  deriving Repr

namespace Failure

/-- The field of the request that is at fault. -/
def field : Failure → String
  | emptyText | textTooLong _ _ => "text"
  | unknownDialect _ => "dialectId"
  | malformed refusal => refusal.field

/-- A failure in words. -/
def message : Failure → String
  | emptyText => "text: must not be empty or blank"
  | textTooLong length limit => s!"text: length {length} exceeds maximum of {limit} characters"
  | unknownDialect id => s!"dialectId: unknown dialect '{id}'"
  | malformed refusal => s!"{refusal.field}: {refusal.text}"

end Failure

end Softcode
