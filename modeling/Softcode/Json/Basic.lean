/-!
# Data trees

The values of JSON. Members of an object keep their order, and a member may occur twice. Numbers are
integers or floating-point numbers, as they are written.
-/

namespace Softcode

/-- A tree of data. -/
inductive Json where
  | null
  | flag (value : Bool)
  | integer (value : Int)
  | real (value : Float)
  | text (value : String)
  | list (items : List Json)
  | object (members : List (String × Json))
  /-- well-formed, but without a value: a number out of range, or text with half a surrogate pair -/
  | unreadable
  deriving Repr, Inhabited

namespace Json

/-- A natural number. -/
def natural (n : Nat) : Json := .integer n

/-- A list of texts. -/
def texts (items : List String) : Json := .list (items.map .text)

/-- A member that is left out when it has no value. -/
def member? (name : String) (value : Option Json) : List (String × Json) :=
  (value.map fun v => (name, v)).toList

/-- The first member of this name, if the value is an object that has it. -/
def get? (name : String) : Json → Option Json
  | .object members => members.lookup name
  | _ => none

end Json

end Softcode
