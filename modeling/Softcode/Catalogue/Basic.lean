import Softcode.Finding
import Softcode.Text.Ascii
import Softcode.Text.Blank

/-!
# Dialects, security rules and catalogues

A catalogue is what an analysis knows about the servers a script may run on. Catalogues are laid
over one another by identifier: an entry replaces the entry of the same identifier, or joins at the
end.
-/

namespace Softcode

/-- One function of a dialect. -/
structure DialectFunction where
  name : String
  deprecated : Bool := false
  replacement : Option String := none
  deriving DecidableEq, Repr, Inhabited

/-- A server variant and its functions. -/
structure Dialect where
  id : String
  name : String
  functions : List DialectFunction := []
  notes : List String := []
  deriving DecidableEq, Repr, Inhabited

namespace Dialect

/-- The first function of this name; names of functions have no case. -/
def function? (d : Dialect) (name : String) : Option DialectFunction :=
  d.functions.find? fun f => Text.sameName f.name name

/-- The label names the dialect, by its identifier or its display name. -/
def isNamed (d : Dialect) (label : String) : Bool :=
  Text.sameName d.id label || Text.sameName d.name label

end Dialect

/-- A pattern that points to a security problem. -/
structure SecurityRule where
  id : String
  pattern : String
  risk : Risk
  category : String
  /-- labels of the dialects the rule is for; none means all -/
  dialects : List String := []
  recommendation : String
  description : Option String := none
  references : List String := []
  deriving DecidableEq, Repr, Inhabited

/-- The rule is for this dialect. -/
def SecurityRule.appliesTo (rule : SecurityRule) (d : Dialect) : Bool :=
  rule.dialects.isEmpty || rule.dialects.any d.isNamed

/-- Known dialects and security rules. -/
structure Catalogue where
  dialects : List Dialect := []
  rules : List SecurityRule := []
  deriving DecidableEq, Repr, Inhabited

/-- Put an entry in the place of the first entry with its key, or at the end. -/
def overlayEntry {α : Type} (key : α → String) (entries : List α) (entry : α) : List α :=
  match entries with
  | [] => [entry]
  | e :: rest => if key e == key entry then entry :: rest else e :: overlayEntry key rest entry

/-- Lay entries over others, one after the other. -/
def overlay {α : Type} (key : α → String) (entries top : List α) : List α :=
  top.foldl (overlayEntry key) entries

namespace Catalogue

/-- The catalogue without entries. -/
def empty : Catalogue := {}

/-- Lay a catalogue over another. -/
def merge (base top : Catalogue) : Catalogue where
  dialects := overlay Dialect.id base.dialects top.dialects
  rules := overlay SecurityRule.id base.rules top.rules

/-- The dialect with this identifier, or else the one with this label. Blanks around it do not
count, nor does case. -/
def dialect? (c : Catalogue) (id : String) : Option Dialect :=
  let id := String.ofList (Text.trim id.toList)
  (c.dialects.find? fun d => Text.sameName d.id id).or (c.dialects.find? fun d => d.isNamed id)

end Catalogue

end Softcode
