import Softcode.Json.Reader
import Softcode.Record.Source

/-!
# Records in JSON

A record is an object, or a list of the values of its fields in order; fields at the end of the list
may be missing. A choice is its name, or an object whose only member has that name and no value.
-/

namespace Softcode

/-- An integer as a floating-point number. -/
def floatOfInt (n : Int) : Float :=
  match n with
  | .ofNat n => n.toUInt64.toFloat
  | .negSucc n => -(n + 1).toUInt64.toFloat

/-- Values that list items stand for, paired with the fields they are the values of. -/
def positional? {ν : Type} : List String → List ν → Option (List (String × ν))
  | _, [] => some []
  | [], _ :: _ => none
  | name :: names, item :: items => (positional? names items).map ((name, item) :: ·)

instance : Source Json where
  text?
    | .text s => some s
    | _ => none
  flag?
    | .flag b => some b
    | _ => none
  natural?
    | .integer (.ofNat n) => some n
    | _ => none
  real?
    | .integer n => some (floatOfInt n)
    | .real x => some x
    | _ => none
  list?
    | .list items => some items
    | _ => none
  members? names
    | .object members => some members
    | .list items => positional? names items
    | _ => none
  isAbsent
    | .null => true
    | _ => false
  choice?
    | .text s => some s
    | .object [(name, .null)] => some name
    | _ => none

end Softcode
