/-!
# Records in a data format

Catalogues and settings are written in more than one format. `Source` is what a format has to offer
so that records can be read from it: how its values stand for texts, flags, numbers, lists and
records.
-/

namespace Softcode

/-- Values of a format that records can be read from. -/
class Source (ν : Type) where
  text? : ν → Option String
  flag? : ν → Option Bool
  natural? : ν → Option Nat
  real? : ν → Option Float
  list? : ν → Option (List ν)
  /-- the members of a record, given the names of its fields in order -/
  members? : List String → ν → Option (List (String × ν))
  /-- stands for a missing value where one may be missing -/
  isAbsent : ν → Bool
  /-- the name of a choice -/
  choice? : ν → Option String

namespace Source

variable {ν α : Type} [Source ν]

/-- A value that may be missing. -/
def optional? (read : ν → Option α) (value : ν) : Option (Option α) :=
  if isAbsent value then some none else (read value).map some

/-- A list of values. -/
def listOf? (read : ν → Option α) (value : ν) : Option (List α) := do
  (← list? value).mapM read

/-- The members of a record with these fields. No field may come twice; other members do not count.
-/
def record? (names : List String) (value : ν) : Option (List (String × ν)) := do
  let members ← members? names value
  let known := (members.map Prod.fst).filter names.contains
  if known.eraseDups.length = known.length then some members else none

/-- A field that has to be there. -/
def field? (members : List (String × ν)) (name : String) (read : ν → Option α) : Option α :=
  (members.lookup name).bind read

/-- A field with a value to fall back on. -/
def fieldOr? (members : List (String × ν)) (name : String) (default : α) (read : ν → Option α) :
    Option α :=
  match members.lookup name with
  | some value => read value
  | none => some default

end Source

/-- A numeric field of a record, by its name. -/
inductive Slot (σ : Type) where
  | natural (name : String) (get : σ → Nat) (set : σ → Nat → σ)
  | real (name : String) (get : σ → Float) (set : σ → Float → σ)

namespace Slot

/-- The name of a field. -/
def name {σ : Type} : Slot σ → String
  | natural name _ _ => name
  | real name _ _ => name

/-- Set a field from the members of a record, if it is among them. -/
def read? {σ ν : Type} [Source ν] (members : List (String × ν)) (record : σ) (slot : Slot σ) :
    Option σ :=
  match members.lookup slot.name with
  | none => some record
  | some value =>
    match slot with
    | natural _ _ set => (Source.natural? value).map (set record)
    | real _ _ set => (Source.real? value).map (set record)

end Slot

end Softcode
