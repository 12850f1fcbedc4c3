import Softcode.Json.Token

/-!
# Reading JSON

A text is read into a tree by one pass over its tokens with a stack of the lists and objects that
are still open. Nesting may be as deep as the text allows.
-/

namespace Softcode.Json

/-- A list or an object that is still open, with what it holds so far, last first. -/
inductive Frame where
  | list (done : List Json)
  /-- `name` is the member whose value is being read -/
  | object (done : List (String × Json)) (name : String)
  deriving Repr

/-- What the next token has to be. -/
inductive Stage where
  /-- a value -/
  | value
  /-- a value, or the end of the list just opened -/
  | firstItem
  /-- a member, or the end of the object just opened -/
  | firstMember (done : List (String × Json))
  /-- a member -/
  | member (done : List (String × Json))
  /-- the colon after a name -/
  | colon (done : List (String × Json)) (name : String)
  /-- a comma, or the end of what is open -/
  | after (value : Json)
  deriving Repr

/-- The value of a token that is complete; one that cannot be read stands for itself. -/
def Token.json (t : Token) : Json :=
  match t.value with
  | .ok value => value
  | .error _ => .unreadable

/-- Read on from a stage with the given lists and objects open, innermost first. -/
def readFrom (stage : Stage) (stack : List Frame) : List Token → Option Json
  | [] => none
  | t :: rest =>
    let value : Option Json :=
      if t.stop.isSome then none
      else
        match t.shape with
        | .string | .number | .word => readFrom (.after t.json) stack rest
        | .openBracket => readFrom .firstItem (.list [] :: stack) rest
        | .openBrace => readFrom (.firstMember []) stack rest
        | _ => none
    let name (done : List (String × Json)) : Option Json :=
      if t.stop.isSome then none
      else
        match t.shape, t.value with
        | .string, .ok (.text name) => readFrom (.colon done name) stack rest
        | _, _ => none
    match stage with
    | .value => value
    | .firstItem =>
      match t.shape, stack with
      | .closeBracket, .list done :: stack => readFrom (.after (.list done.reverse)) stack rest
      | _, _ => value
    | .firstMember done =>
      match t.shape with
      | .closeBrace => readFrom (.after (.object done.reverse)) stack rest
      | _ => name done
    | .member done => name done
    | .colon done label =>
      match t.shape with
      | .colon => readFrom .value (.object done label :: stack) rest
      | _ => none
    | .after item =>
      match stack, t.shape with
      | [], .finish => some item
      | .list done :: stack, .comma => readFrom .value (.list (item :: done) :: stack) rest
      | .list done :: stack, .closeBracket =>
        readFrom (.after (.list (item :: done).reverse)) stack rest
      | .object done label :: stack, .comma => readFrom (.member ((label, item) :: done)) stack rest
      | .object done label :: stack, .closeBrace =>
        readFrom (.after (.object ((label, item) :: done).reverse)) stack rest
      | _, _ => none

/-- Read a text that holds one value. -/
def parse? (text : List Char) : Option Json := readFrom .value [] (tokens text)

end Softcode.Json
