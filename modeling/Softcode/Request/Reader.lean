import Softcode.Request.Basic

/-!
# Reading requests

The JSON form of a request is an object with the fields in any order, or a list of their values in
order. The first thing wrong is reported, in the order in which the text is read: an unknown or
repeated name before what follows it, a missing text only after the closing brace.
-/

namespace Softcode.Request

open Json (Token Place)

/-- The fields read so far. -/
structure Draft where
  text : Option String := none
  dialectId : Option (Option String) := none
  strictMode : Option Bool := none
  checkSecurity : Option Bool := none
  checkBestPractices : Option Bool := none
  deriving DecidableEq, Repr

namespace Draft

/-- The field has been read. -/
def has (d : Draft) : Field → Bool
  | .text => d.text.isSome
  | .dialectId => d.dialectId.isSome
  | .strictMode => d.strictMode.isSome
  | .checkSecurity => d.checkSecurity.isSome
  | .checkBestPractices => d.checkBestPractices.isSome

/-- Set a field, if the value is of the right kind. -/
def set? (d : Draft) : Field → Json → Option Draft
  | .text, .text s => some { d with text := some s }
  | .dialectId, .text s => some { d with dialectId := some (some s) }
  | .dialectId, .null => some { d with dialectId := some none }
  | .strictMode, .flag b => some { d with strictMode := some b }
  | .checkSecurity, .flag b => some { d with checkSecurity := some b }
  | .checkBestPractices, .flag b => some { d with checkBestPractices := some b }
  | _, _ => none

/-- The request that has been read, if its text is there. -/
def request? (d : Draft) : Option Request :=
  d.text.map fun text => {
    text
    dialectId := d.dialectId.getD none
    options := {
      strictMode := d.strictMode.getD false
      checkSecurity := d.checkSecurity.getD true
      checkBestPractices := d.checkBestPractices.getD true } }

end Draft

/-- Refuse because of the form of the text. -/
def refuse {α : Type} (problem : Json.Problem) (place : Place) : Except Refusal α :=
  .error ⟨.form problem, place⟩

/-- A token that is not the value asked for: the refusal depends on what it is. -/
def unexpected {α : Type} (t : Token) (expected : String) : Except Refusal α :=
  match t.shape with
  | .finish => refuse .endInValue t.before
  | .openBracket => .error ⟨.invalidType .sequence expected, t.before⟩
  | .openBrace => .error ⟨.invalidType .map expected, t.before⟩
  | .string | .number | .word =>
    match t.value with
    | .ok value => .error ⟨.invalidType (.scalar value) expected, t.after⟩
    | .error fault => refuse fault.problem fault.place
  | _ => refuse .expectedValue t.peeked

/-- Read the value of a field. -/
def readField (d : Draft) (field : Field) (t : Token) : Except Refusal Draft :=
  match t.shape, t.value with
  | .string, .ok value | .word, .ok value =>
    match d.set? field value with
    | some d => .ok d
    | none => unexpected t field.expected
  | _, _ => unexpected t field.expected

/-- Where a complaint about a name is placed: after the blanks that follow it, and after the closing
brace if that is next. -/
def settle (after : Place) : List Token → Place
  | [] => after
  | t :: _ => if t.shape = .closeBrace then t.after else t.before

/-- Read the name of a member; it has to be a field that has not been read. -/
def readName (d : Draft) (t : Token) (rest : List Token) : Except Refusal Field :=
  match t.value with
  | .error fault => refuse fault.problem fault.place
  | .ok (.text name) =>
    match Field.ofName? name with
    | none => .error ⟨.unknownField name, settle t.after rest⟩
    | some field =>
      if d.has field then .error ⟨.duplicateField field, settle t.after rest⟩ else .ok field
  | .ok _ => refuse .keyNotString t.peeked

/-- What the next token of an object has to be. -/
inductive ObjectStage where
  /-- a name or the end -/
  | first
  /-- a name -/
  | name
  | colon (field : Field)
  | value (field : Field)
  /-- a comma or the end -/
  | next
  deriving DecidableEq, Repr

/-- Read an object from a stage on, up to the place after its end. -/
def readObject (stage : ObjectStage) (d : Draft) :
    List Token → Except Refusal (Draft × Place × List Token)
  | [] => refuse .endInObject .start
  | t :: rest =>
    match stage with
    | .first =>
      match t.shape with
      | .closeBrace => .ok (d, t.after, rest)
      | .finish => refuse .endInObject t.before
      | .string => do
        let field ← readName d t rest
        readObject (.colon field) d rest
      | _ => refuse .keyNotString t.peeked
    | .name =>
      match t.shape with
      | .closeBrace => refuse .trailingComma t.peeked
      | .finish => refuse .endInValue t.before
      | .string => do
        let field ← readName d t rest
        readObject (.colon field) d rest
      | _ => refuse .keyNotString t.peeked
    | .colon field =>
      match t.shape with
      | .colon => readObject (.value field) d rest
      | .finish => refuse .endInObject t.before
      | _ => refuse .expectedColon t.peeked
    | .value field => do
      let d ← readField d field t
      readObject .next d rest
    | .next =>
      match t.shape with
      | .closeBrace => .ok (d, t.after, rest)
      | .comma => readObject .name d rest
      | .finish => refuse .endInObject t.before
      | _ => refuse .expectedMemberEnd t.peeked

/-- An object may end at its start and behind a member. -/
theorem readObject_closeBrace {stage : ObjectStage} (hstage : stage = .first ∨ stage = .next)
    {t : Token} (hshape : t.shape = .closeBrace) (d : Draft) (rest : List Token) :
    readObject stage d (t :: rest) = .ok (d, t.after, rest) := by
  rcases hstage with rfl | rfl
  all_goals rw [readObject, hshape]

/-- What the next token of a list has to be. -/
inductive ListStage where
  /-- a value or the end -/
  | first
  | value
  /-- a comma or the end -/
  | next
  deriving DecidableEq, Repr

/-- Read a list of the values of the given fields from a stage on, up to the place after its end. -/
def readList (stage : ListStage) (fields : List Field) (d : Draft) :
    List Token → Except Refusal (Draft × Place × List Token)
  | [] => refuse .endInList .start
  | t :: rest =>
    match stage, fields with
    | .next, [] =>
      match t.shape, rest with
      | .closeBracket, rest => .ok (d, t.after, rest)
      | .finish, _ => refuse .endInList t.before
      | .comma, next :: _ =>
        let problem : Json.Problem :=
          if next.shape = .closeBracket then .trailingComma else .trailingCharacters
        refuse problem next.peeked
      | _, _ => refuse .trailingCharacters t.peeked
    | .next, fields =>
      match t.shape with
      | .closeBracket => .ok (d, t.after, rest)
      | .comma => readList .value fields d rest
      | .finish => refuse .endInList t.before
      | _ => refuse .expectedItemEnd t.peeked
    | .first, [] => refuse .trailingCharacters t.peeked
    | .first, field :: more =>
      match t.shape with
      | .closeBracket => .ok (d, t.after, rest)
      | .finish => refuse .endInList t.before
      | _ => do
        let d ← readField d field t
        readList .next more d rest
    | .value, [] => refuse .trailingCharacters t.peeked
    | .value, field :: more =>
      match t.shape with
      | .closeBracket => refuse .trailingComma t.peeked
      | .finish => refuse .endInValue t.before
      | _ => do
        let d ← readField d field t
        readList .next more d rest

/-- The request of a complete draft, if nothing follows it. -/
def finish (missing : Reason) : Draft × Place × List Token → Except Refusal Request
  | (d, place, rest) =>
    match d.request? with
    | none => .error ⟨missing, place⟩
    | some request =>
      match rest with
      | t :: _ => if t.shape = .finish then .ok request else refuse .trailingCharacters t.peeked
      | [] => .ok request

/-- Read a request from its tokens. -/
def ofTokens : List Token → Except Refusal Request
  | [] => refuse .endInValue .start
  | t :: rest =>
    match t.shape with
    | .openBrace => do finish (.missingField .text) (← readObject .first {} rest)
    | .openBracket => do finish .noItems (← readList .first Field.all {} rest)
    | _ => unexpected t recordName

/-- Read a request from its JSON form. -/
def ofText (text : List Char) : Except Failure Request :=
  match ofTokens (Json.tokens text) with
  | .ok request => .ok request
  | .error refusal => .error (.malformed refusal)

end Softcode.Request
