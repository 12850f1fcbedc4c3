import Softcode.Proofs.RequestDecoding

/-!
# The field that a refusal names

A refusal names a field of the request. The name is taken from the message, as the first word that
the message has in backquotes. Messages about names have a name there, but other messages have
punctuation, a value or a part of a value there, and these are taken for names as well
(`refused_field_named`).

What the first word in backquotes is follows from the reason of the refusal alone (`Reason.word?`,
`Refusal.field_eq`). What reasons there can be follows from the reader: a name is unknown only if it
is read where a member starts (`StartsMember`), and a value is unexpected only if it is the value of
a token. `Reason.Arises` says so, and each part of the reader gives only such reasons.
-/

namespace Softcode.Request

open Json (Token Shape)

/-! ## Words in backquotes -/

/-- Without a backquote, every character passes the test that ends a word. -/
theorem bne_backquote_of_mem {s : List Char} (h : '\x60' ∉ s) : ∀ c ∈ s, (c != '\x60') = true :=
  fun _ hc => bne_iff_ne.mpr (ne_of_mem_of_not_mem hc h)

/-- A text without a backquote has no word in backquotes. -/
theorem firstQuoted?_of_not_mem {s : List Char} (h : '\x60' ∉ s) : firstQuoted? s = none := by
  rw [firstQuoted?, ← List.append_nil s, List.dropWhile_append_of_pos (bne_backquote_of_mem h)]
  rfl

/-- The first word starts behind the first backquote and ends at the next one. -/
theorem firstQuoted?_append {before : List Char} (h : '\x60' ∉ before) (rest : List Char) :
    firstQuoted? (before ++ '\x60' :: rest) = some (rest.takeWhile (· != '\x60')) := by
  rw [firstQuoted?, List.dropWhile_append_of_pos (bne_backquote_of_mem h)]
  rfl

/-- What comes behind a backquote does not lengthen a word. -/
theorem takeWhile_append_backquote (word rest : List Char) :
    (word ++ '\x60' :: rest).takeWhile (· != '\x60') = word.takeWhile (· != '\x60') := by
  induction word with
  | nil => rfl
  | cons c word ih =>
      rw [List.cons_append, List.takeWhile_cons, List.takeWhile_cons, ih]

/-- A word without a backquote is taken as a whole. -/
theorem takeWhile_of_not_mem {word : List Char} (h : '\x60' ∉ word) :
    word.takeWhile (· != '\x60') = word := by
  have htake : (word ++ []).takeWhile (· != '\x60') = word ++ [].takeWhile (· != '\x60') :=
    List.takeWhile_append_of_pos (bne_backquote_of_mem h)
  simpa using htake

/-- The field that a word in backquotes is taken for: the word, unless it is empty or has a
blank. -/
def named : Option (List Char) → String
  | some word => if word.isEmpty || word.contains ' ' then "request" else String.ofList word
  | none => "request"

/-- The field of a refusal hangs on the first word in backquotes of its text. -/
theorem Refusal.field_eq_named (r : Refusal) : r.field = named (firstQuoted? r.text.toList) := rfl

/-- A word with a blank is not taken for a field. -/
theorem named_of_blank {word : List Char} (h : ' ' ∈ word) : named (some word) = "request" := by
  rw [named, if_pos]
  simpa using Or.inr h

/-- A word is taken for itself or for no field at all. -/
theorem named_some (word : List Char) :
    named (some word) = "request" ∨ named (some word) = String.ofList word := by
  rw [named]
  split
  · exact Or.inl rfl
  · exact Or.inr rfl

/-- The first word in backquotes, up to a backquote that it may have itself. -/
theorem firstQuoted?_quoted {before : List Char} (h : '\x60' ∉ before) (word rest : List Char) :
    firstQuoted? (before ++ '\x60' :: (word ++ '\x60' :: rest))
      = some (word.takeWhile (· != '\x60')) := by
  rw [firstQuoted?_append h, takeWhile_append_backquote]

/-- If the first words in backquotes have no backquote themselves, they are what a field is taken
from. -/
theorem named_quoted {before word : List Char} (hbefore : '\x60' ∉ before) (hword : '\x60' ∉ word)
    (rest : List Char) :
    named (firstQuoted? (before ++ '\x60' :: (word ++ '\x60' :: rest))) = named (some word) := by
  rw [firstQuoted?_quoted hbefore, takeWhile_of_not_mem hword]

/-! ## Texts without backquotes -/

/-- No numeral has a backquote. -/
theorem backquote_not_mem_toDigits {base : Nat} (hbase : 1 < base) (n : Nat) :
    '\x60' ∉ Nat.toDigits base n := by
  induction n using Nat.strongRecOn with
  | ind n ih =>
      rw [Nat.toDigits_eq_if hbase]
      split
      · simp
      · simp [ih (n / base) (Nat.div_lt_self (by omega) hbase)]

/-- No integer is written with a backquote. -/
theorem backquote_not_mem_integer (n : Int) : '\x60' ∉ (toString n).toList := by
  have hrepr : toString n = n.repr := rfl
  rw [hrepr]
  cases n with
  | ofNat n => simp [Int.repr, backquote_not_mem_toDigits]
  | negSucc n => simp [Int.repr, backquote_not_mem_toDigits]

/-- No way to place the digits of a number writes a backquote. -/
theorem backquote_not_mem_place (layout : Decimal.Layout) (d : Decimal.Digits) :
    '\x60' ∉ layout.place d := by
  have hdigits : '\x60' ∉ Nat.toDigits 10 d.digits := backquote_not_mem_toDigits (by decide) _
  have htake : ∀ n, '\x60' ∉ (Nat.toDigits 10 d.digits).take n := fun n hmem =>
    hdigits (List.mem_of_mem_take hmem)
  have hdrop : ∀ n, '\x60' ∉ (Nat.toDigits 10 d.digits).drop n := fun n hmem =>
    hdigits (List.mem_of_mem_drop hmem)
  simp only [Decimal.Layout.place]
  split_ifs
  · simp [hdigits]
  · simp [htake, hdrop]
  · simp [hdigits]
  all_goals
    -- the mantissa has a point behind its first digit if it has another one
    cases hmantissa : Nat.toDigits 10 d.digits with
    | nil => simp [backquote_not_mem_toDigits]
    | cons c more =>
        rw [hmantissa] at hdigits
        cases more <;> simp_all [backquote_not_mem_toDigits]

/-- No floating-point number is written with a backquote. -/
theorem backquote_not_mem_real (x : Float) : '\x60' ∉ Json.layout.text x := by
  have hsign : '\x60' ∉ (Decimal.BinaryForm.ofFloat x).sign := by
    rw [Decimal.BinaryForm.sign]
    split <;> simp
  simp only [Decimal.Layout.text]
  split_ifs
  · simp [hsign, Json.layout]
  · simp [Json.layout]
  · simp [hsign]
  · simp [hsign, backquote_not_mem_place]

/-- Quoting leaves a backquote as it is. -/
theorem quotedChar_backquote : Text.quotedChar '\x60' = ['\x60'] := by
  decide +kernel

/-- Quoting writes a backquote for no other character. -/
theorem backquote_not_mem_quotedChar {c : Char} (h : c ≠ '\x60') : '\x60' ∉ Text.quotedChar c := by
  unfold Text.quotedChar
  split
  case h_7 =>
    split_ifs
    · simp [Text.hexLower, Text.padLeft, backquote_not_mem_toDigits]
    · simpa using h.symm
  all_goals simp

/-- No field has a backquote in its name. -/
theorem backquote_not_mem_name (field : Field) : '\x60' ∉ field.name.toList := by
  cases field <;> decide

/-! ## The first word in backquotes -/

/-- The first word in backquotes in the words for a problem. -/
def problemWord? : Json.Problem → Option (List Char)
  | .expectedColon => some [':']
  | .expectedMemberEnd | .expectedItemEnd => some [',']
  | _ => none

/-- The first word in backquotes in the words for an unexpected value. A text is there itself, with
its own backquotes, and has a word if it has two of them. -/
def Unexpected.word? : Unexpected → Option (List Char)
  | .scalar (.flag b) => some (toString b).toList
  | .scalar (.integer n) => some (toString n).toList
  | .scalar (.real x) => some (Json.layout.text x)
  | .scalar (.text s) =>
    if s.toList.count '\x60' < 2 then none
    else (firstQuoted? s.toList).map (·.flatMap Text.quotedChar)
  | _ => none

/-- The first word in backquotes in the words for a reason. A name ends where it has a backquote
itself. -/
def Reason.word? : Reason → Option (List Char)
  | .form problem => problemWord? problem
  | .invalidType found _ => found.word?
  | .noItems => none
  | .unknownField name => some (name.toList.takeWhile (· != '\x60'))
  | .duplicateField field | .missingField field => some field.name.toList

/-- What follows the reason in a message has blanks and no backquotes. -/
structure IsTail (tail : List Char) : Prop where
  backquote : '\x60' ∉ tail
  blank : ' ' ∈ tail

variable {tail : List Char}

/-- The message of a problem names what the problem alone says. -/
theorem named_problem (htail : IsTail tail) (problem : Json.Problem) :
    named (firstQuoted? (problem.message.toList ++ tail)) = named (problemWord? problem) := by
  have hcolon : Json.Problem.expectedColon.message.toList
      = "expected ".toList ++ ['\x60', ':', '\x60'] := by decide
  have hmember : Json.Problem.expectedMemberEnd.message.toList
      = "expected ".toList ++ ['\x60', ',', '\x60'] ++ " or `\x7d`".toList := by decide
  have hitem : Json.Problem.expectedItemEnd.message.toList
      = "expected ".toList ++ ['\x60', ',', '\x60'] ++ " or `]`".toList := by decide
  have hplain : problem ∉ [.expectedColon, .expectedMemberEnd, .expectedItemEnd] →
      '\x60' ∉ problem.message.toList ∧ problemWord? problem = none := by
    cases problem <;> decide
  have hexpected : '\x60' ∉ "expected ".toList := by decide
  by_cases hmem : problem ∈ [.expectedColon, .expectedMemberEnd, .expectedItemEnd]
  · simp only [List.mem_cons, List.not_mem_nil, or_false] at hmem
    rcases hmem with rfl | rfl | rfl
    · rw [hcolon, problemWord?, ← named_quoted hexpected (by decide) tail]
      simp
    · rw [hmember, problemWord?,
        ← named_quoted hexpected (by decide) (" or `\x7d`".toList ++ tail)]
      simp
    · rw [hitem, problemWord?, ← named_quoted hexpected (by decide) (" or `]`".toList ++ tail)]
      simp
  · obtain ⟨hmessage, hword⟩ := hplain hmem
    rw [firstQuoted?_of_not_mem (by simp [hmessage, htail.backquote]), hword]

/-- A string that is not expected is quoted in the message, and the first word in backquotes is one
of the string. -/
theorem named_text (htail : IsTail tail) (s : String) :
    named (firstQuoted? ("invalid type: string ".toList ++ Text.quoted s ++ tail))
      = named (Unexpected.scalar (.text s)).word? := by
  have hclean : ∀ part : List Char, '\x60' ∉ part → '\x60' ∉ part.flatMap Text.quotedChar := by
    intro part hpart hmem
    obtain ⟨c, hc, hquoted⟩ := List.mem_flatMap.mp hmem
    exact backquote_not_mem_quotedChar (ne_of_mem_of_not_mem hc hpart) hquoted
  simp only [Unexpected.word?, Text.quoted]
  generalize s.toList = s
  by_cases hfirst : '\x60' ∈ s
  · obtain ⟨before, rest, rfl, hbefore⟩ := List.eq_append_cons_of_mem hfirst
    have hfront : '\x60' ∉ "invalid type: string ".toList
        ++ '"' :: before.flatMap Text.quotedChar := by simp [hclean before hbefore]
    by_cases hsecond : '\x60' ∈ rest
    · obtain ⟨word, rest, rfl, hword⟩ := List.eq_append_cons_of_mem hsecond
      have hmessage := named_quoted hfront (hclean word hword)
        (rest.flatMap Text.quotedChar ++ '"' :: tail)
      have hcount : ¬ (before ++ '\x60' :: (word ++ '\x60' :: rest)).count '\x60' < 2 := by
        simp only [List.count_append, List.count_cons_self]
        omega
      rw [if_neg hcount, firstQuoted?_quoted hbefore, takeWhile_of_not_mem hword, Option.map_some,
        ← hmessage]
      simp [quotedChar_backquote]
    · -- the only backquote opens a word that runs to the end of the message
      have hmessage := firstQuoted?_append hfront (rest.flatMap Text.quotedChar ++ '"' :: tail)
      have hcount : (before ++ '\x60' :: rest).count '\x60' < 2 := by
        rw [List.count_append, List.count_cons_self, List.count_eq_zero_of_not_mem hbefore,
          List.count_eq_zero_of_not_mem hsecond]
        decide
      rw [takeWhile_of_not_mem (by simp [hclean rest hsecond, htail.backquote])] at hmessage
      rw [if_pos hcount]
      refine (congrArg named ?_).trans ((congrArg named hmessage).trans (named_of_blank ?_))
      · simp [quotedChar_backquote]
      · simp [htail.blank]
  · rw [if_pos (by rw [List.count_eq_zero_of_not_mem hfirst]; decide), firstQuoted?_of_not_mem]
    simp [hclean s hfirst, htail.backquote]

/-- The message on an unexpected value names what the value alone says. -/
theorem named_unexpected (htail : IsTail tail) (found : Unexpected) :
    named (firstQuoted? ("invalid type: ".toList ++ found.text.toList ++ tail))
      = named found.word? := by
  have hquoted : ∀ kind word : String, '\x60' ∉ kind.toList → '\x60' ∉ word.toList →
      named (firstQuoted? ("invalid type: ".toList ++ (kind ++ "`" ++ word ++ "`").toList ++ tail))
        = named (some word.toList) := by
    intro kind word hkind hword
    have hbefore : '\x60' ∉ "invalid type: ".toList ++ kind.toList := by simp [hkind]
    rw [← named_quoted hbefore hword tail]
    simp
  have hplain : ∀ kind : String, '\x60' ∉ kind.toList →
      named (firstQuoted? ("invalid type: ".toList ++ kind.toList ++ tail)) = named none := by
    intro kind hkind
    rw [firstQuoted?_of_not_mem (by simp [hkind, htail.backquote])]
  match found with
  | .scalar (.flag b) => exact hquoted "boolean " (toString b) (by decide) (by cases b <;> decide)
  | .scalar (.integer n) =>
      exact hquoted "integer " (toString n) (by decide) (backquote_not_mem_integer n)
  | .scalar (.real x) =>
      have hmessage := hquoted "floating point " (String.ofList (Json.layout.text x)) (by decide)
      refine (hmessage ?_).trans ?_
      · simpa using backquote_not_mem_real x
      · rw [String.toList_ofList, Unexpected.word?]
  | .scalar (.text s) =>
      rw [← named_text htail s]
      have htext : (Unexpected.scalar (.text s)).text
          = "string " ++ String.ofList (Text.quoted s) := rfl
      simp [htext]
  | .scalar .null => exact hplain "null" (by decide)
  | .scalar (.list _) => exact hplain "null" (by decide)
  | .scalar (.object _) => exact hplain "null" (by decide)
  | .scalar .unreadable => exact hplain "null" (by decide)
  | .sequence => exact hplain "sequence" (by decide)
  | .map => exact hplain "map" (by decide)

/-! ## Where reasons come from -/

/-- The reasons that there can be for a refusal, given the keys and the values that were read. -/
inductive Reason.Arises (IsKey : String → Prop) (IsValue : Json → Prop) : Reason → Prop
  | form (problem : Json.Problem) : Arises IsKey IsValue (.form problem)
  | invalidType {found : Unexpected} {expected : String}
      (hvalue : ∀ value, found = .scalar value → IsValue value)
      (hexpected : '\x60' ∉ expected.toList) : Arises IsKey IsValue (.invalidType found expected)
  | noItems : Arises IsKey IsValue .noItems
  | unknownField {name : String} (hkey : IsKey name) : Arises IsKey IsValue (.unknownField name)
  | duplicateField (field : Field) : Arises IsKey IsValue (.duplicateField field)
  | missingField (field : Field) : Arises IsKey IsValue (.missingField field)

/-- A reason that arises from some keys and values arises from more of them. -/
theorem Reason.Arises.mono {IsKey IsKey' : String → Prop} {IsValue IsValue' : Json → Prop}
    {reason : Reason} (h : reason.Arises IsKey IsValue) (hkey : ∀ name, IsKey name → IsKey' name)
    (hvalue : ∀ value, IsValue value → IsValue' value) : reason.Arises IsKey' IsValue' := by
  cases h with
  | form problem => exact .form problem
  | invalidType hfound hexpected =>
      exact .invalidType (fun value hv => hvalue value (hfound value hv)) hexpected
  | noItems => exact .noItems
  | unknownField hname => exact .unknownField (hkey _ hname)
  | duplicateField field => exact .duplicateField field
  | missingField field => exact .missingField field

variable {IsKey : String → Prop} {IsValue : Json → Prop}

/-- The text of a reason that can arise names the word of the reason. -/
theorem Reason.named_text (htail : IsTail tail) {reason : Reason}
    (h : reason.Arises IsKey IsValue) :
    named (firstQuoted? (reason.text.toList ++ tail)) = named reason.word? := by
  have hfield : ∀ (complaint : String) (field : Field), '\x60' ∉ complaint.toList →
      named (firstQuoted? ((complaint ++ "`" ++ field.name ++ "`").toList ++ tail))
        = named (some field.name.toList) := by
    intro complaint field hcomplaint
    rw [← named_quoted hcomplaint (backquote_not_mem_name field) tail]
    simp
  cases h with
  | form problem => exact named_problem htail problem
  | @invalidType found expected hvalue hexpected =>
      have htext : (Reason.invalidType found expected).text
          = "invalid type: " ++ found.text ++ ", expected " ++ expected := rfl
      have hrest : IsTail (", expected ".toList ++ expected.toList ++ tail) :=
        ⟨by simp [hexpected, htail.backquote], by simp⟩
      rw [Reason.word?, ← named_unexpected hrest, htext]
      simp
  | noItems =>
      have hplain : '\x60' ∉ Reason.noItems.text.toList := by decide +kernel
      rw [firstQuoted?_of_not_mem (by simp [hplain, htail.backquote])]
      rfl
  | @unknownField name hkey =>
      obtain ⟨names, htext⟩ : ∃ names, (Reason.unknownField name).text
          = "unknown field `" ++ name ++ "`, expected one of " ++ names := ⟨_, rfl⟩
      have hmessage := firstQuoted?_quoted (by decide : '\x60' ∉ "unknown field ".toList)
        name.toList (", expected one of ".toList ++ names.toList ++ tail)
      rw [Reason.word?, ← hmessage, htext]
      simp
  | duplicateField field => exact hfield "duplicate field " field (by decide)
  | missingField field => exact hfield "missing field " field (by decide)

/-- The field that a refusal names depends on its reason alone. -/
theorem Refusal.field_eq {r : Refusal} (h : r.reason.Arises IsKey IsValue) :
    r.field = named r.reason.word? := by
  have htext : r.text.toList = r.reason.text.toList
      ++ (" at line ".toList ++ Nat.toDigits 10 r.place.line ++ " column ".toList
        ++ Nat.toDigits 10 r.place.column) := by
    have hinterpolated : r.text = r.reason.text ++ " at line " ++ toString r.place.line
        ++ " column " ++ toString r.place.column := rfl
    simp [hinterpolated]
  rw [r.field_eq_named, htext, Reason.named_text _ h]
  exact ⟨by simp [backquote_not_mem_toDigits], by simp⟩

/-! ## Keys -/

/-- The shapes of the tokens of a member whose value is no list and no object, and of the comma
behind it. -/
def memberShapes : List (List Shape) := [[.string], [.colon], [.string, .number, .word], [.comma]]

/-- The tokens behind an opening brace have this name where a member starts. -/
inductive StartsMember (name : String) : List Token → Prop
  | here {t : Token} {rest : List Token} (hshape : t.shape = .string)
      (hvalue : t.value = .ok (.text name)) : StartsMember name (t :: rest)
  | later {member rest : List Token}
      (hmember : List.Forall₂ (fun shapes t => t.shape ∈ shapes) memberShapes member)
      (hrest : StartsMember name rest) : StartsMember name (member ++ rest)

/-- The text has an object with this key, at least from its start up to the key. -/
def HasKey (text : List Char) (name : String) : Prop :=
  ∃ t rest, Json.tokens text = t :: rest ∧ t.shape = .openBrace ∧ StartsMember name rest

namespace ObjectStage

/-- The shapes of the tokens from a stage to the start of the next member. -/
def pending : ObjectStage → List (List Shape)
  | first | name => []
  | colon _ => memberShapes.drop 1
  | value _ => memberShapes.drop 2
  | next => memberShapes.drop 3

/-- From this stage on, the tokens have this name where a member starts. -/
def LeadsTo (stage : ObjectStage) (ts : List Token) (key : String) : Prop :=
  ∃ skipped rest, ts = skipped ++ rest
    ∧ List.Forall₂ (fun shapes t => t.shape ∈ shapes) stage.pending skipped
    ∧ StartsMember key rest

variable {stage : ObjectStage} {t : Token} {rest : List Token} {key : String}

/-- Where a name is expected, the tokens lead to a key exactly if they start a member with it. -/
theorem leadsTo_iff (hstage : stage.TakesName) {ts : List Token} :
    stage.LeadsTo ts key ↔ StartsMember key ts := by
  have hpending : stage.pending = [] := by rcases hstage with rfl | rfl <;> rfl
  simp [LeadsTo, hpending]

/-- A token of a shape that the stage waits for is passed on the way to a key. -/
theorem LeadsTo.cons {stage' : ObjectStage} {shapes : List Shape} (h : stage'.LeadsTo rest key)
    (hpending : stage.pending = shapes :: stage'.pending) (hshape : t.shape ∈ shapes) :
    stage.LeadsTo (t :: rest) key := by
  obtain ⟨skipped, rest, rfl, hskipped, hrest⟩ := h
  exact ⟨t :: skipped, rest, rfl, hpending ▸ .cons hshape hskipped, hrest⟩

/-- Past the name of a member, the way to a later key goes on behind its colon. -/
theorem LeadsTo.of_colon {field : Field} (h : (ObjectStage.colon field).LeadsTo rest key)
    (hstage : stage.TakesName) (hshape : t.shape = .string) : stage.LeadsTo (t :: rest) key := by
  obtain ⟨skipped, rest, rfl, hskipped, hrest⟩ := h
  rw [leadsTo_iff hstage, ← List.cons_append]
  exact .later (.cons (by simp [hshape]) hskipped) hrest

end ObjectStage

/-! ## What the reader refuses -/

/-- One of the tokens has this value. -/
def HasValue (ts : List Token) (value : Json) : Prop := ∃ t ∈ ts, t.value = .ok value

/-- Tokens keep their values with another one in front of them. -/
theorem HasValue.cons {ts : List Token} {value : Json} (h : HasValue ts value) (t : Token) :
    HasValue (t :: ts) value := by
  obtain ⟨u, hu, hvalue⟩ := h
  exact ⟨u, List.mem_cons_of_mem t hu, hvalue⟩

/-- The error of a sequence is that of its first part, or of its second part on the result of the
first. -/
theorem bind_eq_error {ε α β : Type} {x : Except ε α} {f : α → Except ε β} {e : ε}
    (h : x.bind f = .error e) : x = .error e ∨ ∃ a, x = .ok a ∧ f a = .error e := by
  cases x with
  | error e' =>
      cases h
      exact Or.inl rfl
  | ok a => exact Or.inr ⟨a, rfl, h⟩

variable {r : Refusal} {t : Token} {rest : List Token}

/-- A problem of the text is a reason that can always arise. -/
theorem arises_refuse {α : Type} {problem : Json.Problem} {place : Json.Place}
    (h : (refuse problem place : Except Refusal α) = .error r) :
    r.reason.Arises IsKey IsValue := by
  cases h
  exact .form problem

/-- A token that is not expected gives a reason about its own value. -/
theorem arises_unexpected {α : Type} {expected : String} (hexpected : '\x60' ∉ expected.toList)
    (h : (unexpected t expected : Except Refusal α) = .error r) :
    r.reason.Arises IsKey (HasValue (t :: rest)) := by
  have hscalar : ∀ {value : Json} {place : Json.Place}, t.value = .ok value →
      (Except.error ⟨.invalidType (.scalar value) expected, place⟩ : Except Refusal α) = .error r →
      r.reason.Arises IsKey (HasValue (t :: rest)) := by
    rintro value place hvalue ⟨⟩
    refine .invalidType ?_ hexpected
    rintro _ ⟨⟩
    exact ⟨t, List.mem_cons_self, hvalue⟩
  rw [unexpected] at h
  cases hshape : t.shape <;> simp only [hshape] at h
  case finish => exact arises_refuse h
  case openBracket =>
    cases h
    exact .invalidType (by simp) hexpected
  case openBrace =>
    cases h
    exact .invalidType (by simp) hexpected
  case string | number | word =>
    cases hvalue : t.value <;> rw [hvalue] at h
    · exact arises_refuse h
    · exact hscalar hvalue h
  all_goals exact arises_refuse h

/-- The value of a field is read from a scalar, or it is not what was expected. -/
theorem readField_cases (d : Draft) (field : Field) (t : Token) :
    readField d field t = unexpected t field.expected
      ∨ t.shape ∈ [Shape.string, .number, .word] ∧ ∃ e, readField d field t = .ok e := by
  unfold readField
  split
  · split
    · exact Or.inr ⟨by simp [*], _, rfl⟩
    · exact Or.inl rfl
  · split
    · exact Or.inr ⟨by simp [*], _, rfl⟩
    · exact Or.inl rfl
  · exact Or.inl rfl

/-- The value of a field is refused for a reason about that value. -/
theorem arises_readField {d : Draft} {field : Field} (h : readField d field t = .error r) :
    r.reason.Arises IsKey (HasValue (t :: rest)) := by
  rcases readField_cases d field t with hread | ⟨-, e, hread⟩
  · rw [hread] at h
    exact arises_unexpected (by cases field <;> decide) h
  · rw [hread] at h
    cases h

/-- A value that a field takes is a string, a number or a word. -/
theorem shape_of_readField {d e : Draft} {field : Field} (h : readField d field t = .ok e) :
    t.shape ∈ [Shape.string, .number, .word] := by
  rcases readField_cases d field t with hread | ⟨hshape, -⟩
  · obtain ⟨refusal, hrefused⟩ := exists_unexpected (α := Draft) t field.expected
    rw [hread, hrefused] at h
    cases h
  · exact hshape

/-- A name is refused for a reason about that name. -/
theorem arises_readName {d : Draft} (h : readName d t rest = .error r) :
    r.reason.Arises (fun name => t.value = .ok (.text name)) IsValue := by
  unfold readName at h
  split at h
  · exact arises_refuse h
  · rename_i name hvalue
    split at h
    · cases h
      exact .unknownField hvalue
    · split at h
      · cases h
        exact .duplicateField _
      · cases h
  · exact arises_refuse h

/-- Where a name may come, the reader gives such a reason itself or goes on behind the name. -/
theorem arises_readObject_name {stage : ObjectStage} (hstage : stage.TakesName) {d : Draft}
    (h : readObject stage d (t :: rest) = .error r) :
    r.reason.Arises (stage.LeadsTo (t :: rest)) IsValue
      ∨ t.shape = .string ∧ ∃ field, readObject (.colon field) d rest = .error r := by
  by_cases hshape : t.shape = .string
  · rw [readObject_name hstage hshape] at h
    rcases bind_eq_error h with hname | ⟨field, -, hcolon⟩
    · refine Or.inl ((arises_readName hname).mono ?_ fun _ hvalue => hvalue)
      exact fun key hkey => (ObjectStage.leadsTo_iff hstage).mpr (.here hshape hkey)
    · exact Or.inr ⟨hshape, field, hcolon⟩
  · refine Or.inl ?_
    rcases hstage with rfl | rfl
    · rw [readObject] at h
      split at h
      · cases h
      · exact arises_refuse h
      · contradiction
      · exact arises_refuse h
    · rw [readObject] at h
      split at h
      · exact arises_refuse h
      · exact arises_refuse h
      · contradiction
      · exact arises_refuse h

/-- An object is refused for a name only where one of its members starts. -/
theorem arises_readObject {stage : ObjectStage} {d : Draft} {ts : List Token}
    (h : readObject stage d ts = .error r) : r.reason.Arises (stage.LeadsTo ts) (HasValue ts) := by
  induction ts generalizing stage d with
  | nil =>
      rw [readObject] at h
      exact arises_refuse h
  | cons t rest ih =>
      have hlater : ∀ {stage' : ObjectStage} {e : Draft}, readObject stage' e rest = .error r →
          (∀ key, stage'.LeadsTo rest key → stage.LeadsTo (t :: rest) key) →
          r.reason.Arises (stage.LeadsTo (t :: rest)) (HasValue (t :: rest)) := by
        intro stage' e hread hleads
        exact (ih hread).mono hleads fun value hvalue => hvalue.cons t
      have hname : stage.TakesName →
          r.reason.Arises (stage.LeadsTo (t :: rest)) (HasValue (t :: rest)) := by
        intro hstage
        rcases arises_readObject_name hstage h with hreason | ⟨hshape, field, hcolon⟩
        · exact hreason
        · exact hlater hcolon fun key hkey => hkey.of_colon hstage hshape
      cases stage with
      | first => exact hname (Or.inl rfl)
      | name => exact hname (Or.inr rfl)
      | colon field =>
          rw [readObject] at h
          split at h
          · exact hlater h fun key hkey => hkey.cons rfl (by simp [*])
          · exact arises_refuse h
          · exact arises_refuse h
      | value field =>
          rw [readObject] at h
          rcases bind_eq_error h with hfield | ⟨e, hfield, hnext⟩
          · exact arises_readField hfield
          · exact hlater hnext fun key hkey => hkey.cons rfl (shape_of_readField hfield)
      | next =>
          rw [readObject] at h
          split at h
          · cases h
          · exact hlater h fun key hkey => hkey.cons rfl (by simp [*])
          · exact arises_refuse h
          · exact arises_refuse h

/-- A list has no names to be refused for. -/
theorem arises_readList {stage : ListStage} {fields : List Field} {d : Draft} {ts : List Token}
    (h : readList stage fields d ts = .error r) : r.reason.Arises IsKey (HasValue ts) := by
  induction ts generalizing stage fields d with
  | nil =>
      rw [readList] at h
      exact arises_refuse h
  | cons t rest ih =>
      have hlater : ∀ {stage' : ListStage} {fields' : List Field} {e : Draft},
          readList stage' fields' e rest = .error r →
          r.reason.Arises IsKey (HasValue (t :: rest)) := by
        intro stage' fields' e hread
        exact (ih hread).mono (fun _ hkey => hkey) fun value hvalue => hvalue.cons t
      have hitem : ∀ {field : Field} {more : List Field},
          (readField d field t).bind (fun d => readList .next more d rest) = .error r →
          r.reason.Arises IsKey (HasValue (t :: rest)) := by
        intro field more hbind
        rcases bind_eq_error hbind with hfield | ⟨e, -, hnext⟩
        · exact arises_readField hfield
        · exact hlater hnext
      unfold readList at h
      split at h
      · -- a comma or the end, and all fields have been read
        split at h
        · cases h
        · exact arises_refuse h
        · exact arises_refuse h
        · exact arises_refuse h
      · -- a comma or the end, and fields are left
        split at h
        · cases h
        · exact hlater h
        · exact arises_refuse h
        · exact arises_refuse h
      · exact arises_refuse h
      · -- the first value or the end
        split at h
        · cases h
        · exact arises_refuse h
        · exact hitem h
      · exact arises_refuse h
      · -- a value behind a comma
        split at h
        · exact arises_refuse h
        · exact arises_refuse h
        · exact hitem h

/-- What is missing or left over at the end gives a reason that can arise. -/
theorem arises_finish {missing : Reason} {read : Draft × Json.Place × List Token}
    (hmissing : missing.Arises IsKey IsValue) (h : finish missing read = .error r) :
    r.reason.Arises IsKey IsValue := by
  obtain ⟨d, place, rest⟩ := read
  rw [finish] at h
  cases hrequest : d.request? with
  | none =>
      rw [hrequest] at h
      cases h
      exact hmissing
  | some request =>
      rw [hrequest] at h
      cases rest with
      | nil => cases h
      | cons t rest =>
          simp only at h
          split at h
          · cases h
          · exact arises_refuse h

/-- A request is refused for a name only if the name is a key of the object, and for a value only if
a token has it. -/
theorem arises_ofTokens {ts : List Token} (h : ofTokens ts = .error r) :
    r.reason.Arises
      (fun key => ∃ t rest, ts = t :: rest ∧ t.shape = .openBrace ∧ StartsMember key rest)
      (HasValue ts) := by
  cases ts with
  | nil => exact arises_refuse h
  | cons t rest =>
      rw [ofTokens] at h
      split at h
      · rename_i hshape
        rcases bind_eq_error h with hobject | ⟨draft, -, hend⟩
        · refine (arises_readObject hobject).mono ?_ fun value hvalue => hvalue.cons t
          intro key hkey
          exact ⟨t, rest, rfl, hshape, (ObjectStage.leadsTo_iff (Or.inl rfl)).mp hkey⟩
        · exact arises_finish (.missingField .text) hend
      · rcases bind_eq_error h with hlist | ⟨draft, -, hend⟩
        · exact (arises_readList hlist).mono (fun _ hkey => hkey) fun value hvalue => hvalue.cons t
        · exact arises_finish .noItems hend
      · exact arises_unexpected (by decide) h

/-! ## Fields -/

/-- The first word in backquotes is punctuation, a value or a part of a value, or only a part of a
name. -/
def Reason.Misquotes : Reason → Prop
  | .form problem => (problemWord? problem).isSome
  | .invalidType found _ => found.word?.isSome
  | .unknownField name => '\x60' ∈ name.toList
  | _ => False

/-- Unless a reason quotes something else, the field it names is `request`, a field of a request, or
a key of the text. -/
theorem named_of_not_misquotes {reason : Reason} (h : reason.Arises IsKey IsValue)
    (hfaithful : ¬ reason.Misquotes) :
    named reason.word? = "request" ∨ (∃ field : Field, named reason.word? = field.name)
      ∨ IsKey (named reason.word?) := by
  have hfield : ∀ field : Field, named (some field.name.toList) = "request"
      ∨ ∃ other : Field, named (some field.name.toList) = other.name := by
    intro field
    refine (named_some field.name.toList).imp_right fun hname => ⟨field, ?_⟩
    rw [hname, String.ofList_toList]
  cases h with
  | form problem =>
      have hnone : problemWord? problem = none := by simpa [Reason.Misquotes] using hfaithful
      exact Or.inl (by rw [Reason.word?, hnone, named])
  | @invalidType found expected hvalue hexpected =>
      have hnone : found.word? = none := by simpa [Reason.Misquotes] using hfaithful
      exact Or.inl (by rw [Reason.word?, hnone, named])
  | noItems => exact Or.inl rfl
  | @unknownField name hkey =>
      rw [Reason.word?, takeWhile_of_not_mem hfaithful]
      refine (named_some name.toList).imp_right fun hname => Or.inr ?_
      rwa [hname, String.ofList_toList]
  | duplicateField field => exact (hfield field).imp_right Or.inl
  | missingField field => exact (hfield field).imp_right Or.inl

/-- **A refusal names a field unless its message has something else in backquotes first.** A text
that is refused is refused for one reason, and the field that is named is the first word in
backquotes that goes with this reason, or the request as a whole if there is none, or if it is empty
or has a blank. A name that is unknown is a key of the object in the text, and a value that was not
expected is the value of a token of the text. So the field that is named is the request, a declared
field or a key of the text, unless the reason is one that has something else in backquotes. -/
theorem refused_field_named {text : List Char} {failure : Failure}
    (h : ofText text = .error failure) :
    ∃ refusal, failure = .malformed refusal
      ∧ failure.field = named refusal.reason.word?
      ∧ (∀ name, refusal.reason = .unknownField name → HasKey text name)
      ∧ (∀ value expected, refusal.reason = .invalidType (.scalar value) expected →
        HasValue (Json.tokens text) value)
      ∧ (¬ refusal.reason.Misquotes → failure.field = "request"
        ∨ (∃ field : Field, failure.field = field.name) ∨ HasKey text failure.field) := by
  unfold ofText at h
  split at h
  · cases h
  · rename_i refusal hread
    cases h
    have harises := arises_ofTokens hread
    have hfield : (Failure.malformed refusal).field = named refusal.reason.word? :=
      refusal.field_eq harises
    refine ⟨refusal, rfl, hfield, ?_, ?_, ?_⟩
    · intro name hreason
      rw [hreason] at harises
      cases harises with
      | unknownField hkey => exact hkey
    · intro value expected hreason
      rw [hreason] at harises
      cases harises with
      | invalidType hvalue hexpected => exact hvalue value rfl
    · intro hfaithful
      rw [hfield]
      exact named_of_not_misquotes harises hfaithful

/-- A key that is not declared is named; the member before it is read. -/
theorem refused_field_named_unknown :
    ∃ (text : List Char) (failure : Failure), text = "\x7b\"text\":\"a\",\"colour\":1\x7d".toList
      ∧ ofText text = .error failure ∧ failure.field = "colour" ∧ HasKey text "colour" := by
  have hread : ofText "\x7b\"text\":\"a\",\"colour\":1\x7d".toList
      = .error (.malformed ⟨.unknownField "colour", ⟨1, 20⟩⟩) := by
    rfl
  obtain ⟨refusal, hrefusal, hfield, hkey, -, -⟩ := refused_field_named hread
  cases hrefusal
  refine ⟨_, _, rfl, hread, ?_, hkey "colour" rfl⟩
  rw [hfield]
  decide +kernel

/-- A number in the place of a text is taken for the name of a field. -/
theorem refused_field_not_in_text :
    ∃ (text : List Char) (failure : Failure), text = "\x7b\"text\":1\x7d".toList
      ∧ ofText text = .error failure ∧ failure.field = "1" ∧ failure.field ≠ "request"
      ∧ (∀ field : Field, failure.field ≠ field.name)
      ∧ ∀ t ∈ Json.tokens text, ∀ key, t.value = .ok (.text key) → failure.field ≠ key := by
  have hread : ofText "\x7b\"text\":1\x7d".toList
      = .error (.malformed ⟨.invalidType (.scalar (.integer 1)) "a string", ⟨1, 9⟩⟩) := by
    rfl
  have hfield : (Failure.malformed
      ⟨.invalidType (.scalar (.integer 1)) "a string", ⟨1, 9⟩⟩).field = "1" := by decide +kernel
  refine ⟨_, _, rfl, hread, hfield, ?_, ?_, ?_⟩
  · rw [hfield]
    decide
  · rw [hfield]
    intro field
    cases field <;> decide
  · have hvalues : (Json.tokens "\x7b\"text\":1\x7d".toList).map Token.value
        = [.ok .null, .ok (.text "text"), .ok .null, .ok (.integer 1), .ok .null, .ok .null] := rfl
    intro t ht key hkey
    have hmem := List.mem_map_of_mem (f := Token.value) ht
    rw [hvalues, hkey] at hmem
    obtain rfl : key = "text" := by simpa using hmem
    rw [hfield]
    decide

end Softcode.Request
