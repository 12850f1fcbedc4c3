import Softcode.Json.Token
import Softcode.Json.Writer

/-!
# The grammar of JSON

`Written` relates the texts of JSON to the values they stand for, rule by rule as the format is
defined: with blanks around every value and every name, with every spelling of a string, with the
members of an object in any order and as often as they come. Which number a numeral stands for is
left open.

The writer keeps to the grammar: both of its forms are texts of the value that was written
(`written_toString`). This is said of values without numbers (`IsPlain`), which is what requests and
catalogues are made of.
-/

namespace Softcode.Json

/-! ## Strings -/

/-- The letters that may follow a backslash, with the characters they stand for. -/
def letters : List (Char × Char) :=
  [('"', '"'), ('\\', '\\'), ('/', '/'), ('b', '\x08'), ('f', '\x0c'), ('n', '\n'), ('r', '\r'),
    ('t', '\t')]

/-- The first half of the surrogate pair of a character. -/
def highUnit (c : Char) : Nat := 0xD800 + (c.toNat - 0x10000) / 0x400

/-- The second half of the surrogate pair of a character. -/
def lowUnit (c : Char) : Nat := 0xDC00 + (c.toNat - 0x10000) % 0x400

/-- The text goes on with the second half of a surrogate pair. -/
def StartsLow (text : List Char) : Prop :=
  ∃ a b c d n rest, text = '\\' :: 'u' :: a :: b :: c :: d :: rest
    ∧ Text.hexValue? [a, b, c, d] = some n ∧ isLowSurrogate n = true

/-- What the text between two quotes stands for: some characters, or none if half of a surrogate
pair stands alone in it. -/
inductive Spells : List Char → Option (List Char) → Prop
  | nil : Spells [] (some [])
  | plain {c : Char} {body : List Char} {s : Option (List Char)} (hc : 0x20 ≤ c.toNat)
      (hquote : c ≠ '"') (hslash : c ≠ '\\') (h : Spells body s) :
      Spells (c :: body) (s.map (c :: ·))
  | letter {e c : Char} {body : List Char} {s : Option (List Char)} (he : (e, c) ∈ letters)
      (h : Spells body s) : Spells ('\\' :: e :: body) (s.map (c :: ·))
  /-- a character by its only code unit -/
  | unit {x a b c d : Char} {body : List Char} {s : Option (List Char)}
      (hx : Text.hexValue? [a, b, c, d] = some x.toNat) (h : Spells body s) :
      Spells ('\\' :: 'u' :: a :: b :: c :: d :: body) (s.map (x :: ·))
  /-- a character by both of its code units -/
  | pair {x a b c d a' b' c' d' : Char} {body : List Char} {s : Option (List Char)}
      (hx : 0x10000 ≤ x.toNat) (hhigh : Text.hexValue? [a, b, c, d] = some (highUnit x))
      (hlow : Text.hexValue? [a', b', c', d'] = some (lowUnit x)) (h : Spells body s) :
      Spells ('\\' :: 'u' :: a :: b :: c :: d :: '\\' :: 'u' :: a' :: b' :: c' :: d' :: body)
        (s.map (x :: ·))
  | loneLow {a b c d : Char} {n : Nat} {body : List Char} {s : Option (List Char)}
      (hn : Text.hexValue? [a, b, c, d] = some n) (hlow : isLowSurrogate n = true)
      (h : Spells body s) : Spells ('\\' :: 'u' :: a :: b :: c :: d :: body) none
  | loneHigh {a b c d : Char} {n : Nat} {body : List Char} {s : Option (List Char)}
      (hn : Text.hexValue? [a, b, c, d] = some n) (hhigh : isHighSurrogate n = true)
      (hnext : ¬StartsLow body) (h : Spells body s) :
      Spells ('\\' :: 'u' :: a :: b :: c :: d :: body) none

/-- The texts of a string, and of strings without a value. -/
def IsString (s : Option String) (text : List Char) : Prop :=
  ∃ body, Spells body (s.map String.toList) ∧ text = '"' :: body ++ ['"']

/-! ## Numerals -/

/-- One digit or more. -/
def IsDigits (ds : List Char) : Prop := ds ≠ [] ∧ ∀ d ∈ ds, d.isDigit = true

/-- A sign, digits without a zero in front of others, a fraction and an exponent. -/
def IsNumeral (text : List Char) : Prop :=
  ∃ sign whole fraction exponent, text = sign ++ whole ++ fraction ++ exponent
    ∧ sign ∈ [[], ['-']]
    ∧ IsDigits whole ∧ (whole.head? = some '0' → whole = ['0'])
    ∧ (fraction = [] ∨ ∃ ds, IsDigits ds ∧ fraction = '.' :: ds)
    ∧ (exponent = [] ∨ ∃ e ∈ ['e', 'E'], ∃ sign ∈ [[], ['+'], ['-']], ∃ ds, IsDigits ds
      ∧ exponent = e :: sign ++ ds)

/-- What a numeral may stand for: a number, or nothing if it is out of range. -/
def IsNumber : Json → Prop
  | .integer _ | .real _ | .unreadable => True
  | _ => False

/-! ## Values -/

/-- Blanks, or nothing. -/
def IsBlanks (text : List Char) : Prop := ∀ c ∈ text, isBlank c = true

/-- What a text can be a text of. -/
inductive Phrase where
  | value (v : Json)
  /-- a value with blanks around it -/
  | element (v : Json)
  /-- the items of a list that has some -/
  | elements (vs : List Json)
  /-- a name and its value; the name is missing if it has no value -/
  | member (m : Option String × Json)
  /-- the members of an object that has some -/
  | members (ms : List (Option String × Json))
  | object (ms : List (Option String × Json))

/-- The texts of a phrase. -/
inductive Written : Phrase → List Char → Prop
  | null : Written (.value .null) "null".toList
  | flag (b : Bool) : Written (.value (.flag b)) (flagText b)
  | text {s : String} {text : List Char} (h : IsString (some s) text) :
      Written (.value (.text s)) text
  | unreadable {text : List Char} (h : IsString none text) : Written (.value .unreadable) text
  | number {v : Json} {text : List Char} (hv : v.IsNumber) (h : IsNumeral text) :
      Written (.value v) text
  | emptyList {bs : List Char} (hbs : IsBlanks bs) :
      Written (.value (.list [])) ('[' :: bs ++ [']'])
  | list {vs : List Json} {text : List Char} (h : Written (.elements vs) text) :
      Written (.value (.list vs)) ('[' :: text ++ [']'])
  | named {ms : List (String × Json)} {text : List Char}
      (h : Written (.object (ms.map fun m => (some m.1, m.2))) text) :
      Written (.value (.object ms)) text
  /-- an object with a name that has no value -/
  | unnamed {ms : List (Option String × Json)} {text : List Char} (hms : ∃ m ∈ ms, m.1 = none)
      (h : Written (.object ms) text) : Written (.value .unreadable) text
  | element {v : Json} {before text after : List Char} (hbefore : IsBlanks before)
      (h : Written (.value v) text) (hafter : IsBlanks after) :
      Written (.element v) (before ++ (text ++ after))
  | lastElement {v : Json} {text : List Char} (h : Written (.element v) text) :
      Written (.elements [v]) text
  | nextElement {v : Json} {vs : List Json} {text rest : List Char}
      (h : Written (.element v) text) (hrest : Written (.elements vs) rest) :
      Written (.elements (v :: vs)) (text ++ ',' :: rest)
  | member {name : Option String} {v : Json} {before text after rest : List Char}
      (hbefore : IsBlanks before) (hname : IsString name text) (hafter : IsBlanks after)
      (h : Written (.element v) rest) :
      Written (.member (name, v)) (before ++ (text ++ (after ++ ':' :: rest)))
  | lastMember {m : Option String × Json} {text : List Char} (h : Written (.member m) text) :
      Written (.members [m]) text
  | nextMember {m : Option String × Json} {ms : List (Option String × Json)}
      {text rest : List Char} (h : Written (.member m) text) (hrest : Written (.members ms) rest) :
      Written (.members (m :: ms)) (text ++ ',' :: rest)
  | emptyObject {bs : List Char} (hbs : IsBlanks bs) : Written (.object []) ('{' :: bs ++ ['}'])
  | object {ms : List (Option String × Json)} {text : List Char} (h : Written (.members ms) text) :
      Written (.object ms) ('{' :: text ++ ['}'])

/-- A value without numbers that has a text. -/
inductive IsPlain : Json → Prop
  | null : IsPlain .null
  | flag (b : Bool) : IsPlain (.flag b)
  | text (s : String) : IsPlain (.text s)
  | list {vs : List Json} (h : ∀ v ∈ vs, IsPlain v) : IsPlain (.list vs)
  | object {ms : List (String × Json)} (h : ∀ m ∈ ms, IsPlain m.2) : IsPlain (.object ms)

/-- A text under a name, or none, is plain. -/
theorem isPlain_member? (name : String) (value : Option String) :
    ∀ m ∈ member? name (value.map .text), m.2.IsPlain := by
  intro m hm
  cases value with
  | none => exact absurd hm List.not_mem_nil
  | some s =>
      rw [List.mem_singleton.mp hm]
      exact .text s

/-! ## The writer -/

/-- The escape of a control character reads back as its code. -/
theorem hexValue?_hexLower : ∀ n < 0x20,
    (Text.hexLower 4 n).length = 4 ∧ Text.hexValue? (Text.hexLower 4 n) = some n := by
  decide

/-- An escaped character and a body spell the character and what the body spells. -/
theorem Spells.escapeChar {body : List Char} {s : Option (List Char)} (h : Spells body s)
    (c : Char) : Spells (escapeChar c ++ body) (s.map (c :: ·)) := by
  unfold Json.escapeChar
  split
  iterate 7 exact h.letter (by decide)
  next hquote hslash _ _ _ _ _ =>
    split
    · next hcontrol =>
      obtain ⟨hlength, hvalue⟩ := hexValue?_hexLower c.toNat hcontrol
      match hdigits : Text.hexLower 4 c.toNat, hlength with
      | [_, _, _, _], _ =>
          rw [hdigits] at hvalue
          exact h.unit hvalue
    · next hcontrol => exact h.plain (Nat.le_of_not_lt hcontrol) hquote hslash

/-- The quoted text is a string of the grammar that stands for the text. -/
theorem isString_quote (s : String) : IsString (some s) (quote s) := by
  refine ⟨s.toList.flatMap escapeChar, ?_, rfl⟩
  rw [Option.map_some]
  induction s.toList with
  | nil => exact .nil
  | cons c cs ih => exact ih.escapeChar c

theorem isBlanks_nil : IsBlanks [] := fun _ h => absurd h List.not_mem_nil

theorem isBlanks_space : IsBlanks [' '] := by
  intro c hc
  rw [List.mem_singleton.mp hc]
  decide

/-- A line break with its indentation is blank. -/
theorem isBlanks_newline (level : Nat) : IsBlanks (newline level) := by
  intro c hc
  rcases List.mem_cons.mp hc with rfl | hspace
  · decide
  · rw [List.eq_of_mem_replicate hspace]
    decide

/-- Blanks behind blanks are blanks. -/
theorem IsBlanks.append {a b : List Char} (ha : IsBlanks a) (hb : IsBlanks b) :
    IsBlanks (a ++ b) := by
  intro c hc
  exact (List.mem_append.mp hc).elim (ha c) (hb c)

namespace Written

/-- A value without blanks around it. -/
theorem bare {v : Json} {text : List Char} (h : Written (.value v) text) :
    Written (.element v) text := by
  have hbare := Written.element isBlanks_nil h isBlanks_nil
  rwa [List.nil_append, List.append_nil] at hbare

/-- Commas make a phrase of its parts, if the last part and each part before a comma do. -/
theorem join {α : Type} (part : α → Phrase) (whole : List α → Phrase)
    (hlast : ∀ {a text}, Written (part a) text → Written (whole [a]) text)
    (hnext : ∀ {a as text rest}, Written (part a) text → Written (whole as) rest →
      Written (whole (a :: as)) (text ++ ',' :: rest))
    {f : α → List Char} {as : List α} (has : as ≠ []) (h : ∀ a ∈ as, Written (part a) (f a)) :
    Written (whole as) ([','].intercalate (as.map f)) := by
  induction as with
  | nil => exact absurd rfl has
  | cons a more ih =>
      have ha := h a List.mem_cons_self
      cases more with
      | nil => simpa using hlast ha
      | cons b more =>
          have hmore := ih (by simp) fun c hc => h c (List.mem_cons_of_mem a hc)
          simpa [List.intercalate_cons_cons] using hnext ha hmore

/-- Written elements with commas between them are the elements of a list. -/
theorem join_elements {f : Json → List Char} {vs : List Json} (hvs : vs ≠ [])
    (h : ∀ v ∈ vs, Written (.element v) (f v)) :
    Written (.elements vs) ([','].intercalate (vs.map f)) :=
  join .element .elements lastElement nextElement hvs h

/-- Written members with commas between them are the members of an object. -/
theorem join_members {f : String × Json → List Char} {ms : List (String × Json)} (hms : ms ≠ [])
    (h : ∀ m ∈ ms, Written (.member (some m.1, m.2)) (f m)) :
    Written (.members (ms.map fun m => (some m.1, m.2))) ([','].intercalate (ms.map f)) :=
  join (fun m => .member (some m.1, m.2)) (fun ms => .members (ms.map fun m => (some m.1, m.2)))
    lastMember nextMember hms h

/-- More blanks may follow an element. -/
theorem element_append {v : Json} {text bs : List Char} (h : Written (.element v) text)
    (hbs : IsBlanks bs) : Written (.element v) (text ++ bs) := by
  cases h with
  | element hbefore hv hafter =>
      rw [List.append_assoc, List.append_assoc]
      exact .element hbefore hv (hafter.append hbs)

/-- Blanks can follow the elements of a list. -/
theorem elements_append {vs : List Json} {text bs : List Char} (h : Written (.elements vs) text)
    (hbs : IsBlanks bs) : Written (.elements vs) (text ++ bs) := by
  induction vs generalizing text with
  | nil => nomatch h
  | cons v more ih =>
      cases h with
      | lastElement h => exact (h.element_append hbs).lastElement
      | nextElement h hrest =>
          rw [List.append_assoc, List.cons_append]
          exact h.nextElement (ih hrest)

/-- Blanks can follow the members of an object. -/
theorem members_append {ms : List (Option String × Json)} {text bs : List Char}
    (h : Written (.members ms) text) (hbs : IsBlanks bs) : Written (.members ms) (text ++ bs) := by
  have hmember : ∀ {m text}, Written (.member m) text → Written (.member m) (text ++ bs) := by
    intro m text h
    cases h with
    | member hbefore hname hafter hv =>
        simp only [List.append_assoc, List.cons_append]
        exact .member hbefore hname hafter (hv.element_append hbs)
  induction ms generalizing text with
  | nil => nomatch h
  | cons m more ih =>
      cases h with
      | lastMember h => exact (hmember h).lastMember
      | nextMember h hrest =>
          rw [List.append_assoc, List.cons_append]
          exact h.nextMember (ih hrest)

end Written

/-- A function that puts commas between the texts of its items joins them. -/
theorem eq_intercalate {α : Type} {g : List α → List Char} {f : α → List Char} (hnil : g [] = [])
    (hone : ∀ a, g [a] = f a) (hmore : ∀ a b more, g (a :: b :: more) = f a ++ ',' :: g (b :: more))
    (as : List α) : g as = [','].intercalate (as.map f) := by
  induction as with
  | nil => exact hnil
  | cons a more ih =>
      cases more with
      | nil => simp [hone]
      | cons b more => simp [hmore, ih, List.intercalate_cons_cons]

/-- The compact items are joined with commas. -/
theorem compactItems_eq (vs : List Json) :
    compactItems vs = [','].intercalate (vs.map compact) :=
  eq_intercalate rfl (fun _ => rfl) (fun _ _ _ => rfl) vs

/-- The compact members are joined with commas. -/
theorem compactMembers_eq (ms : List (String × Json)) :
    compactMembers ms = [','].intercalate (ms.map fun m => quote m.1 ++ ':' :: compact m.2) :=
  eq_intercalate rfl (fun _ => rfl) (fun _ _ _ => rfl) ms

/-- The indented items are joined with commas. -/
theorem prettyItems_eq (level : Nat) (vs : List Json) :
    prettyItems level vs
      = [','].intercalate (vs.map fun v => newline level ++ prettyAt level v) :=
  eq_intercalate rfl (fun _ => rfl) (fun _ _ _ => rfl) vs

/-- The indented members are joined with commas. -/
theorem prettyMembers_eq (level : Nat) (ms : List (String × Json)) :
    prettyMembers level ms = [','].intercalate
      (ms.map fun m => newline level ++ quote m.1 ++ ':' :: ' ' :: prettyAt level m.2) :=
  eq_intercalate rfl (fun _ => rfl) (fun _ _ _ => rfl) ms

/-- A value on one line is a text of the value. -/
theorem written_compact {v : Json} (h : v.IsPlain) : Written (.value v) (compact v) := by
  induction h with
  | null => exact .null
  | flag b => exact .flag b
  | text s => exact .text (isString_quote s)
  | @list vs _ ih =>
      cases vs with
      | nil => exact .emptyList isBlanks_nil
      | cons v more =>
          rw [compact, compactItems_eq]
          exact .list (Written.join_elements (by simp) fun u hu => (ih u hu).bare)
  | @object ms _ ih =>
      refine .named ?_
      cases ms with
      | nil => exact .emptyObject isBlanks_nil
      | cons m more =>
          rw [compact, compactMembers_eq]
          refine .object (Written.join_members (by simp) fun n hn => ?_)
          exact .member isBlanks_nil (isString_quote n.1) isBlanks_nil (ih n hn).bare

/-- A value over several lines is a text of the value. -/
theorem written_prettyAt {v : Json} (h : v.IsPlain) (level : Nat) :
    Written (.value v) (prettyAt level v) := by
  induction h generalizing level with
  | null => exact .null
  | flag b => exact .flag b
  | text s => exact .text (isString_quote s)
  | @list vs _ ih =>
      cases vs with
      | nil => exact .emptyList isBlanks_nil
      | cons v more =>
          rw [prettyAt, prettyItems_eq]
          refine .list (Written.elements_append ?_ (isBlanks_newline level))
          refine Written.join_elements (by simp) fun u hu => ?_
          simpa using Written.element (isBlanks_newline _) (ih u hu (level + 1)) isBlanks_nil
  | @object ms _ ih =>
      refine .named ?_
      cases ms with
      | nil => exact .emptyObject isBlanks_nil
      | cons m more =>
          rw [prettyAt, prettyMembers_eq]
          refine .object (Written.members_append ?_ (isBlanks_newline level))
          refine Written.join_members (by simp) fun n hn => ?_
          have hvalue := Written.element isBlanks_space (ih n hn (level + 1)) isBlanks_nil
          simpa using Written.member (isBlanks_newline (level + 1)) (isString_quote n.1)
            isBlanks_nil hvalue

/-- Both forms of the writer are texts of the value. -/
theorem written_toString {v : Json} (h : v.IsPlain) {text : String}
    (htext : text ∈ [v.toCompact, v.toPretty]) : Written (.value v) text.toList := by
  simp only [List.mem_cons, List.not_mem_nil, or_false] at htext
  rcases htext with rfl | rfl
  · rw [toCompact, String.toList_ofList]
    exact written_compact h
  · rw [toPretty, String.toList_ofList]
    exact written_prettyAt h 0

end Softcode.Json
