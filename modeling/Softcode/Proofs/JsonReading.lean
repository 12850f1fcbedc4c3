import Softcode.Json.Reader
import Softcode.Proofs.JsonTokens

/-!
# Reading what has been written

The reader keeps a stack of the lists and objects that are open. A text of a phrase leaves the stack
as it was and hands its value on, whatever comes after it (`Reads`). Every rule of the grammar keeps
this, with the rest of the text and the stack arbitrary: lists and objects open a frame that their
end takes off. A text of a value is therefore read as that value (`parse?_written`).
-/

namespace Softcode.Json

/-- A value may come at this stage. -/
def Stage.TakesValue (stage : Stage) : Prop := stage = .value ∨ stage = .firstItem

/-- A member may come at this stage, after others. -/
def Stage.TakesMember (stage : Stage) (done : List (String × Json)) : Prop :=
  stage = .member done ∨ stage = .firstMember done

/-! ## One token -/

section Steps

variable {stage : Stage} {stack : List Frame} {t : Token} {more : List Token}
  {done : List (String × Json)}

/-- Before the first item of a list, any token but its end is read as where a value is expected. -/
theorem readFrom_takesValue (hstage : stage.TakesValue) (hshape : t.shape ≠ .closeBracket) :
    readFrom stage stack (t :: more) = readFrom .value stack (t :: more) := by
  rcases hstage with rfl | rfl
  · rfl
  · cases t with
    | mk shape => cases shape <;> first | rfl | exact absurd rfl hshape

/-- Before the first member of an object, any token but its end is read as where a member is. -/
theorem readFrom_takesMember (hstage : stage.TakesMember done) (hshape : t.shape ≠ .closeBrace) :
    readFrom stage stack (t :: more) = readFrom (.member done) stack (t :: more) := by
  rcases hstage with rfl | rfl
  · rfl
  · cases t with
    | mk shape => cases shape <;> first | rfl | exact absurd rfl hshape

/-- A string or a word is a value as soon as it is read. -/
theorem readFrom_scalar (hstage : stage.TakesValue) (hstop : t.stop = none)
    (hshape : t.shape ∈ [.string, .word]) {v : Json} (hv : t.value.toOption = some v) :
    readFrom stage stack (t :: more) = readFrom (.after v) stack more := by
  have hvalue := t.value_of_toOption hv
  simp only [List.mem_cons, List.not_mem_nil, or_false] at hshape
  rw [readFrom_takesValue hstage (by rcases hshape with h | h <;> simp [h])]
  cases t
  cases hstop
  cases hvalue
  rcases hshape with hshape | hshape
  all_goals
    cases hshape
    rfl

/-- A bracket opens a frame for a list. -/
theorem readFrom_openBracket (hstage : stage.TakesValue) (hstop : t.stop = none)
    (hshape : t.shape = .openBracket) :
    readFrom stage stack (t :: more) = readFrom .firstItem (.list [] :: stack) more := by
  rw [readFrom_takesValue hstage (by simp [hshape])]
  cases t
  cases hstop
  cases hshape
  rfl

/-- A brace starts an object without members. -/
theorem readFrom_openBrace (hstage : stage.TakesValue) (hstop : t.stop = none)
    (hshape : t.shape = .openBrace) :
    readFrom stage stack (t :: more) = readFrom (.firstMember []) stack more := by
  rw [readFrom_takesValue hstage (by simp [hshape])]
  cases t
  cases hstop
  cases hshape
  rfl

/-- The name of a member is kept until its value comes. -/
theorem readFrom_name (hstage : stage.TakesMember done) (hstop : t.stop = none)
    (hshape : t.shape = .string) {name : String} (hname : t.value.toOption = some (.text name)) :
    readFrom stage stack (t :: more) = readFrom (.colon done name) stack more := by
  have hvalue := t.value_of_toOption hname
  rw [readFrom_takesMember hstage (by simp [hshape])]
  cases t
  cases hstop
  cases hshape
  cases hvalue
  rfl

/-- A colon opens a frame for the member whose name came before it. -/
theorem readFrom_colon (hshape : t.shape = .colon) {name : String} :
    readFrom (.colon done name) stack (t :: more)
      = readFrom .value (.object done name :: stack) more := by
  cases t
  cases hshape
  rfl

/-- A comma adds an item to the list that is open and asks for another value. -/
theorem readFrom_nextItem (hshape : t.shape = .comma) {v : Json} {items : List Json} :
    readFrom (.after v) (.list items :: stack) (t :: more)
      = readFrom .value (.list (v :: items) :: stack) more := by
  cases t
  cases hshape
  rfl

/-- The end of a list takes off its frame and hands on the items in their order. -/
theorem readFrom_lastItem (hshape : t.shape = .closeBracket) {v : Json} {items : List Json} :
    readFrom (.after v) (.list items :: stack) (t :: more)
      = readFrom (.after (.list (items.reverse ++ [v]))) stack more := by
  rw [← List.reverse_cons]
  cases t
  cases hshape
  rfl

/-- A list that ends where its first item could come is empty. -/
theorem readFrom_noItem (hshape : t.shape = .closeBracket) :
    readFrom .firstItem (.list [] :: stack) (t :: more)
      = readFrom (.after (.list [])) stack more := by
  cases t
  cases hshape
  rfl

/-- A comma adds a member to the object that is open and asks for another one. -/
theorem readFrom_nextMember (hshape : t.shape = .comma) {v : Json} {name : String} :
    readFrom (.after v) (.object done name :: stack) (t :: more)
      = readFrom (.member ((name, v) :: done)) stack more := by
  cases t
  cases hshape
  rfl

/-- The end of an object takes off its frame and hands on the members in their order. -/
theorem readFrom_lastMember (hshape : t.shape = .closeBrace) {v : Json} {name : String} :
    readFrom (.after v) (.object done name :: stack) (t :: more)
      = readFrom (.after (.object (done.reverse ++ [(name, v)]))) stack more := by
  rw [← List.reverse_cons]
  cases t
  cases hshape
  rfl

/-- An object that ends where its first member could come is empty. -/
theorem readFrom_noMember (hshape : t.shape = .closeBrace) :
    readFrom (.firstMember []) stack (t :: more) = readFrom (.after (.object [])) stack more := by
  cases t
  cases hshape
  rfl

/-- At the end of the text, with nothing open, the value is the result. -/
theorem readFrom_finish (hshape : t.shape = .finish) {v : Json} :
    readFrom (.after v) [] (t :: more) = some v := by
  cases t
  cases hshape
  rfl

end Steps

/-! ## A phrase -/

/-- What the reader makes of a phrase: it hands the value on with the stack as it was. -/
def Reads : Phrase → List Char → Prop
  | .value v, cs | .element v, cs =>
    v.IsPlain → ∀ stage stack rest ts, stage.TakesValue → Cuts (cs ++ rest) ts →
      ∃ more, Cuts rest more ∧ readFrom stage stack ts = readFrom (.after v) stack more
  | .elements vs, cs =>
    (∀ v ∈ vs, v.IsPlain) → ∀ stage done stack rest ts, stage.TakesValue →
      Cuts (cs ++ ']' :: rest) ts →
      ∃ more, Cuts rest more ∧ readFrom stage (.list done :: stack) ts
        = readFrom (.after (.list (done.reverse ++ vs))) stack more
  | .member (name, v), cs =>
    v.IsPlain → ∀ s, name = some s → ∀ stage done stack rest ts, stage.TakesMember done →
      Cuts (cs ++ rest) ts →
      ∃ more, Cuts rest more
        ∧ readFrom stage stack ts = readFrom (.after v) (.object done s :: stack) more
  | .members ms, cs =>
    ∀ named, ms = named.map (fun m => (some m.1, m.2)) → (∀ m ∈ named, m.2.IsPlain) →
      ∀ stage done stack rest ts, stage.TakesMember done → Cuts (cs ++ '}' :: rest) ts →
      ∃ more, Cuts rest more
        ∧ readFrom stage stack ts = readFrom (.after (.object (done.reverse ++ named))) stack more
  | .object ms, cs =>
    ∀ named, ms = named.map (fun m => (some m.1, m.2)) → (∀ m ∈ named, m.2.IsPlain) →
      ∀ stage stack rest ts, stage.TakesValue → Cuts (cs ++ rest) ts →
      ∃ more, Cuts rest more
        ∧ readFrom stage stack ts = readFrom (.after (.object named)) stack more

namespace Reads

variable {v : Json} {vs : List Json} {m : Option String × Json} {ms : List (Option String × Json)}
  {text rest : List Char}

/-- The text of a scalar is a single token. -/
theorem scalar (hv : v.IsScalar) (h : Written (.value v) text) : Reads (.value v) text := by
  intro _ stage stack rest ts hstage hts
  obtain ⟨t, more, rfl, hstop, ⟨hshape, hvalue⟩, hmore⟩ := hts.scalar hv h
  exact ⟨more, hmore, readFrom_scalar hstage hstop hshape hvalue⟩

/-- Of numbers, and of what has no value, nothing is said. -/
theorem of_isNumber (hv : v.IsNumber) : Reads (.value v) text := by
  intro hplain
  cases hplain <;> exact hv.elim

/-- Brackets with nothing but blanks between them are read as the empty list. -/
theorem emptyList (h : IsBlanks text) : Reads (.value (.list [])) ('[' :: text ++ [']']) := by
  intro _ stage stack rest ts hstage hts
  simp only [List.cons_append, List.append_assoc] at hts
  obtain ⟨t, ts, rfl, hstop, hshape, hts⟩ := hts.mark .openBracket (by decide)
  obtain ⟨u, more, rfl, -, hclose, hmore⟩ := (hts.skip h).mark .closeBracket (by decide)
  refine ⟨more, hmore, ?_⟩
  rw [readFrom_openBracket hstage hstop hshape, readFrom_noItem hclose]

/-- Items in brackets are read as the list of them. -/
theorem list (h : Reads (.elements vs) text) :
    Reads (.value (.list vs)) ('[' :: text ++ [']']) := by
  intro hplain stage stack rest ts hstage hts
  cases hplain with
  | list hplain =>
      simp only [List.cons_append, List.append_assoc] at hts
      obtain ⟨t, ts, rfl, hstop, hshape, hts⟩ := hts.mark .openBracket (by decide)
      obtain ⟨more, hmore, hread⟩ := h hplain .firstItem [] stack rest ts (Or.inr rfl) hts
      exact ⟨more, hmore, (readFrom_openBracket hstage hstop hshape).trans hread⟩

/-- An object whose members all have names is read as a value. -/
theorem named {named : List (String × Json)}
    (h : Reads (.object (named.map fun m => (some m.1, m.2))) text) :
    Reads (.value (.object named)) text := by
  intro hplain
  cases hplain with
  | object hplain => exact h named rfl hplain

/-- Blanks around a value change nothing. -/
theorem element {before after : List Char} (hbefore : IsBlanks before) (h : Reads (.value v) text)
    (hafter : IsBlanks after) : Reads (.element v) (before ++ (text ++ after)) := by
  intro hplain stage stack rest ts hstage hts
  rw [List.append_assoc, List.append_assoc] at hts
  obtain ⟨more, hmore, hread⟩ := h hplain stage stack _ ts hstage (hts.skip hbefore)
  exact ⟨more, hmore.skip hafter, hread⟩

/-- One item is a list of items. -/
theorem lastElement (h : Reads (.element v) text) : Reads (.elements [v]) text := by
  intro hplain stage done stack rest ts hstage hts
  obtain ⟨ts', hts', hread⟩ := h (hplain v List.mem_cons_self) stage _ _ ts hstage hts
  obtain ⟨u, more, rfl, -, hclose, hmore⟩ := hts'.mark .closeBracket (by decide)
  exact ⟨more, hmore, hread.trans (readFrom_lastItem hclose)⟩

/-- An item, a comma and further items are items. -/
theorem nextElement (h : Reads (.element v) text) (hrest : Reads (.elements vs) rest) :
    Reads (.elements (v :: vs)) (text ++ ',' :: rest) := by
  intro hplain stage done stack rest ts hstage hts
  rw [List.append_assoc, List.cons_append] at hts
  obtain ⟨ts', hts', hread⟩ := h (hplain v List.mem_cons_self) stage _ _ ts hstage hts
  obtain ⟨u, ts', rfl, -, hcomma, hts'⟩ := hts'.mark .comma (by decide)
  have hplain' := fun w hw => hplain w (List.mem_cons_of_mem v hw)
  obtain ⟨more, hmore, hnext⟩ := hrest hplain' .value (v :: done) stack _ ts' (Or.inl rfl) hts'
  refine ⟨more, hmore, ?_⟩
  rw [hread, readFrom_nextItem hcomma, hnext, List.reverse_cons, List.append_assoc]
  rfl

/-- A name, a colon and a value are a member, with blanks wherever the grammar has them. -/
theorem member {name : Option String} {before after : List Char} (hbefore : IsBlanks before)
    (hname : IsString name text) (hafter : IsBlanks after) (h : Reads (.element v) rest) :
    Reads (.member (name, v)) (before ++ (text ++ (after ++ ':' :: rest))) := by
  rintro hplain s rfl stage done stack rest ts hstage hts
  simp only [List.append_assoc, List.cons_append] at hts
  obtain ⟨t, ts, rfl, hstop, ⟨hshape, hvalue⟩, hts⟩ := (hts.skip hbefore).string hname
  obtain ⟨u, ts, rfl, -, hcolon, hts⟩ := (hts.skip hafter).mark .colon (by decide)
  obtain ⟨more, hmore, hread⟩ := h hplain .value (.object done s :: stack) _ ts (Or.inl rfl) hts
  refine ⟨more, hmore, ?_⟩
  rw [readFrom_name hstage hstop hshape hvalue, readFrom_colon hcolon, hread]

/-- One member is a list of members. -/
theorem lastMember (h : Reads (.member m) text) : Reads (.members [m]) text := by
  intro named hnamed hplain stage done stack rest ts hstage hts
  obtain ⟨⟨name, v⟩, rfl, rfl⟩ := List.map_eq_singleton_iff.mp hnamed.symm
  obtain ⟨ts', hts', hread⟩ :=
    h (hplain _ List.mem_cons_self) name rfl stage done stack _ ts hstage hts
  obtain ⟨u, more, rfl, -, hclose, hmore⟩ := hts'.mark .closeBrace (by decide)
  exact ⟨more, hmore, hread.trans (readFrom_lastMember hclose)⟩

/-- A member, a comma and further members are members. -/
theorem nextMember (h : Reads (.member m) text) (hrest : Reads (.members ms) rest) :
    Reads (.members (m :: ms)) (text ++ ',' :: rest) := by
  intro named hnamed hplain stage done stack rest ts hstage hts
  obtain ⟨⟨name, v⟩, named, rfl, rfl, rfl⟩ := List.map_eq_cons_iff.mp hnamed.symm
  rw [List.append_assoc, List.cons_append] at hts
  obtain ⟨ts', hts', hread⟩ :=
    h (hplain _ List.mem_cons_self) name rfl stage done stack _ ts hstage hts
  obtain ⟨u, ts', rfl, -, hcomma, hts'⟩ := hts'.mark .comma (by decide)
  have hplain' := fun n hn => hplain n (List.mem_cons_of_mem (name, v) hn)
  obtain ⟨more, hmore, hnext⟩ :=
    hrest named rfl hplain' _ ((name, v) :: done) stack _ ts' (Or.inl rfl) hts'
  refine ⟨more, hmore, ?_⟩
  rw [hread, readFrom_nextMember hcomma, hnext, List.reverse_cons, List.append_assoc]
  rfl

/-- Braces with nothing but blanks between them are read as the object without members. -/
theorem emptyObject (h : IsBlanks text) : Reads (.object []) ('{' :: text ++ ['}']) := by
  intro named hnamed _ stage stack rest ts hstage hts
  obtain rfl := List.map_eq_nil_iff.mp hnamed.symm
  simp only [List.cons_append, List.append_assoc] at hts
  obtain ⟨t, ts, rfl, hstop, hshape, hts⟩ := hts.mark .openBrace (by decide)
  obtain ⟨u, more, rfl, -, hclose, hmore⟩ := (hts.skip h).mark .closeBrace (by decide)
  refine ⟨more, hmore, ?_⟩
  rw [readFrom_openBrace hstage hstop hshape, readFrom_noMember hclose]

/-- Members in braces are read as the object of them. -/
theorem object (h : Reads (.members ms) text) : Reads (.object ms) ('{' :: text ++ ['}']) := by
  intro named hnamed hplain stage stack rest ts hstage hts
  simp only [List.cons_append, List.append_assoc] at hts
  obtain ⟨t, ts, rfl, hstop, hshape, hts⟩ := hts.mark .openBrace (by decide)
  obtain ⟨more, hmore, hread⟩ :=
    h named hnamed hplain (.firstMember []) [] stack rest ts (Or.inr rfl) hts
  exact ⟨more, hmore, (readFrom_openBrace hstage hstop hshape).trans hread⟩

end Reads

/-- Every text that the grammar derives for a phrase is read as that phrase. -/
theorem reads_written {phrase : Phrase} {text : List Char} (h : Written phrase text) :
    Reads phrase text := by
  induction h with
  | null => exact .scalar (v := .null) trivial .null
  | flag b => exact .scalar (v := .flag b) trivial (.flag b)
  | @text s _ hs => exact .scalar (v := .text s) trivial (.text hs)
  | unreadable _ => exact .of_isNumber (v := .unreadable) trivial
  | number hv _ => exact .of_isNumber hv
  | emptyList hbs => exact .emptyList hbs
  | list _ ih => exact .list ih
  | named _ ih => exact .named ih
  | unnamed _ _ _ => exact .of_isNumber (v := .unreadable) trivial
  | element hbefore _ hafter ih => exact .element hbefore ih hafter
  | lastElement _ ih => exact .lastElement ih
  | nextElement _ _ ih ihrest => exact .nextElement ih ihrest
  | member hbefore hname hafter _ ih => exact .member hbefore hname hafter ih
  | lastMember _ ih => exact .lastMember ih
  | nextMember _ _ ih ihrest => exact .nextMember ih ihrest
  | emptyObject hbs => exact .emptyObject hbs
  | object _ ih => exact .object ih

/-- A text of a value is read as that value. -/
theorem parse?_written {v : Json} (hv : v.IsPlain) {text : List Char}
    (h : Written (.element v) text) : parse? text = some v := by
  have hts := cuts_tokens text
  rw [← List.append_nil text] at hts
  obtain ⟨more, hmore, hread⟩ := reads_written h hv .value [] [] _ (Or.inl rfl) hts
  obtain ⟨t, rfl, hfinish⟩ := hmore.finish
  rw [List.append_nil] at hread
  rw [parse?, hread, readFrom_finish hfinish]

end Softcode.Json
