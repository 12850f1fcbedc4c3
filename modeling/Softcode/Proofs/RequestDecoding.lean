import Mathlib.Data.List.Nodup
import Mathlib.Data.List.Perm.Basic
import Softcode.Proofs.JsonTokens
import Softcode.Request.Reader

/-!
# Requests from their JSON form

A request is read from an object text exactly if the members of the object represent it: its fields
in any order, some of which may be left out (`Represents`). The reader sees a member at a time and
collects a draft; what it makes of all of them does not hang on their order, because a draft and
the members read so far are the same up to order (`Draft.acceptAll?_eq_some_iff`). It refuses a
member as soon as it has seen enough of it, so of a value of the wrong kind only the first token
counts.
-/

namespace Softcode.Request

open Json (Token Cuts Written IsBlanks)

/-- A member of an object; the name is missing if it has no value. -/
abbrev Member := Option String × Json

/-! ## Drafts -/

/-- A field is found by its name. -/
theorem Field.ofName?_eq_some_iff {name : String} {field : Field} :
    Field.ofName? name = some field ↔ name = field.name := by
  constructor
  · intro h
    exact (by simpa using List.find?_some h : field.name = name).symm
  · rintro rfl
    cases field <;> decide

theorem Field.name_injective : Function.Injective Field.name := by
  intro f g h
  have hg := Field.ofName?_eq_some_iff.mpr h
  exact (Option.some.inj (hg.symm.trans (Field.ofName?_eq_some_iff.mpr rfl))).symm

/-- The list of fields has them all. -/
theorem Field.mem_all (field : Field) : field ∈ Field.all := by
  cases field <;> decide

namespace Draft

/-- The value that a field has been given. -/
def value? (d : Draft) : Field → Option Json
  | .text => d.text.map .text
  | .dialectId => d.dialectId.map fun id => (id.map .text).getD .null
  | .strictMode => d.strictMode.map .flag
  | .checkSecurity => d.checkSecurity.map .flag
  | .checkBestPractices => d.checkBestPractices.map .flag

/-- A draft has a field when it has a value for it. -/
theorem has_eq (d : Draft) (field : Field) : d.has field = (d.value? field).isSome := by
  cases field <;> simp [has, value?]

/-- The fields make the draft. -/
theorem ext_value? {d e : Draft} (h : ∀ field, d.value? field = e.value? field) : d = e := by
  have hflag : Function.Injective Json.flag := fun _ _ => Json.flag.inj
  have htext : Function.Injective Json.text := fun _ _ => Json.text.inj
  have hdialect : Function.Injective fun id : Option String => (id.map Json.text).getD .null := by
    intro a b hab
    cases a <;> cases b <;> simp_all
  cases d
  cases e
  rw [Draft.mk.injEq]
  exact ⟨Option.map_injective htext (h .text), Option.map_injective hdialect (h .dialectId),
    Option.map_injective hflag (h .strictMode), Option.map_injective hflag (h .checkSecurity),
    Option.map_injective hflag (h .checkBestPractices)⟩

/-- Setting a field gives it the value and leaves the others. -/
theorem value?_set? {d e : Draft} {field : Field} {v : Json} (h : d.set? field v = some e) :
    e.value? field = some v ∧ ∀ other, other ≠ field → e.value? other = d.value? other := by
  revert h
  fun_cases set? d field v
  case case7 => exact fun h => nomatch h
  all_goals
    rintro ⟨rfl⟩
    refine ⟨rfl, ?_⟩
    intro other hother
    cases other <;> first | rfl | exact absurd rfl hother

/-- Whether a value can be set does not hang on the draft. -/
theorem set?_of_value? {d : Draft} {field : Field} {v : Json} (h : d.value? field = some v)
    (e : Draft) : ∃ e', e.set? field v = some e' := by
  cases field with
  | dialectId =>
      obtain ⟨id, -, rfl⟩ := Option.map_eq_some_iff.mp h
      cases id <;> exact ⟨_, rfl⟩
  | text | strictMode | checkSecurity | checkBestPractices =>
      obtain ⟨_, -, rfl⟩ := Option.map_eq_some_iff.mp h
      exact ⟨_, rfl⟩

/-- Only single tokens can be set. -/
theorem set?_of_not_isScalar {v : Json} (hv : ¬v.IsScalar) (d : Draft) (field : Field) :
    d.set? field v = none := by
  cases v with
  | null | flag _ | text _ => exact absurd trivial hv
  | integer _ | real _ | list _ | object _ | unreadable => cases field <;> rfl

/-- The members that make the draft, in the order of the fields. -/
def members (d : Draft) : List Member :=
  Field.all.filterMap fun field => (d.value? field).map fun v => (some field.name, v)

/-- The members of a draft are its values under the names of their fields. -/
theorem mem_members {d : Draft} {m : Member} :
    m ∈ d.members ↔ ∃ field, d.value? field = some m.2 ∧ m.1 = some field.name := by
  simp only [members, List.mem_filterMap, Option.map_eq_some_iff]
  constructor
  · rintro ⟨field, -, v, hv, rfl⟩
    exact ⟨field, hv, rfl⟩
  · rintro ⟨field, hv, hname⟩
    exact ⟨field, field.mem_all, m.2, hv, by rw [← hname]⟩

/-- The member under a field's name is the value of that field. -/
theorem value?_of_mem {d : Draft} {field : Field} {v : Json}
    (h : (some field.name, v) ∈ d.members) : d.value? field = some v := by
  obtain ⟨other, hv, hname⟩ := mem_members.mp h
  rw [Field.name_injective (Option.some.inj hname)]
  exact hv

/-- The members of a draft have different names. -/
theorem nodup_names (d : Draft) : (d.members.map Prod.fst).Nodup := by
  rw [members, List.map_filterMap]
  refine List.Nodup.filterMap ?_ (by decide : Field.all.Nodup)
  intro f g name hf hg
  simp only [Option.map_map, Option.mem_def, Option.map_eq_some_iff, Function.comp_apply,
    exists_and_right] at hf hg
  exact Field.name_injective (Option.some.inj (hf.2.trans hg.2.symm))

/-- Drafts with the same members are the same. -/
theorem eq_of_perm_members {d e : Draft} (h : d.members.Perm e.members) : d = e := by
  refine ext_value? fun field => Option.ext fun v => ?_
  have hmem : ∀ {d : Draft}, d.value? field = some v ↔ (some field.name, v) ∈ d.members := by
    intro d
    exact ⟨fun hv => mem_members.mpr ⟨field, hv, rfl⟩, value?_of_mem⟩
  rw [hmem, hmem]
  exact h.mem_iff

/-- Take a member in, if it is a field that the draft does not have yet. -/
def accept? (d : Draft) (m : Member) : Option Draft := do
  let field ← m.1.bind Field.ofName?
  if d.has field then none else d.set? field m.2

/-- Take members in, one after the other. -/
def acceptAll? (d : Draft) (ms : List Member) : Option Draft := ms.foldlM accept? d

theorem acceptAll?_cons (d : Draft) (m : Member) (ms : List Member) :
    d.acceptAll? (m :: ms) = (d.accept? m).bind fun e => e.acceptAll? ms := List.foldlM_cons

/-- A draft accepts a member under the name of a field without value, if the value is one of the
field's. -/
theorem accept?_eq_some_iff {d e : Draft} {m : Member} :
    d.accept? m = some e ↔ ∃ field, m.1 = some field.name ∧ d.value? field = none
      ∧ d.set? field m.2 = some e := by
  obtain ⟨name, v⟩ := m
  constructor
  · intro h
    obtain ⟨field, hfield, h⟩ := Option.bind_eq_some_iff.mp h
    obtain ⟨s, rfl, hs⟩ := Option.bind_eq_some_iff.mp hfield
    split at h
    · exact absurd h (by simp)
    · next hhas =>
      refine ⟨field, congrArg some (Field.ofName?_eq_some_iff.mp hs), ?_, h⟩
      rw [has_eq] at hhas
      simpa using hhas
  · rintro ⟨field, rfl, hvalue, hset⟩
    have hname : Field.ofName? field.name = some field := Field.ofName?_eq_some_iff.mpr rfl
    simp [accept?, hname, has_eq, hvalue, hset]

/-- A member that is taken in joins the members. -/
theorem perm_members_of_accept? {d e : Draft} {m : Member} (h : d.accept? m = some e) :
    e.members.Perm (m :: d.members) := by
  obtain ⟨field, hname, hnone, hset⟩ := accept?_eq_some_iff.mp h
  obtain ⟨hvalue, hothers⟩ := value?_set? hset
  -- the members change at the place of the field, and nowhere in front of it or behind it
  obtain ⟨front, back, hall⟩ := List.append_of_mem field.mem_all
  have hnodup : (front ++ field :: back).Nodup := hall ▸ (by decide : Field.all.Nodup)
  have hfield := (List.nodup_cons.mp (List.nodup_middle.mp hnodup)).1
  have hrest : ∀ fields ⊆ front ++ back,
      (fields.filterMap fun f => (e.value? f).map fun v => (some f.name, v))
        = fields.filterMap fun f => (d.value? f).map fun v => (some f.name, v) := by
    intro fields hfields
    refine List.filterMap_congr fun other hother => ?_
    rw [hothers other fun heq => hfield (heq ▸ hfields hother)]
  have hm : (some field.name, m.2) = m := by rw [← hname]
  rw [members, members, hall, List.filterMap_append, List.filterMap_append, List.filterMap_cons,
    List.filterMap_cons, hvalue, hnone, hrest front (List.subset_append_left _ _),
    hrest back (List.subset_append_right _ _)]
  simp only [Option.map_some, Option.map_none, hm]
  exact List.perm_middle

/-- A draft has no value for a field that comes once more without repeating a name. -/
theorem value?_of_nodup {d : Draft} {m : Member} {ms : List Member} {field : Field}
    (hname : m.1 = some field.name) (h : ((d.members ++ m :: ms).map Prod.fst).Nodup) :
    d.value? field = none := by
  rw [List.map_append, List.map_cons] at h
  have hnot := (List.nodup_cons.mp (List.nodup_middle.mp h)).1
  cases hold : d.value? field with
  | none => rfl
  | some v =>
      have hmem : (some field.name, v) ∈ d.members := mem_members.mpr ⟨field, hold, rfl⟩
      refine absurd (List.mem_append_left _ ?_) hnot
      rw [hname]
      exact List.mem_map_of_mem hmem

/-- Members are taken in exactly if, with those of the draft, they are those of the result. -/
theorem acceptAll?_eq_some_iff {d e : Draft} {ms : List Member} :
    d.acceptAll? ms = some e ↔ (d.members ++ ms).Perm e.members := by
  induction ms generalizing d with
  | nil =>
      rw [List.append_nil]
      constructor
      · intro h
        rw [Option.some.inj h]
      · intro h
        exact congrArg some (eq_of_perm_members h)
  | cons m ms ih =>
      rw [acceptAll?_cons]
      constructor
      · intro h
        obtain ⟨d', haccept, h⟩ := Option.bind_eq_some_iff.mp h
        have hjoin : (d.members ++ m :: ms).Perm (d'.members ++ ms) :=
          List.perm_middle.trans ((perm_members_of_accept? haccept).symm.append_right ms)
        exact hjoin.trans (ih.mp h)
      · intro h
        -- the member is one of the result, so it is a field with a value of the right kind
        obtain ⟨field, hvalue, hname⟩ :=
          mem_members.mp (h.subset (List.mem_append_right _ List.mem_cons_self))
        have hnew : d.value? field = none :=
          value?_of_nodup hname ((h.map Prod.fst).nodup_iff.mpr e.nodup_names)
        obtain ⟨d', hset⟩ := set?_of_value? hvalue d
        have haccept : d.accept? m = some d' :=
          accept?_eq_some_iff.mpr ⟨field, hname, hnew, hset⟩
        have hjoin : (d'.members ++ ms).Perm (d.members ++ m :: ms) :=
          ((perm_members_of_accept? haccept).append_right ms).trans List.perm_middle.symm
        rw [haccept]
        exact ih.mpr (hjoin.trans h)

end Draft

/-! ## What members represent -/

/-- The ways to give a dialect: not at all and as null mean that there is none. -/
inductive GivesDialect : Option String → List Member → Prop
  | given (id : String) : GivesDialect (some id) [(some Field.dialectId.name, .text id)]
  | null : GivesDialect none [(some Field.dialectId.name, .null)]
  | absent : GivesDialect none []

/-- The ways to give a flag: not at all means that it has its default. -/
inductive GivesFlag (field : Field) (default : Bool) : Bool → List Member → Prop
  | given (b : Bool) : GivesFlag field default b [(some field.name, .flag b)]
  | absent : GivesFlag field default default []

/-- The members are the fields of the request, in any order. -/
def Represents (ms : List Member) (r : Request) : Prop :=
  ∃ dialect strict security practices,
    GivesDialect r.dialectId dialect
    ∧ GivesFlag .strictMode false r.options.strictMode strict
    ∧ GivesFlag .checkSecurity true r.options.checkSecurity security
    ∧ GivesFlag .checkBestPractices true r.options.checkBestPractices practices
    ∧ ms.Perm ((some Field.text.name, .text r.text)
      :: (dialect ++ (strict ++ (security ++ practices))))

/-- A dialect is given by no member, by a null or by a text. -/
theorem givesDialect_iff {id : Option String} {ms : List Member} :
    GivesDialect id ms ↔ ∃ given : Option (Option String), given.getD none = id
      ∧ ms = (given.map fun id =>
        (some Field.dialectId.name, (id.map .text).getD .null)).toList := by
  constructor
  · rintro (id | _ | _)
    · exact ⟨some (some id), rfl, rfl⟩
    · exact ⟨some none, rfl, rfl⟩
    · exact ⟨none, rfl, rfl⟩
  · rintro ⟨given, rfl, rfl⟩
    match given with
    | some (some id) => exact .given id
    | some none => exact .null
    | none => exact .absent

/-- A flag is given by no member, if it is the default, or by a Boolean. -/
theorem givesFlag_iff {field : Field} {default b : Bool} {ms : List Member} :
    GivesFlag field default b ms ↔ ∃ given : Option Bool, given.getD default = b
      ∧ ms = (given.map fun b => (some field.name, .flag b)).toList := by
  constructor
  · rintro (_ | _)
    · exact ⟨some b, rfl, rfl⟩
    · exact ⟨none, rfl, rfl⟩
  · rintro ⟨given, rfl, rfl⟩
    cases given with
    | none => exact .absent
    | some b => exact .given b

/-- The members of a draft in the order of the fields. -/
theorem Draft.members_eq (d : Draft) :
    d.members = (d.text.map fun s => (some Field.text.name, .text s)).toList
      ++ ((d.dialectId.map fun id =>
          (some Field.dialectId.name, (id.map .text).getD .null)).toList
      ++ ((d.strictMode.map fun b => (some Field.strictMode.name, .flag b)).toList
      ++ ((d.checkSecurity.map fun b => (some Field.checkSecurity.name, .flag b)).toList
      ++ (d.checkBestPractices.map fun b =>
          (some Field.checkBestPractices.name, .flag b)).toList))) := by
  have hcons : ∀ (f : Field → Option Member) field fields,
      (field :: fields).filterMap f = (f field).toList ++ fields.filterMap f := by
    intro f field fields
    cases h : f field <;> simp [h]
  simp only [Draft.members, Field.all, hcons, Draft.value?, Option.map_map, List.filterMap_nil,
    List.append_nil]
  rfl

/-- A draft is a request when it has a text, with defaults for what else is missing. -/
theorem Draft.request?_eq_some_iff {d : Draft} {r : Request} :
    d.request? = some r ↔ d.text = some r.text ∧ d.dialectId.getD none = r.dialectId
      ∧ d.strictMode.getD false = r.options.strictMode
      ∧ d.checkSecurity.getD true = r.options.checkSecurity
      ∧ d.checkBestPractices.getD true = r.options.checkBestPractices := by
  obtain ⟨text, dialectId, strictMode, checkSecurity, checkBestPractices⟩ := r
  cases htext : d.text <;> simp [Draft.request?, htext]

/-- A request is represented by the members of the drafts it is made from. -/
theorem represents_iff {ms : List Member} {r : Request} :
    Represents ms r ↔ ∃ d : Draft, d.request? = some r ∧ ms.Perm d.members := by
  simp only [Represents, givesDialect_iff, givesFlag_iff, Draft.request?_eq_some_iff,
    Draft.members_eq]
  constructor
  · rintro ⟨_, _, _, _, ⟨dialect, hdialect, rfl⟩, ⟨strict, hstrict, rfl⟩,
      ⟨security, hsecurity, rfl⟩, ⟨practices, hpractices, rfl⟩, hperm⟩
    exact ⟨⟨some r.text, dialect, strict, security, practices⟩,
      ⟨rfl, hdialect, hstrict, hsecurity, hpractices⟩, hperm⟩
  · rintro ⟨d, ⟨htext, hdialect, hstrict, hsecurity, hpractices⟩, hperm⟩
    rw [htext] at hperm
    exact ⟨_, _, _, _, ⟨_, hdialect, rfl⟩, ⟨_, hstrict, rfl⟩, ⟨_, hsecurity, rfl⟩,
      ⟨_, hpractices, rfl⟩, hperm⟩

/-! ## The reader -/

/-- An unexpected token is refused. -/
theorem exists_unexpected {α : Type} (t : Token) (expected : String) :
    ∃ refusal, (unexpected t expected : Except Refusal α) = .error refusal := by
  rw [unexpected]
  cases t.shape <;> cases t.value <;> exact ⟨_, rfl⟩

/-- A string or a word is read as the field's value or refused, as it is set or not. -/
theorem readField_scalar {t : Token} {v : Json} (hshape : t.shape ∈ [.string, .word])
    (hv : t.value.toOption = some v) (d : Draft) (field : Field) :
    (∃ e, d.set? field v = some e ∧ readField d field t = .ok e)
      ∨ d.set? field v = none ∧ ∃ refusal, readField d field t = .error refusal := by
  simp only [List.mem_cons, List.not_mem_nil, or_false] at hshape
  cases hset : d.set? field v with
  | some e =>
      refine Or.inl ⟨e, rfl, ?_⟩
      rcases hshape with hshape | hshape
      all_goals simp only [readField, hshape, t.value_of_toOption hv, hset]
  | none =>
      refine Or.inr ⟨rfl, ?_⟩
      rcases hshape with hshape | hshape
      all_goals
        simp only [readField, hshape, t.value_of_toOption hv, hset]
        exact exists_unexpected t field.expected

/-- A token that starts no field's value is refused. -/
theorem readField_foreign {t : Token} (ht : t.IsForeign) (d : Draft) (field : Field) :
    ∃ refusal, readField d field t = .error refusal := by
  have hread : readField d field t = unexpected t field.expected := by
    rcases ht with hshape | ⟨hshape, hvalue⟩
    · simp only [List.mem_cons, List.not_mem_nil, or_false] at hshape
      rcases hshape with hshape | hshape | hshape
      all_goals simp only [readField, hshape]
    · obtain ⟨fault, hfault⟩ := t.value_of_toOption_none hvalue
      simp only [readField, hshape, hfault]
  rw [hread]
  exact exists_unexpected t field.expected

/-- A name may come at this stage. -/
def ObjectStage.TakesName (stage : ObjectStage) : Prop := stage = .first ∨ stage = .name

/-- Where a name is due, a string is read as one and a colon is due next. -/
theorem readObject_name {stage : ObjectStage} (hstage : stage.TakesName) {t : Token}
    (hshape : t.shape = .string) (d : Draft) (rest : List Token) :
    readObject stage d (t :: rest)
      = (readName d t rest).bind fun field => readObject (.colon field) d rest := by
  rcases hstage with rfl | rfl
  all_goals
    rw [readObject, hshape]
    rfl

/-- The value of a member: it is set, or the text is refused. -/
theorem readObject_element {v : Json} {text rest : List Char} (h : Written (.element v) text)
    {ts : List Token} (hts : Cuts (text ++ rest) ts) (d : Draft) (field : Field) :
    (∃ e more, d.set? field v = some e ∧ Cuts rest more
        ∧ readObject (.value field) d ts = readObject .next e more)
      ∨ d.set? field v = none ∧ ∃ refusal, readObject (.value field) d ts = .error refusal := by
  cases h with
  | element hbefore hv hafter =>
      rw [List.append_assoc, List.append_assoc] at hts
      by_cases hscalar : v.IsScalar
      · obtain ⟨t, more, rfl, -, ⟨hshape, hvalue⟩, hmore⟩ := (hts.skip hbefore).scalar hscalar hv
        rcases readField_scalar hshape hvalue d field with ⟨e, hset, hread⟩ | ⟨hset, refusal, hread⟩
        · refine Or.inl ⟨e, more, hset, hmore.skip hafter, ?_⟩
          rw [readObject, hread]
          rfl
        · refine Or.inr ⟨hset, refusal, ?_⟩
          rw [readObject, hread]
          rfl
      · obtain ⟨t, more, rfl, hforeign⟩ := (hts.skip hbefore).foreign hscalar hv
        obtain ⟨refusal, hread⟩ := readField_foreign hforeign d field
        refine Or.inr ⟨Draft.set?_of_not_isScalar hscalar d field, refusal, ?_⟩
        rw [readObject, hread]
        rfl

/-- A member is taken in, or the text is refused. -/
theorem readObject_member {m : Member} {text rest : List Char} (h : Written (.member m) text)
    {ts : List Token} (hts : Cuts (text ++ rest) ts) {stage : ObjectStage}
    (hstage : stage.TakesName) (d : Draft) :
    (∃ e more, d.accept? m = some e ∧ Cuts rest more
        ∧ readObject stage d ts = readObject .next e more)
      ∨ d.accept? m = none ∧ ∃ refusal, readObject stage d ts = .error refusal := by
  cases h with
  | @member name v before text after vtext hbefore hname hafter hv =>
      simp only [List.append_assoc, List.cons_append] at hts
      obtain ⟨t, ts, rfl, -, ⟨hshape, hvalue⟩, hts⟩ := (hts.skip hbefore).string hname
      rw [readObject_name hstage hshape]
      cases name with
      | none =>
          -- refused at the name, before the colon is looked at
          obtain ⟨fault, hfault⟩ := t.value_of_toOption_none hvalue
          exact Or.inr ⟨rfl, _, by rw [readName, hfault]; rfl⟩
      | some s =>
          obtain ⟨u, ts, rfl, -, hcolon, hts⟩ := (hts.skip hafter).mark .colon (by decide)
          have hread : ∀ field, readObject (.colon field) d (u :: ts)
              = readObject (.value field) d ts := by
            intro field
            rw [readObject, hcolon]
          rw [readName, t.value_of_toOption hvalue]
          cases hfield : Field.ofName? s with
          | none =>
              refine Or.inr ⟨by simp [Draft.accept?, hfield], ?_⟩
              simp only [hfield]
              exact ⟨_, rfl⟩
          | some field =>
              by_cases hhas : d.has field = true
              · refine Or.inr ⟨by simp [Draft.accept?, hfield, hhas], ?_⟩
                simp only [hfield, hhas, if_true]
                exact ⟨_, rfl⟩
              · have haccept : d.accept? (some s, v) = d.set? field v := by
                  simp [Draft.accept?, hfield, hhas]
                simp only [hfield, hhas]
                rw [haccept]
                have helement := readObject_element hv hts d field
                rw [← hread field] at helement
                exact helement

/-- The members up to the closing brace are taken in, or the text is refused. -/
theorem readObject_members {ms : List Member} {text rest : List Char}
    (h : Written (.members ms) text) {ts : List Token} (hts : Cuts (text ++ '}' :: rest) ts)
    {stage : ObjectStage} (hstage : stage.TakesName) (d : Draft) :
    (∃ e place more, d.acceptAll? ms = some e ∧ Cuts rest more
        ∧ readObject stage d ts = .ok (e, place, more))
      ∨ d.acceptAll? ms = none ∧ ∃ refusal, readObject stage d ts = .error refusal := by
  induction ms generalizing text ts stage d with
  | nil => nomatch h
  | cons m ms ih =>
      rw [Draft.acceptAll?_cons]
      cases h with
      | lastMember h =>
          rcases readObject_member h hts hstage d with ⟨e, ts', he, hts', hread⟩ | ⟨he, hread⟩
          · obtain ⟨t, more, rfl, -, hclose, hmore⟩ := hts'.mark .closeBrace (by decide)
            refine Or.inl ⟨e, t.after, more, by rw [he]; rfl, hmore, ?_⟩
            rw [hread, readObject_closeBrace (Or.inr rfl) hclose]
          · exact Or.inr ⟨by rw [he]; rfl, hread⟩
      | nextMember h hrest =>
          rw [List.append_assoc, List.cons_append] at hts
          rcases readObject_member h hts hstage d with ⟨e, ts', he, hts', hread⟩ | ⟨he, hread⟩
          · obtain ⟨t, ts', rfl, -, hcomma, hts'⟩ := hts'.mark .comma (by decide)
            have hnext : readObject .next e (t :: ts') = readObject .name e ts' := by
              rw [readObject, hcomma]
            rw [he, Option.bind_some, hread, hnext]
            exact ih hrest hts' (Or.inr rfl) e
          · exact Or.inr ⟨by rw [he]; rfl, hread⟩

/-- After the opening brace an object is taken in up to its end, or the text is refused. -/
theorem readObject_object {ms : List Member} {text rest : List Char} (h : Written (.object ms) text)
    {ts : List Token} (hts : Cuts (text ++ rest) ts) :
    ∃ t inner, ts = t :: inner ∧ t.shape = .openBrace
      ∧ ((∃ d place more, Draft.acceptAll? {} ms = some d ∧ Cuts rest more
          ∧ readObject .first {} inner = .ok (d, place, more))
        ∨ Draft.acceptAll? {} ms = none
          ∧ ∃ refusal, readObject .first {} inner = .error refusal) := by
  cases h with
  | emptyObject hbs =>
      simp only [List.cons_append, List.append_assoc] at hts
      obtain ⟨t, inner, rfl, -, hopen, hinner⟩ := hts.mark .openBrace (by decide)
      obtain ⟨u, more, rfl, -, hclose, hmore⟩ := (hinner.skip hbs).mark .closeBrace (by decide)
      refine ⟨t, u :: more, rfl, hopen, Or.inl ⟨{}, u.after, more, rfl, hmore, ?_⟩⟩
      exact readObject_closeBrace (Or.inl rfl) hclose {} more
  | object hmembers =>
      simp only [List.cons_append, List.append_assoc] at hts
      obtain ⟨t, inner, rfl, -, hopen, hinner⟩ := hts.mark .openBrace (by decide)
      exact ⟨t, inner, rfl, hopen, readObject_members hmembers hinner (Or.inl rfl) {}⟩

/-- The texts of an object, with blanks around it. -/
def IsObjectText (ms : List Member) (text : List Char) : Prop :=
  ∃ before body after, IsBlanks before ∧ Written (.object ms) body ∧ IsBlanks after
    ∧ text = before ++ (body ++ after)

/-- An object text is read as the request that its members make, or refused. -/
theorem ofText_object {ms : List Member} {text : List Char} (h : IsObjectText ms text) :
    (∃ r, (Draft.acceptAll? {} ms).bind Draft.request? = some r ∧ ofText text = .ok r)
      ∨ (Draft.acceptAll? {} ms).bind Draft.request? = none
        ∧ ∃ refusal, ofText text = .error (.malformed refusal) := by
  obtain ⟨before, body, after, hbefore, hbody, hafter, rfl⟩ := h
  have hts := (Json.cuts_tokens (before ++ (body ++ after))).skip hbefore
  obtain ⟨t, inner, htokens, hopen, hobject⟩ := readObject_object hbody hts
  rw [ofText, htokens, ofTokens, hopen]
  rcases hobject with ⟨d, place, more, hd, hmore, hread⟩ | ⟨hd, refusal, hread⟩
  · rw [← List.append_nil after] at hmore
    obtain ⟨u, rfl, hfinish⟩ := (hmore.skip hafter).finish
    rw [hd, hread]
    cases hrequest : d.request? with
    | some r =>
        refine Or.inl ⟨r, by simp [hrequest], ?_⟩
        simp [bind, Except.bind, finish, hrequest, hfinish]
    | none =>
        refine Or.inr ⟨by simp [hrequest], ?_⟩
        simp [bind, Except.bind, finish, hrequest]
  · rw [hd, hread]
    exact Or.inr ⟨rfl, refusal, rfl⟩

/-- Exactly the requests that the members represent are read. -/
theorem ofText_eq_ok_iff {ms : List Member} {text : List Char} (h : IsObjectText ms text)
    {r : Request} : ofText text = .ok r ↔ Represents ms r := by
  have hmembers : (Draft.acceptAll? {} ms).bind Draft.request? = some r ↔ Represents ms r := by
    rw [represents_iff, Option.bind_eq_some_iff]
    refine exists_congr fun d => ?_
    rw [Draft.acceptAll?_eq_some_iff, and_comm]
    rfl
  rw [← hmembers]
  rcases ofText_object h with ⟨s, hs, htext⟩ | ⟨hnone, refusal, htext⟩
  · rw [hs, htext, Except.ok.injEq, Option.some.injEq]
  · rw [hnone, htext]
    simp

/-! ## Refusals -/

/-- What the members of a request must not be. -/
inductive IsFlawed (ms : List Member) : Prop
  /-- a member that is no field -/
  | unknown {m : Member} (hm : m ∈ ms) (h : ∀ field : Field, m.1 ≠ some field.name)
  | repeated (h : ¬(ms.map Prod.fst).Nodup)
  | missingText (h : ∀ v, (some Field.text.name, v) ∉ ms)
  | notFlag {field : Field} (hfield : field ∈ [.strictMode, .checkSecurity, .checkBestPractices])
      {v : Json} (hm : (some field.name, v) ∈ ms) (h : ∀ b, v ≠ .flag b)

/-- Flawed members represent no request. -/
theorem not_represents {ms : List Member} (h : IsFlawed ms) (r : Request) : ¬Represents ms r := by
  intro hr
  obtain ⟨d, hrequest, hperm⟩ := represents_iff.mp hr
  cases h with
  | unknown hm hunknown =>
      obtain ⟨field, -, hname⟩ := Draft.mem_members.mp (hperm.subset hm)
      exact hunknown field hname
  | repeated hrepeated => exact hrepeated ((hperm.map Prod.fst).nodup_iff.mpr d.nodup_names)
  | missingText hmissing =>
      have htext : d.value? .text = some (.text r.text) := by
        rw [Draft.value?, (Draft.request?_eq_some_iff.mp hrequest).1]
        rfl
      exact hmissing _ (hperm.symm.subset (Draft.mem_members.mpr ⟨.text, htext, rfl⟩))
  | notFlag hfield hm hflag =>
      have hvalue := Draft.value?_of_mem (hperm.subset hm)
      simp only [List.mem_cons, List.not_mem_nil, or_false] at hfield
      rcases hfield with rfl | rfl | rfl
      all_goals
        obtain ⟨b, -, rfl⟩ := Option.map_eq_some_iff.mp hvalue
        exact hflag b rfl

/-- A text with flawed members is refused as malformed. -/
theorem ofText_of_isFlawed {ms : List Member} {text : List Char} (h : IsObjectText ms text)
    (hflawed : IsFlawed ms) : ∃ refusal, ofText text = .error (.malformed refusal) := by
  rcases ofText_object h with ⟨r, -, htext⟩ | ⟨-, hrefused⟩
  · exact absurd ((ofText_eq_ok_iff h).mp htext) (not_represents hflawed r)
  · exact hrefused

/-! ## The round trip -/

/-- The members of the JSON form of a request. -/
def encoded (r : Request) : List (String × Json) :=
  ("text", .text r.text) :: Json.member? "dialectId" (r.dialectId.map .text) ++
    [("strictMode", .flag r.options.strictMode),
      ("checkSecurity", .flag r.options.checkSecurity),
      ("checkBestPractices", .flag r.options.checkBestPractices)]

theorem toJson_eq (r : Request) : r.toJson = .object r.encoded := rfl

/-- The members that a request is written with represent it. -/
theorem represents_encoded (r : Request) :
    Represents (r.encoded.map fun m => (some m.1, m.2)) r := by
  refine ⟨(Json.member? "dialectId" (r.dialectId.map .text)).map fun m => (some m.1, m.2),
    _, _, _, ?_, .given _, .given _, .given _, ?_⟩
  · cases r.dialectId with
    | none => exact .absent
    | some id => exact .given id
  · rw [encoded, List.cons_append, List.map_cons, List.map_append]
    rfl

/-- A request is written as a plain value. -/
theorem isPlain_toJson (r : Request) : r.toJson.IsPlain := by
  rw [toJson_eq, encoded]
  refine .object (List.forall_mem_append.mpr ⟨List.forall_mem_cons.mpr ⟨.text _, ?_⟩, ?_⟩)
  · exact Json.isPlain_member? _ _
  · simp only [List.forall_mem_cons]
    exact ⟨.flag _, .flag _, .flag _, List.forall_mem_nil _⟩

/-- Every writing of a request is the text of an object with its members. -/
theorem isObjectText_of_written {r : Request} {text : List Char}
    (h : Written (.value r.toJson) text) :
    IsObjectText (r.encoded.map fun m => (some m.1, m.2)) text := by
  refine ⟨[], text, [], Json.isBlanks_nil, ?_, Json.isBlanks_nil, by simp⟩
  rw [toJson_eq] at h
  cases h with
  | named h => exact h
  | number hv _ => exact hv.elim

/-- **Decoding undoes encoding.** A request is read back from both of its JSON forms. More
generally, an object text is read as a request exactly if its members represent the request, and it
is refused as malformed if a name is unknown or repeated, the text is missing or a flag is given
another value. -/
theorem decoding_undoes_encoding :
    (∀ r : Request, ∀ text ∈ [r.toJson.toCompact, r.toJson.toPretty], ofText text.toList = .ok r)
      ∧ ∀ (ms : List Member) (text : List Char), IsObjectText ms text →
        (∀ r, ofText text = .ok r ↔ Represents ms r)
        ∧ (IsFlawed ms → ∃ refusal, ofText text = .error (.malformed refusal)) := by
  constructor
  · intro r text htext
    have hwritten := Json.written_toString r.isPlain_toJson htext
    exact (ofText_eq_ok_iff (isObjectText_of_written hwritten)).mpr r.represents_encoded
  · intro ms text h
    exact ⟨fun r => ofText_eq_ok_iff h, ofText_of_isFlawed h⟩

/-- The name of the text spelled with an escape and the text as a surrogate pair, with blanks around
the colon; and a number in the place of a flag. -/
theorem decoding_undoes_encoding_surrogates :
    IsObjectText [(some "text", .text "😀")] "\x7b\"\\u0074ext\" : \"\\uD83d\\uDE00\"\x7d ".toList
      ∧ Represents [(some "text", .text "😀")] { text := "😀" }
      ∧ ofText "\x7b\"\\u0074ext\" : \"\\uD83d\\uDE00\"\x7d ".toList = .ok { text := "😀" }
      ∧ ∃ refusal, ofText "\x7b\"text\":\"\",\"strictMode\":1\x7d".toList
        = .error (.malformed refusal) := by
  have hname : Json.IsString (some "text") "\"\\u0074ext\"".toList := by
    have hplain : ∀ {c body cs}, 0x20 ≤ c.toNat → c ≠ '"' → c ≠ '\\' →
        Json.Spells body (some cs) → Json.Spells (c :: body) (some (c :: cs)) := .plain
    have hletters : Json.Spells ['e', 'x', 't'] (some ['e', 'x', 't']) := by
      refine hplain ?_ ?_ ?_ (hplain ?_ ?_ ?_ (hplain ?_ ?_ ?_ .nil)) <;> decide
    exact ⟨_, .unit (x := 't') (by decide) hletters, rfl⟩
  have htext : Json.IsString (some "😀") "\"\\uD83d\\uDE00\"".toList :=
    ⟨_, .pair (x := '😀') (by decide) (by decide) (by decide) .nil, rfl⟩
  have hmember := Written.member Json.isBlanks_nil hname Json.isBlanks_space
    (.element Json.isBlanks_space (.text htext) Json.isBlanks_nil)
  have hobject : IsObjectText [(some "text", .text "😀")]
      "\x7b\"\\u0074ext\" : \"\\uD83d\\uDE00\"\x7d ".toList :=
    ⟨[], _, [' '], Json.isBlanks_nil, .object (.lastMember hmember), Json.isBlanks_space, rfl⟩
  have hr : Represents [(some "text", .text "😀")] { text := "😀" } :=
    ⟨[], [], [], [], .absent, .absent, .absent, .absent, List.Perm.refl _⟩
  refine ⟨hobject, hr, ((decoding_undoes_encoding.2 _ _ hobject).1 _).mpr hr, ?_⟩
  have hdigits : Json.IsDigits ['1'] := ⟨by simp, List.forall_mem_singleton.mpr (by decide)⟩
  have hone : Written (.value (.integer 1)) ['1'] :=
    .number trivial ⟨[], ['1'], [], [], rfl, List.mem_cons_self, hdigits, by simp, Or.inl rfl,
      Or.inl rfl⟩
  have hempty := Written.member Json.isBlanks_nil (Json.isString_quote "text")
    Json.isBlanks_nil (Written.text (Json.isString_quote "")).bare
  have hflag := Written.member Json.isBlanks_nil (Json.isString_quote "strictMode")
    Json.isBlanks_nil hone.bare
  have hflawed : IsFlawed [(some "text", .text ""), (some "strictMode", .integer 1)] := by
    have hstrict : Field.strictMode ∈ [.strictMode, .checkSecurity, .checkBestPractices] :=
      List.mem_cons_self
    refine .notFlag (v := .integer 1) hstrict ?_ (by simp)
    exact List.mem_cons_of_mem _ List.mem_cons_self
  refine (decoding_undoes_encoding.2 _ _ ?_).2 hflawed
  exact ⟨[], _, [], Json.isBlanks_nil, .object (.nextMember hempty (.lastMember hflag)),
    Json.isBlanks_nil, rfl⟩

end Softcode.Request
