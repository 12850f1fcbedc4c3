import Softcode.Load
import Softcode.Proofs.JsonReading
import Softcode.Proofs.Overlay

/-!
# Catalogues from their JSON form

A reader restores what a writer writes if it reads every value back (`Restores`). Texts, flags and
risks are restored, and so are lists of what is restored; records are put together from these field
by field, and a field that has been left out comes back as missing. A restored value survives the
way through a text (`Restores.parse?`), and so does a whole catalogue (`dump_restores`).
-/

namespace Softcode

variable {α : Type}

/-- What is written has a text and is read back. -/
structure Restores (read : Json → Option α) (write : α → Json) : Prop where
  isPlain : ∀ a, (write a).IsPlain
  read_write : ∀ a, read (write a) = some a

namespace Restores

theorem text : Restores Source.text? Json.text := ⟨.text, fun _ => rfl⟩

theorem flag : Restores Source.flag? Json.flag := ⟨.flag, fun _ => rfl⟩

theorem risk : Restores Risk.read? fun r => .text r.name :=
  ⟨fun r => .text r.name, fun r => by cases r <;> decide⟩

/-- Lists are restored when their members are. -/
theorem listOf {read : Json → Option α} {write : α → Json} (h : Restores read write) :
    Restores (Source.listOf? read) fun as => .list (as.map write) where
  isPlain as := by
    refine .list fun v hv => ?_
    obtain ⟨a, -, rfl⟩ := List.mem_map.mp hv
    exact h.isPlain a
  read_write as := by
    show (as.map write).mapM read = some as
    induction as with
    | nil => rfl
    | cons a as ih =>
        rw [List.map_cons, List.mapM_cons, h.read_write, ih]
        rfl

theorem texts : Restores Source.texts? Json.texts := text.listOf

/-- Both forms of the writer are read back. -/
theorem parse? {read : Json → Option α} {write : α → Json} (h : Restores read write) (a : α)
    {text : String} (htext : text ∈ [(write a).toCompact, (write a).toPretty]) :
    (Json.parse? text.toList).bind read = some a := by
  have hwritten := (Json.written_toString (h.isPlain a) htext).bare
  rw [Json.parse?_written (h.isPlain a) hwritten]
  exact h.read_write a

end Restores

/-! ## Records -/

section Fields

variable {members : List (String × Json)}

/-- An object without repeated names is a record. -/
theorem Source.record?_object (h : (members.map Prod.fst).Nodup) (names : List String) :
    Source.record? names (.object members) = some members := by
  have hknown : ((members.map Prod.fst).filter names.contains).Nodup := h.filter _
  show (if _ = _ then _ else _) = _
  rw [eraseDups_of_nodup hknown, if_pos rfl]

/-- Among members with different names, each is found by its name. -/
theorem lookup_of_mem (h : (members.map Prod.fst).Nodup) {name : String} {v : Json}
    (hmem : (name, v) ∈ members) : members.lookup name = some v := by
  induction members with
  | nil => exact absurd hmem List.not_mem_nil
  | cons m more ih =>
      obtain ⟨hm, hmore⟩ := List.nodup_cons.mp h
      rcases List.mem_cons.mp hmem with rfl | hmem
      · exact List.lookup_cons_self
      · have hne : (name == m.1) = false := by
          refine beq_eq_false_iff_ne.mpr ?_
          rintro rfl
          exact hm (List.mem_map.mpr ⟨_, hmem, rfl⟩)
        rw [List.lookup_cons, hne]
        exact ih hmore hmem

namespace Restores

variable {read : Json → Option α} {write : α → Json} {name : String} {a : α}

/-- A member that is written is read back under its name. -/
theorem field? (h : Restores read write) (hnames : (members.map Prod.fst).Nodup)
    (hmem : (name, write a) ∈ members) : Source.field? members name read = some a := by
  rw [Source.field?, lookup_of_mem hnames hmem]
  exact h.read_write a

/-- So is one that has a default, whatever the default. -/
theorem fieldOr? (h : Restores read write) (hnames : (members.map Prod.fst).Nodup)
    (hmem : (name, write a) ∈ members) (default : α) :
    Source.fieldOr? members name default read = some a := by
  rw [Source.fieldOr?, lookup_of_mem hnames hmem]
  exact h.read_write a

/-- A text that is left out if there is none. -/
theorem optional {value : Option String} (hnames : (members.map Prod.fst).Nodup)
    (hmem : ∀ v, (name, v) ∈ members ↔ value.map .text = some v) :
    Source.fieldOr? members name none (Source.optional? Source.text?) = some value := by
  cases value with
  | some s =>
      rw [Source.fieldOr?, lookup_of_mem hnames ((hmem (.text s)).mpr rfl)]
      rfl
  | none =>
      have hnone : members.lookup name = none := by
        rw [List.lookup_eq_none_iff]
        intro m hm
        have hne : name ≠ m.1 := by
          rintro rfl
          exact absurd ((hmem m.2).mp hm) (by simp)
        simpa using hne
      rw [Source.fieldOr?, hnone]

end Restores

end Fields

/-- The functions of a dialect are restored. -/
theorem DialectFunction.restores : Restores DialectFunction.read? DialectFunction.toJson where
  isPlain f := by
    refine .object (List.forall_mem_append.mpr ⟨?_, Json.isPlain_member? _ _⟩)
    simp only [List.forall_mem_cons]
    exact ⟨.text _, .flag _, List.forall_mem_nil _⟩
  read_write f := by
    rw [DialectFunction.read?, DialectFunction.toJson]
    -- what is read of the members is only what they are called and which of them there are
    generalize hmembers : _ ++ Json.member? _ _ = members
    have hnames : (members.map Prod.fst).Nodup := by
      cases hreplacement : f.replacement <;> simp [← hmembers, hreplacement, Json.member?]
    have hname : Source.field? members "name" Source.text? = some f.name :=
      Restores.text.field? hnames (by simp [← hmembers])
    have hdeprecated : Source.fieldOr? members "deprecated" false Source.flag?
        = some f.deprecated :=
      Restores.flag.fieldOr? hnames (by simp [← hmembers]) false
    have hreplacement : Source.fieldOr? members "replacement" none (Source.optional? Source.text?)
        = some f.replacement :=
      Restores.optional hnames (by simp [← hmembers, Json.member?])
    rw [Source.record?_object hnames]
    simp only [Option.bind_eq_bind, Option.bind_some, hname, hdeprecated, hreplacement]
    rfl

/-- The dialects are restored. -/
theorem Dialect.restores : Restores Dialect.read? Dialect.toJson where
  isPlain d := by
    refine .object ?_
    simp only [List.forall_mem_cons]
    exact ⟨.text _, .text _, DialectFunction.restores.listOf.isPlain _, Restores.texts.isPlain _,
      List.forall_mem_nil _⟩
  read_write d := by
    rw [Dialect.read?, Dialect.toJson]
    generalize hmembers : [("id", Json.text d.id), _, _, _] = members
    have hnames : (members.map Prod.fst).Nodup := by simp [← hmembers]
    have hid : Source.field? members "id" Source.text? = some d.id :=
      Restores.text.field? hnames (by simp [← hmembers])
    have hname : Source.field? members "name" Source.text? = some d.name :=
      Restores.text.field? hnames (by simp [← hmembers])
    have hfunctions : Source.fieldOr? members "functions" [] (Source.listOf? DialectFunction.read?)
        = some d.functions :=
      DialectFunction.restores.listOf.fieldOr? hnames (by simp [← hmembers]) []
    have hnotes : Source.fieldOr? members "notes" [] Source.texts? = some d.notes :=
      Restores.texts.fieldOr? hnames (by simp [← hmembers]) []
    rw [Source.record?_object hnames]
    simp only [Option.bind_eq_bind, Option.bind_some, hid, hname, hfunctions, hnotes]
    rfl

/-- The security rules are restored. -/
theorem SecurityRule.restores : Restores SecurityRule.read? SecurityRule.toJson where
  isPlain r := by
    refine .object (List.forall_mem_append.mpr ⟨List.forall_mem_append.mpr ⟨?_, ?_⟩, ?_⟩)
    · simp only [List.forall_mem_cons]
      exact ⟨.text _, .text _, .text _, .text _, Restores.texts.isPlain _, .text _,
        List.forall_mem_nil _⟩
    · exact Json.isPlain_member? _ _
    · simp only [List.forall_mem_cons]
      exact ⟨Restores.texts.isPlain _, List.forall_mem_nil _⟩
  read_write r := by
    rw [SecurityRule.read?, SecurityRule.toJson]
    generalize hmembers : _ ++ Json.member? _ _ ++ _ = members
    have hnames : (members.map Prod.fst).Nodup := by
      cases hdescription : r.description <;> simp [← hmembers, hdescription, Json.member?]
    have hid : Source.field? members "id" Source.text? = some r.id :=
      Restores.text.field? hnames (by simp [← hmembers])
    have hpattern : Source.field? members "pattern" Source.text? = some r.pattern :=
      Restores.text.field? hnames (by simp [← hmembers])
    have hrisk : Source.field? members "severity" Risk.read? = some r.risk :=
      Restores.risk.field? hnames (by simp [← hmembers])
    have hcategory : Source.field? members "category" Source.text? = some r.category :=
      Restores.text.field? hnames (by simp [← hmembers])
    have hdialects : Source.fieldOr? members "dialects" [] Source.texts? = some r.dialects :=
      Restores.texts.fieldOr? hnames (by simp [← hmembers]) []
    have hrecommendation : Source.field? members "recommendation" Source.text?
        = some r.recommendation :=
      Restores.text.field? hnames (by simp [← hmembers])
    have hdescription : Source.fieldOr? members "description" none (Source.optional? Source.text?)
        = some r.description :=
      Restores.optional hnames (by simp [← hmembers, Json.member?])
    have hreferences : Source.fieldOr? members "references" [] Source.texts? = some r.references :=
      Restores.texts.fieldOr? hnames (by simp [← hmembers]) []
    rw [Source.record?_object hnames]
    simp only [Option.bind_eq_bind, Option.bind_some, hid, hpattern, hrisk, hcategory, hdialects,
      hrecommendation, hdescription, hreferences]
    rfl

namespace Catalogue

/-- A catalogue is read back from the value it is written to. -/
theorem restores : Restores Catalogue.read? Catalogue.toJson where
  isPlain c := by
    refine .object ?_
    simp only [List.forall_mem_cons]
    exact ⟨Dialect.restores.listOf.isPlain _, SecurityRule.restores.listOf.isPlain _,
      List.forall_mem_nil _⟩
  read_write c := by
    rw [Catalogue.read?, Catalogue.toJson]
    generalize hmembers : [("dialects", Json.list (c.dialects.map Dialect.toJson)), _] = members
    have hnames : (members.map Prod.fst).Nodup := by simp [← hmembers]
    have hdialects : Source.fieldOr? members "dialects" [] (Source.listOf? Dialect.read?)
        = some c.dialects :=
      Dialect.restores.listOf.fieldOr? hnames (by simp [← hmembers]) []
    have hrules : Source.fieldOr? members "rules" [] (Source.listOf? SecurityRule.read?)
        = some c.rules :=
      SecurityRule.restores.listOf.fieldOr? hnames (by simp [← hmembers]) []
    rw [Source.record?_object hnames]
    simp only [Option.bind_eq_bind, Option.bind_some, hdialects, hrules]
    rfl

/-- **A dumped catalogue can be restored.** Its JSON form, on one line or over several, is read as
the catalogue itself; if its identifiers are distinct, laying what was read over the empty catalogue
or over the catalogue itself gives the catalogue. -/
theorem dump_restores (c : Catalogue) (text : String)
    (htext : text ∈ [c.toJson.toCompact, c.toJson.toPretty]) :
    ∃ d, Catalogue.parse? .json text.toList = some d ∧ d = c
      ∧ (c.HasDistinctIds → empty.merge d = c ∧ c.merge d = c) := by
  refine ⟨c, restores.parse? c htext, rfl, ?_⟩
  intro hc
  exact ⟨empty_merge hc, merge_self hc⟩

/-- Names with quotes, backslashes, control characters and characters beyond the basic plane, a
replacement that is empty and one that is missing. -/
theorem dump_restores_escapes :
    ∃ c : Catalogue, c.HasDistinctIds
      ∧ c.dialects.map (fun d => d.functions.map (·.replacement)) = [[none, some ""]]
      ∧ Catalogue.parse? .json c.toJson.toCompact.toList = some c
      ∧ Catalogue.parse? .json c.toJson.toPretty.toList = some c
      ∧ empty.merge c = c ∧ c.merge c = c := by
  let c : Catalogue := {
    dialects := [{
      id := "\"p\\\n"
      name := "é\x01\x7f😀"
      functions := [{ name := "", deprecated := true }, { name := "/", replacement := some "" }] }]
    rules := [{
      id := "r"
      pattern := "\\d\t"
      risk := .critical
      category := "c"
      dialects := ["\"p\\\n"]
      recommendation := "\x08" }] }
  have hc : c.HasDistinctIds := ⟨by decide, by decide⟩
  obtain ⟨d, hcompact, rfl, hmerge⟩ := dump_restores c c.toJson.toCompact List.mem_cons_self
  obtain ⟨e, hpretty, rfl, -⟩ :=
    dump_restores c c.toJson.toPretty (List.mem_cons_of_mem _ List.mem_cons_self)
  exact ⟨c, hc, by decide, hcompact, hpretty, hmerge hc⟩

end Catalogue

end Softcode
