import Mathlib.Data.List.Nodup
import Softcode.Batch
import Softcode.Proofs.FirstOccurrence
import Softcode.Proofs.Positions

/-!
# Completeness of the log

The log of a report has one result for each finding, in the order of the files and of the families
(`results_eq`), and declares each code once, where it first occurs (`map_id_rules`). This is so for
every report, wherever its findings come from.

A declaration takes its grade from the first finding with its code. For the report of a run that is
the grade of all of them, because every place in the analysis that issues a code gives it one grade:
`grades` is the table of these, and its codes are distinct as long as the catalogue leaves the codes
of the analysis alone (`nodup_grades`).
-/

namespace Softcode.Sarif

/-! ## Findings and results -/

/-- A finding of one of the three families. -/
inductive Found where
  | defect (f : SyntaxFinding)
  | threat (f : SecurityFinding)
  | advice (f : Improvement)

namespace Found

/-- The code of a finding. -/
def code : Found → String
  | defect f => f.code.name
  | threat f => f.ruleId
  | advice f => "practice/" ++ f.category

/-- The grade of a finding. -/
def grade : Found → Grade
  | defect f => .ofLevel f.level
  | threat f => .ofRisk f.risk
  | advice f => .ofLevel f.level

/-- What a finding says, and what to do about it if that is not part of it. -/
def text : Found → String
  | defect f => f.message ++ " (" ++ f.suggestion ++ ")"
  | threat f => f.message ++ ". " ++ f.mitigation
  | advice f => f.message

/-- Line and column of a finding. -/
def place : Found → Nat × Nat
  | defect f => (f.line, f.column)
  | threat f => (f.line, f.column)
  | advice f => (f.line, f.column)

/-- The result that shows a finding in the file at a path. -/
def result (path : Path) (found : Found) : Result where
  ruleId := found.code
  grade := found.grade
  text := found.text
  uri := uriOf path
  line := found.place.1
  column := found.place.2

end Found

/-- The findings in a file, family by family; none if it was not analysed. -/
def findings (file : FileReport) : List Found :=
  match file.result with
  | none => []
  | some r =>
    r.syntaxFindings.map .defect ++ r.securityFindings.map .threat ++ r.improvements.map .advice

/-- The items of a file give the results of its findings, in their order. -/
theorem map_result_fileItems (file : FileReport) :
    (fileItems file).map Item.result = (findings file).map (Found.result file.path) := by
  rw [fileItems, findings]
  cases file.result with
  | none => rfl
  | some r =>
      simp only [List.map_append, List.map_map]
      rfl

/-- One result for each finding, file by file and family by family. -/
theorem results_eq (r : Report) :
    (log r).results
      = r.results.flatMap fun file => (findings file).map (Found.result file.path) := by
  show (r.results.flatMap fileItems).map Item.result = _
  rw [List.map_flatMap]
  exact List.flatMap_congr fun file _ => map_result_fileItems file

/-! ## Declarations -/

/-- The findings of a report with the declarations of their codes. -/
def items (r : Report) : List Item := r.results.flatMap fileItems

/-- A finding is declared under its code and with its grade. -/
theorem declared_of_mem_items {r : Report} {item : Item} (h : item ∈ items r) :
    item.rule.id = item.result.ruleId ∧ item.rule.grade = item.result.grade := by
  obtain ⟨file, -, hitem⟩ := List.mem_flatMap.mp h
  rw [fileItems] at hitem
  split at hitem
  · exact absurd hitem List.not_mem_nil
  · simp only [List.mem_append, List.mem_map] at hitem
    rcases hitem with (⟨f, -, rfl⟩ | ⟨f, -, rfl⟩) | ⟨f, -, rfl⟩
    · exact ⟨rfl, rfl⟩
    · exact ⟨rfl, rfl⟩
    · exact ⟨rfl, rfl⟩

/-- First rules are the first of each id. -/
theorem firstRules_eq_firstBy (seen : List String) (rules : List Rule) :
    firstRules seen rules = firstBy Rule.id seen rules := by
  induction rules generalizing seen with
  | nil => rfl
  | cons rule rest ih => simp only [firstRules, firstBy, ih]

/-- The declared rules are those of the items without repeated ids. -/
theorem rules_eq (r : Report) :
    (log r).rules = ((items r).map Item.rule).eraseDupsBy fun a b => a.id == b.id := by
  rw [← firstBy_nil, ← firstRules_eq_firstBy]
  rfl

/-- The codes that are declared are those of the results, in the order in which they first occur. -/
theorem map_id_rules (r : Report) :
    (log r).rules.map Rule.id = ((log r).results.map Result.ruleId).eraseDups := by
  have hids : ((items r).map Item.rule).map Rule.id = (log r).results.map Result.ruleId := by
    show _ = ((items r).map Item.result).map Result.ruleId
    rw [List.map_map, List.map_map]
    exact List.map_congr_left fun item hitem => (declared_of_mem_items hitem).1
  rw [rules_eq, map_eraseDupsBy (· == ·) Rule.id, hids]
  rfl

/-! ## Grades -/

/-- One piece of advice for each category. -/
def adviceByCategory : List Advice :=
  [.mixedIndentation, .repeatedCall "" 0, .nestedIteration, .magicNumber 0, .manyParameters 0,
    .hardcodedReference "", .complexExpression 0 0, .shortRegisters 0, .unsanitizedInput]

/-- The codes that the analysis issues of itself, with their grades. -/
def ownGrades : List (String × Grade) :=
  Code.all.map (fun code => (code.name, .ofLevel code.level))
    ++ adviceByCategory.map (fun advice => ("practice/" ++ advice.category, .ofLevel advice.level))
    ++ Security.sensitiveRules.map (fun rule => (rule.id, .ofRisk rule.risk))

/-- All codes that an analysis issues, with their grades. -/
def grades (rules : List SecurityRule) : List (String × Grade) :=
  ownGrades ++ rules.map fun rule => (rule.id, .ofRisk rule.risk)

/-- The rules of a catalogue have codes of their own: no two have the same, and none has the code of
a syntax finding, of a category of advice or of a rule for secrets. -/
structure HasOwnCodes (rules : List SecurityRule) : Prop where
  distinct : (rules.map SecurityRule.id).Nodup
  ne_code : ∀ rule ∈ rules, ∀ code : Code, rule.id ≠ code.name
  ne_practice : ∀ rule ∈ rules, ∀ advice : Advice, rule.id ≠ "practice/" ++ advice.category
  ne_secret : ∀ rule ∈ rules, ∀ secret ∈ Security.sensitiveRules, rule.id ≠ secret.id

theorem nodup_ownGrades : (ownGrades.map Prod.fst).Nodup := by decide +kernel

/-- With codes of their own, the rules of the catalogue leave one grade to each code. -/
theorem nodup_grades {rules : List SecurityRule} (h : HasOwnCodes rules) :
    ((grades rules).map Prod.fst).Nodup := by
  have hrules : (rules.map fun rule => (rule.id, Grade.ofRisk rule.risk)).map Prod.fst
      = rules.map SecurityRule.id := List.map_map
  rw [grades, List.map_append, hrules, List.nodup_append']
  refine ⟨nodup_ownGrades, h.distinct, ?_⟩
  intro id hown hid
  obtain ⟨rule, hrule, rfl⟩ := List.mem_map.mp hid
  simp only [ownGrades, List.map_append, List.map_map, List.mem_append, List.mem_map] at hown
  rcases hown with (⟨code, -, hcode⟩ | ⟨advice, -, hadvice⟩) | ⟨secret, hsecret, hid⟩
  · exact h.ne_code rule hrule code hcode.symm
  · exact h.ne_practice rule hrule advice hadvice.symm
  · exact h.ne_secret rule hrule secret hsecret hid.symm

/-- A syntax finding has the level of its code. -/
theorem level_of_mem_findings {c : Context} {f : SyntaxFinding} (h : f ∈ Syntax.findings c) :
    f.level = f.code.level := by
  have hflaw : ∃ number flaw, f = Flaw.finding number flaw := by
    simp only [Syntax.findings, Syntax.scriptFindings, List.mem_append] at h
    rcases h with hline | hunbalanced | hnesting
    · obtain ⟨line, -, hf⟩ := List.mem_flatMap.mp hline
      obtain ⟨flaw, -, rfl⟩ := List.mem_map.mp hf
      exact ⟨_, _, rfl⟩
    · obtain ⟨kind, -, hf⟩ := List.mem_flatMap.mp hunbalanced
      simp only [List.mem_ite_nil_right, List.mem_singleton] at hf
      exact ⟨_, _, hf.2⟩
    · rw [Syntax.nesting, List.mem_ite_nil_right, List.mem_singleton] at hnesting
      exact ⟨_, _, hnesting.2⟩
  obtain ⟨number, flaw, rfl⟩ := hflaw
  exact flaw.defect.level_eq_level_code

/-- A security finding has the id and the risk of a rule. -/
theorem rule_of_mem_scan {read : Pattern.Reader} {c : Context} {rules : List SecurityRule}
    {f : SecurityFinding} (h : f ∈ Security.scan read c rules) :
    ∃ rule ∈ rules ++ Security.sensitiveRules, f.ruleId = rule.id ∧ f.risk = rule.risk := by
  obtain ⟨rule, hrule, hf⟩ := List.mem_flatMap.mp h
  simp only [SecurityRule.findings] at hf
  split at hf
  · exact absurd hf List.not_mem_nil
  · obtain ⟨span, -, rfl⟩ := List.mem_map.mp hf
    refine ⟨rule, ?_, rfl, rfl⟩
    rcases List.mem_append.mp hrule with hcatalogue | hsecret
    · exact List.mem_append_left _ (List.mem_filter.mp hcatalogue).1
    · exact List.mem_append_right _ hsecret

/-- Every code of the syntax checks has its grade. -/
theorem mem_ownGrades_code (code : Code) :
    (code.name, Grade.ofLevel code.level) ∈ ownGrades := by
  have hall : code ∈ Code.all := by cases code <;> decide
  have hmem := List.mem_map_of_mem (f := fun code : Code => (code.name, Grade.ofLevel code.level))
    hall
  exact List.mem_append_left _ (List.mem_append_left _ hmem)

/-- Every category of advice has its grade. -/
theorem mem_ownGrades_advice (advice : Advice) :
    ("practice/" ++ advice.category, Grade.ofLevel advice.level) ∈ ownGrades := by
  have hcategory : ∃ other ∈ adviceByCategory,
      other.category = advice.category ∧ other.level = advice.level := by
    cases advice <;> simp [adviceByCategory, Advice.category, Advice.level]
  obtain ⟨other, hother, hsame, hlevel⟩ := hcategory
  rw [← hsame, ← hlevel]
  exact List.mem_append_left _ (List.mem_append_right _ (List.mem_map.mpr ⟨other, hother, rfl⟩))

/-- Every finding of an analysis has a code of the table and the grade that belongs to it. -/
theorem mem_grades_of_mem_findings {c : Context} {read : Pattern.Reader}
    {rules : List SecurityRule} {file : FileReport}
    (hfile : file.result = some (c.analyze read rules)) {found : Found}
    (h : found ∈ findings file) : (found.code, found.grade) ∈ grades rules := by
  simp only [findings, hfile, List.mem_append, List.mem_map] at h
  rcases h with (⟨f, hf, rfl⟩ | ⟨f, hf, rfl⟩) | ⟨f, hf, rfl⟩
  · have hlevel := level_of_mem_findings hf
    have hcode := mem_ownGrades_code f.code
    rw [← hlevel] at hcode
    exact List.mem_append_left _ hcode
  · obtain ⟨rule, hrule, hid, hrisk⟩ := rule_of_mem_scan (List.mem_ite_nil_right.mp hf).2
    rw [Found.code, Found.grade, hid, hrisk]
    rcases List.mem_append.mp hrule with hcatalogue | hsecret
    · exact List.mem_append_right _ (List.mem_map_of_mem hcatalogue)
    · exact List.mem_append_left _ (List.mem_append_right _ (List.mem_map_of_mem hsecret))
  · obtain ⟨number, tip, rfl, -⟩ := Context.reported_of_mem_improvements hf
    exact List.mem_append_left _ (mem_ownGrades_advice tip.advice)

/-- The files of a run's report are outcomes of the analysis. -/
theorem analyzed_of_mem_results {b : Batch} {read : Pattern.Reader} {catalogue : Catalogue}
    {settings : Settings} {files : FileTree} {report : Report}
    (hrun : b.run read catalogue settings files = .ok report) {file : FileReport}
    (hfile : file ∈ report.results) :
    file.result = none ∨ ∃ c : Context, file.result = some (c.analyze read catalogue.rules) := by
  rw [Batch.run] at hrun
  cases hpaths : b.discover files with
  | error missing =>
      rw [hpaths] at hrun
      exact absurd hrun (by simp [bind, Except.bind])
  | ok paths =>
      rw [hpaths] at hrun
      obtain rfl := Except.ok.inj hrun
      obtain ⟨path, -, rfl⟩ := List.mem_map.mp (List.mem_mergeSort.mp hfile)
      simp only [Batch.analyzeFile]
      split
      · exact Or.inl rfl
      · split
        · exact Or.inl rfl
        · rename_i result hresult
          obtain ⟨c, -, hc⟩ := Request.exists_context_of_analyze_ok hresult
          exact Or.inr ⟨c, congrArg some hc⟩

/-- Every result of a run's log is graded as its code is. -/
theorem mem_grades_of_mem_results {b : Batch} {read : Pattern.Reader} {catalogue : Catalogue}
    {settings : Settings} {files : FileTree} {report : Report}
    (hrun : b.run read catalogue settings files = .ok report) {result : Result}
    (hresult : result ∈ (log report).results) :
    (result.ruleId, result.grade) ∈ grades catalogue.rules := by
  rw [results_eq] at hresult
  obtain ⟨file, hfile, hshown⟩ := List.mem_flatMap.mp hresult
  obtain ⟨found, hfound, rfl⟩ := List.mem_map.mp hshown
  rcases analyzed_of_mem_results hrun hfile with hnone | ⟨c, hc⟩
  · rw [findings, hnone] at hfound
    exact absurd hfound List.not_mem_nil
  · exact mem_grades_of_mem_findings hc hfound

/-- **The log is complete.** Every report gives exactly one result for each finding in the files
that have a result, in the order of the files and there first syntax, then security, then
improvements. The declared codes are distinct, and they are the codes of the results in the order in
which these first occur. In the log of a run over a catalogue whose rules have codes of their own,
every result is declared with its own grade. -/
theorem log_complete :
    (∀ r : Report, (log r).results
        = r.results.flatMap (fun file => (findings file).map (Found.result file.path))
      ∧ ((log r).rules.map Rule.id).Nodup
      ∧ (log r).rules.map Rule.id = ((log r).results.map Result.ruleId).eraseDups)
    ∧ ∀ (b : Batch) (read : Pattern.Reader) (catalogue : Catalogue) (settings : Settings)
        (files : FileTree) (report : Report), b.run read catalogue settings files = .ok report →
        HasOwnCodes catalogue.rules →
        ∀ result ∈ (log report).results, ∃ rule ∈ (log report).rules,
          rule.id = result.ruleId ∧ rule.grade = result.grade := by
  constructor
  · intro r
    refine ⟨results_eq r, ?_, map_id_rules r⟩
    rw [map_id_rules]
    exact nodup_eraseDups _
  · intro b read catalogue settings files report hrun hcodes result hresult
    have hdeclared : result.ruleId ∈ (log report).rules.map Rule.id := by
      rw [map_id_rules, List.mem_eraseDups]
      exact List.mem_map_of_mem hresult
    obtain ⟨rule, hrule, hid⟩ := List.mem_map.mp hdeclared
    refine ⟨rule, hrule, hid, ?_⟩
    -- the rule was declared by some finding, which has the grade of the same entry of the table
    have hfirstRule : rule ∈ (items report).map Item.rule :=
      (eraseDupsBy_sublist _ _).subset (rules_eq report ▸ hrule)
    obtain ⟨item, hitem, rfl⟩ := List.mem_map.mp hfirstRule
    obtain ⟨hitemId, hitemGrade⟩ := declared_of_mem_items hitem
    have hfirst := mem_grades_of_mem_results hrun (List.mem_map_of_mem hitem)
    have hsecond := mem_grades_of_mem_results hrun hresult
    have hsame := List.inj_on_of_nodup_map (nodup_grades hcodes) hfirst hsecond
      (hitemId.symm.trans hid)
    exact hitemGrade.trans (congrArg Prod.snd hsame)

/-- A file with two calls that have the same defect, a match of a rule, a secret and a magic number.
-/
theorem log_complete_repeated_code :
    ∃ (b : Batch) (catalogue : Catalogue) (files : FileTree) (report : Report),
      b.run Pattern.ofText? catalogue {} files = .ok report ∧ HasOwnCodes catalogue.rules
      ∧ (log report).rules.map Rule.id
        = ["SPACE_AFTER_PAREN", "NO-KILL", "SENSITIVE-SECRET", "practice/magic_number"]
      ∧ ∀ result ∈ (log report).results, ∃ rule ∈ (log report).rules,
        rule.id = result.ruleId ∧ rule.grade = result.grade := by
  let text := "kill add( 77,sub( 1)) secret=\"s\""
  let b : Batch := { paths := [⟨"a.mush"⟩] }
  let rule : SecurityRule :=
    { id := "NO-KILL", pattern := "kill", risk := .high, category := "danger"
      recommendation := "" }
  let catalogue : Catalogue := { rules := [rule] }
  let files : FileTree := { entries := [(["a.mush"], .file (Text.utf8Bytes text.toList))] }
  have hdiscover : b.discover files = .ok [⟨"a.mush"⟩] := by
    have hfile : files.isFile ⟨"a.mush"⟩ = true := by decide +kernel
    simp [Batch.discover, b, Batch.expand, hfile, Batch.arrange, Batch.dropRepeats]
  have hrun : b.run Pattern.ofText? catalogue {} files
      = .ok (Report.ofResults [b.analyzeFile Pattern.ofText? catalogue {} files ⟨"a.mush"⟩]) := by
    rw [Batch.run, hdiscover]
    simp
  have hcodes : HasOwnCodes catalogue.rules := by
    refine ⟨by decide, ?_, ?_, by decide +kernel⟩
    · intro other hother code
      obtain rfl := List.mem_singleton.mp hother
      cases code <;> decide
    · intro other hother advice
      obtain rfl := List.mem_singleton.mp hother
      cases advice <;> simp [rule, Advice.category]
  refine ⟨b, catalogue, files, _, hrun, hcodes, ?_,
    log_complete.2 b Pattern.ofText? catalogue {} files _ hrun hcodes⟩
  decide +kernel

end Softcode.Sarif
