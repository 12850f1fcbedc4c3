import Softcode.Analysis
import Softcode.Pattern.Reader
import Softcode.Proofs.FirstOccurrence
import Softcode.Proofs.FloatOrder

/-!
# Security rules and dialects

A script is scanned for the rules of a catalogue one after the other, so a dialect can only take
rules out: what is found for it is part of what is found without a dialect, in the same order
(`scan_sublist`), and a rule that cannot be read takes no part at all (`scan_filter_readable`). This
holds however patterns are read.
Fewer findings cost less. The score is computed in floating-point numbers, where this is a matter of
every single addition (`total_le_of_sublist`) and of the subtraction and the rounding after them
(`security_le_of_sublist`).
-/

namespace Softcode

/-- The rule is meant for the dialect: it names none, or it names this one by its identifier or its
display name, whatever the case of the letters. -/
def SecurityRule.Concerns (rule : SecurityRule) (d : Dialect) : Prop :=
  rule.dialects = [] ∨ ∃ label ∈ rule.dialects,
    Text.lower label.toList = Text.lower d.id.toList
      ∨ Text.lower label.toList = Text.lower d.name.toList

instance (rule : SecurityRule) (d : Dialect) : Decidable (rule.Concerns d) :=
  inferInstanceAs (Decidable (_ ∨ _))

/-- A rule applies to the dialects it concerns. -/
theorem SecurityRule.appliesTo_iff (rule : SecurityRule) (d : Dialect) :
    rule.appliesTo d = true ↔ rule.Concerns d := by
  have hname : ∀ label : String, d.isNamed label = true ↔
      Text.lower label.toList = Text.lower d.id.toList
        ∨ Text.lower label.toList = Text.lower d.name.toList := by
    intro label
    rw [Dialect.isNamed, Text.sameName, Text.sameName, Bool.or_eq_true, beq_iff_eq, beq_iff_eq,
      eq_comm, @eq_comm _ (Text.lower d.name.toList)]
  simp only [appliesTo, Concerns, Bool.or_eq_true, List.isEmpty_iff, List.any_eq_true, hname]

namespace Security

variable (read : Pattern.Reader)

/-- What a list of rules finds in a script, rule by rule. -/
def found (c : Context) (rules : List SecurityRule) : List SecurityFinding :=
  rules.flatMap fun rule => rule.findings read (Text.LineIndex.build c.text) c.totalLines

theorem found_append (c : Context) (rules more : List SecurityRule) :
    found read c (rules ++ more) = found read c rules ++ found read c more := List.flatMap_append

/-- Without a dialect every rule is searched for. -/
theorem scan_none (c : Context) (rules : List SecurityRule) :
    scan read { c with dialect := none } rules = found read c (rules ++ sensitiveRules) := by
  have happlicable : applicable none rules = rules := List.filter_eq_self.mpr fun _ _ => rfl
  rw [scan, happlicable]
  rfl

/-- With a dialect, the rules that are meant for it are scanned for, and the rules for secrets. -/
theorem scan_some (c : Context) (d : Dialect) (rules : List SecurityRule) :
    scan read { c with dialect := some d } rules
      = found read c (rules.filter (fun rule => rule.Concerns d) ++ sensitiveRules) := by
  have happlicable : applicable (some d) rules = rules.filter fun rule => rule.Concerns d := by
    refine List.filter_congr fun rule _ => ?_
    rw [Bool.eq_iff_iff, decide_eq_true_iff]
    exact rule.appliesTo_iff d
  rw [scan, happlicable]
  rfl

/-- With a dialect, what is found is part of what is found without one. -/
theorem scan_sublist (c : Context) (d : Dialect) (rules : List SecurityRule) :
    (scan read { c with dialect := some d } rules).Sublist
      (scan read { c with dialect := none } rules) := by
  rw [scan_none, scan_some]
  exact (List.filter_sublist.append_right _).flatMap _

variable {read} in
/-- A rule without a pattern finds nothing. -/
theorem findings_eq_nil {rule : SecurityRule} (h : rule.pattern? read = none)
    (index : Text.LineIndex) (totalLines : Nat) : rule.findings read index totalLines = [] := by
  rw [SecurityRule.findings, h]

/-- Rules that cannot be read add nothing and take nothing away. -/
theorem scan_filter_readable (c : Context) (rules : List SecurityRule) :
    scan read c (rules.filter fun rule => (rule.pattern? read).isSome) = scan read c rules := by
  have hfound : ∀ rules : List SecurityRule,
      found read c (rules.filter fun rule => (rule.pattern? read).isSome) = found read c rules := by
    intro rules
    refine flatMap_filter_of_nil rules fun rule _ hrule => ?_
    exact findings_eq_nil (Option.not_isSome_iff_eq_none.mp (by simp [hrule])) _ _
  have happlicable : applicable c.dialect (rules.filter fun rule => (rule.pattern? read).isSome)
      = (applicable c.dialect rules).filter fun rule => (rule.pattern? read).isSome := by
    simp only [applicable, List.filter_filter, Bool.and_comm]
  show found read c (applicable c.dialect _ ++ sensitiveRules)
    = found read c (applicable c.dialect rules ++ sensitiveRules)
  rw [happlicable, found_append, found_append, hfound]

end Security

namespace Score

open Binary64

/-- Leaving out numbers that are not negative makes no floating-point total greater. The induction
goes along both sums at once, from any two totals so far. -/
theorem foldl_add_le_of_sublist {xs ys : List Float} (h : xs.Sublist ys) (hys : ∀ y ∈ ys, 0 ≤ y)
    {a b : Float} (ha : 0 ≤ a) (hab : a ≤ b) : xs.foldl (· + ·) a ≤ ys.foldl (· + ·) b := by
  induction h generalizing a b with
  | slnil => exact hab
  | cons y h ih =>
      have hy : 0 ≤ y := hys y List.mem_cons_self
      have hstep : a ≤ b + y := le_trans hab (le_add_right (le_trans ha hab) hy)
      exact ih (fun z hz => hys z (List.mem_cons_of_mem y hz)) ha hstep
  | cons_cons y h ih =>
      have hy : 0 ≤ y := hys y List.mem_cons_self
      have hnonneg : 0 ≤ a + y := le_trans ha (le_add_right ha hy)
      exact ih (fun z hz => hys z (List.mem_cons_of_mem y hz)) hnonneg (add_le_add_right ha hab hy)

/-- Leaving out numbers that are not negative does not raise a total. -/
theorem total_le_of_sublist {xs ys : List Float} (h : xs.Sublist ys) (hys : ∀ y ∈ ys, 0 ≤ y) :
    total xs ≤ total ys := by
  have hzero : (0 : Float) ≤ 0 := by decide
  exact foldl_add_le_of_sublist h hys hzero hzero

theorem total_nil : total ([] : List Float) = 0 := rfl

theorem finite_hundred : Finite (Quantity.ofNat 100) := rfl

/-- Fewer risks leave a script safer, to the last rounding. -/
theorem security_le_of_sublist {w : Weights Float} (hw : ∀ risk, 0 ≤ riskWeight w risk)
    {few many : List Risk} (h : few.Sublist many) :
    Quantity.bounded (security w many) ≤ Quantity.bounded (security w few) := by
  have hweights : ∀ risks : List Risk, ∀ x ∈ risks.map (riskWeight w), 0 ≤ x := by
    intro risks x hx
    obtain ⟨risk, -, rfl⟩ := List.mem_map.mp hx
    exact hw risk
  have hnonneg : 0 ≤ total (few.map (riskWeight w)) := by
    rw [← total_nil]
    exact total_le_of_sublist (List.nil_sublist _) (hweights few)
  have htotal : total (few.map (riskWeight w)) ≤ total (many.map (riskWeight w)) :=
    total_le_of_sublist (h.map _) (hweights many)
  have hleft : Quantity.ofNat 100 - total (many.map (riskWeight w))
      ≤ Quantity.ofNat 100 - total (few.map (riskWeight w)) :=
    sub_le_sub_left finite_hundred hnonneg htotal
  have hzero : (Quantity.ofNat 0 : Float).isNaN = false := rfl
  have hsecurity : security w many ≤ security w few := greater_le_greater hleft hzero
  exact boundedFloat_mono hsecurity

end Score

/-- **A dialect only filters.** However patterns are read, among the security findings of a script
for a dialect are, in the same order, exactly those of the rules that are meant for the dialect and
of the three rules for secrets. Rules that cannot be read change nothing. If no risk has a negative
weight, the script is not less safe for a dialect than without one. -/
theorem dialect_filters_security (read : Pattern.Reader) (c : Context) (d : Dialect)
    (rules : List SecurityRule) :
    (Security.scan read { c with dialect := some d } rules).Sublist
        (Security.scan read { c with dialect := none } rules)
      ∧ Security.scan read { c with dialect := some d } rules
        = (rules.filter (fun rule => rule.Concerns d) ++ Security.sensitiveRules).flatMap
          (fun rule => rule.findings read (Text.LineIndex.build c.text) c.totalLines)
      ∧ Security.scan read c (rules.filter fun rule => (rule.pattern? read).isSome)
        = Security.scan read c rules
      ∧ ((∀ risk, 0 ≤ Score.riskWeight c.settings.scoring risk) →
        (Context.analyze { c with dialect := none } read rules).scores.security
          ≤ (Context.analyze { c with dialect := some d } read rules).scores.security) := by
  have hsublist := Security.scan_sublist read c d rules
  refine ⟨hsublist, Security.scan_some read c d rules, Security.scan_filter_readable read c rules,
    ?_⟩
  intro hweights
  have hfindings :
      (Context.analyze { c with dialect := some d } read rules).securityFindings.Sublist
        (Context.analyze { c with dialect := none } read rules).securityFindings := by
    simp only [Context.analyze]
    split
    · exact hsublist
    · exact List.Sublist.refl []
  exact Score.security_le_of_sublist hweights (hfindings.map SecurityFinding.risk)

/-- A rule for another dialect, one that cannot be read, and one that names the dialect in another
case. For the dialect only the last one is left, next to the secret. -/
theorem dialect_filters_security_other_dialect :
    ∃ (c : Context) (d : Dialect) (rules : List SecurityRule),
      (∀ risk, 0 ≤ Score.riskWeight c.settings.scoring risk)
      ∧ (Security.scan Pattern.ofText? { c with dialect := none } rules).map SecurityFinding.ruleId
        = ["other", "named", "SENSITIVE-SECRET"]
      ∧ (Security.scan Pattern.ofText? { c with dialect := some d } rules).map
          SecurityFinding.ruleId
        = ["named", "SENSITIVE-SECRET"]
      ∧ (Context.analyze { c with dialect := none } Pattern.ofText? rules).scores.security
        ≤ (Context.analyze { c with dialect := some d } Pattern.ofText? rules).scores.security := by
  let c : Context := { text := "kill secret=\"s\"".toList }
  let d : Dialect := { id := "d", name := "Dialect" }
  let rule (id pattern label : String) (risk : Risk) : SecurityRule :=
    { id, pattern, risk, category := "danger", dialects := [label], recommendation := "" }
  let rules := [rule "other" "kill" "e" .high, rule "unreadable" "(" "d" .critical,
    rule "named" "kill" "DIALECT" .low]
  have hweights : ∀ risk, 0 ≤ Score.riskWeight c.settings.scoring risk := by
    intro risk
    cases risk <;> decide +kernel
  refine ⟨c, d, rules, hweights, ?_, ?_,
    (dialect_filters_security Pattern.ofText? c d rules).2.2.2 hweights⟩
  · decide +kernel
  · decide +kernel

end Softcode
