import Softcode.Proofs.ExactScore
import Softcode.Proofs.TextLines

/-!
# Growing scripts

A script to which lines are added keeps the lines it has (`lines_prefix_join`), so nothing that is
counted on them is lost: not the lines, the markers and the calls, nor the depth that the walk over
the brackets has reached, whatever is left open where the new lines begin (`measures_join`).

Each of these counts has a weight, and the score is at most capped, so a script never gets less
complex by growing. Weights may be infinite or undefined in the settings; `Exact` has these values
next to the rational numbers, and with them the cap may be anything at all.
-/

namespace Softcode

/-! ## Exact numbers -/

/-- A rational number, or one of the values that stand for none. -/
inductive Exact where
  | finite (x : ℚ)
  | infinite (positive : Bool)
  | undefined
  deriving DecidableEq

namespace Exact

/-- The opposite number. -/
def neg : Exact → Exact
  | finite x => finite (-x)
  | infinite positive => infinite !positive
  | undefined => undefined

/-- Sums are exact; opposite infinities have none. -/
def add : Exact → Exact → Exact
  | finite x, finite y => finite (x + y)
  | infinite s, infinite t => if s = t then infinite s else undefined
  | infinite s, finite _ => infinite s
  | finite _, infinite t => infinite t
  | _, _ => undefined

/-- Products are exact; zero times infinity has none. -/
def mul : Exact → Exact → Exact
  | finite x, finite y => finite (x * y)
  | infinite s, infinite t => infinite (s == t)
  | infinite s, finite y => if y = 0 then undefined else infinite (s == decide (0 < y))
  | finite x, infinite t => if x = 0 then undefined else infinite (decide (0 < x) == t)
  | _, _ => undefined

/-- The reciprocal of a number. -/
def inv : Exact → Exact
  | finite x => if x = 0 then infinite true else finite x⁻¹
  | infinite _ => finite 0
  | undefined => undefined

/-- The first number is less than the second. -/
def less : Exact → Exact → Bool
  | finite x, finite y => decide (x < y)
  | infinite s, infinite t => !s && t
  | infinite s, finite _ => !s
  | finite _, infinite t => t
  | _, _ => false

/-- The nearest integer from 0 to 100; zero if undefined. -/
def bounded : Exact → Nat
  | finite x => Quantity.bounded x
  | infinite positive => if positive then 100 else 0
  | undefined => 0

end Exact

open Exact in
instance : Quantity Exact where
  add := add
  sub a b := add a (neg b)
  mul := mul
  div a b := mul a (inv b)
  ofNat n := finite n
  less := less
  lesser a b :=
    if a = undefined then b else if b = undefined then a else if less b a then b else a
  greater a b :=
    if a = undefined then b else if b = undefined then a else if less a b then b else a
  bounded := bounded

instance : OfScientific Exact where
  ofScientific mantissa sign exponent := .finite (OfScientific.ofScientific mantissa sign exponent)

namespace Exact

/-- A finite weight that is not negative. -/
def IsCost (a : Exact) : Prop := ∃ x : ℚ, 0 ≤ x ∧ a = finite x

/-- The same value, or a finite number and one that is not less. -/
inductive Grows : Exact → Exact → Prop
  | step {x y : ℚ} (h : x ≤ y) : Grows (finite x) (finite y)
  | same (a : Exact) : Grows a a

/-- A cap lets through what grows, or stops it for good. -/
theorem grows_lesser {x y : ℚ} (h : x ≤ y) (cap : Exact) :
    Grows (Quantity.lesser (finite x) cap) (Quantity.lesser (finite y) cap) := by
  have hlesser : ∀ z : ℚ, Quantity.lesser (finite z) cap
      = if cap = undefined then finite z else if less cap (finite z) then cap else finite z :=
    fun z => rfl
  rw [hlesser, hlesser]
  cases cap with
  | undefined => exact .step h
  | infinite positive =>
      cases positive with
      | false => exact .same _
      | true => exact .step h
  | finite k =>
      simp only [reduceCtorEq, if_false, less, decide_eq_true_iff]
      by_cases hy : k < y
      · rw [if_pos hy]
        split
        · exact .same _
        · rename_i hx
          exact .step (not_lt.mp hx)
      · rw [if_neg hy, if_neg (fun hx => hy (lt_of_lt_of_le hx h))]
        exact .step h

/-- Growing numbers keep growing when a greater cost is added to the greater one. -/
theorem Grows.add {a b : Exact} (hab : Grows a b) {x y : ℚ} (hxy : x ≤ y) :
    Grows (a + finite x) (b + finite y) := by
  cases hab with
  | step h => exact .step (add_le_add h hxy)
  | same a =>
      cases a with
      | finite z => exact .step (add_le_add le_rfl hxy)
      | infinite positive => exact .same _
      | undefined => exact .same _

/-- A number that grows has no smaller score. -/
theorem bounded_le_of_grows {a b : Exact} (hab : Grows a b) :
    Quantity.bounded a ≤ Quantity.bounded b := by
  cases hab with
  | step h => exact Score.bounded_mono h
  | same a => exact Nat.le_refl _

end Exact

/-- Weights under which what is counted costs something, if only nothing. The cap is free. -/
structure Weights.ChargesCounts (w : Weights Exact) : Prop where
  lineWeight : w.lineWeight.IsCost
  controlMarkerWeight : w.controlMarkerWeight.IsCost
  nestingWeight : w.nestingWeight.IsCost
  functionCallWeight : w.functionCallWeight.IsCost

/-- The standard weights charge the counts, whatever the cap on lines. -/
theorem Weights.chargesCounts_standard (cap : Exact) :
    { (Weights.standard : Weights Exact) with lineBaseCap := cap }.ChargesCounts where
  lineWeight := ⟨0.5, by norm_num, rfl⟩
  controlMarkerWeight := ⟨2.0, by norm_num, rfl⟩
  nestingWeight := ⟨3.0, by norm_num, rfl⟩
  functionCallWeight := ⟨0.5, by norm_num, rfl⟩

/-! ## What is counted -/

/-- What no step makes smaller, no run makes smaller. -/
theorem le_foldl {α β : Type} (size : β → Nat) {step : β → α → β}
    (hstep : ∀ state a, size state ≤ size (step state a)) (as : List α) (state : β) :
    size state ≤ size (as.foldl step state) := by
  induction as generalizing state with
  | nil => exact Nat.le_refl _
  | cons a as ih => exact (hstep state a).trans (ih (step state a))

/-- What no step makes smaller is not greater after the first part of a run. -/
theorem foldl_le_foldl_of_prefix {α β : Type} (size : β → Nat) {step : β → α → β}
    (hstep : ∀ state a, size state ≤ size (step state a)) {as bs : List α} (h : as <+: bs)
    (state : β) : size (as.foldl step state) ≤ size (bs.foldl step state) := by
  obtain ⟨rest, rfl⟩ := h
  rw [List.foldl_append]
  exact le_foldl size hstep rest _

namespace BracketProfile

/-- A glyph never lowers the greatest depth. -/
theorem maxDepth_le_addGlyph (number : Nat) (state : BracketProfile × List Bracket) (g : Glyph) :
    state.1.maxDepth ≤ (addGlyph number state g).1.maxDepth := by
  obtain ⟨p, stack⟩ := state
  rw [addGlyph]
  cases g.opens with
  | some kind =>
      simp only
      by_cases hdeeper : p.maxDepth < p.depth + 1
      · rw [if_pos hdeeper]
        exact hdeeper.le
      · rw [if_neg hdeeper]
  | none =>
      cases g.closes with
      | some kind => exact Nat.le_refl _
      | none => exact Nat.le_refl _

/-- A line never lowers the greatest depth. -/
theorem maxDepth_le_addLine (p : BracketProfile) (line : Nat × List Char) :
    p.maxDepth ≤ (p.addLine line).maxDepth :=
  le_foldl (fun state => state.1.maxDepth) (maxDepth_le_addGlyph line.1) (Line.glyphs line.2)
    (p, [])

/-- Lines at the end only ever deepen a profile. -/
theorem maxDepth_build_le_of_prefix {ls ms : List (Nat × List Char)} (h : ls <+: ms) :
    (build ls).maxDepth ≤ (build ms).maxDepth :=
  foldl_le_foldl_of_prefix maxDepth maxDepth_le_addLine h {}

end BracketProfile

/-- A text keeps its lines when others are added after a line feed. -/
theorem Text.lines_prefix_join (a b : List Char) : lines a <+: lines (a ++ '\n' :: b) := by
  rw [lines_join]
  rcases terminated_eq a with h | h
  · rw [h]
    exact List.prefix_append _ _
  · rw [h, List.append_assoc]
    exact List.prefix_append _ _

/-- Added lines get the numbers behind the old ones. -/
theorem numberedFrom_append (first : Nat) (ls ms : List (List Char)) :
    numberedFrom first (ls ++ ms)
      = numberedFrom first ls ++ numberedFrom (first + ls.length) ms := by
  induction ls generalizing first with
  | nil => rfl
  | cons line ls ih =>
      have hnext : first + 1 + ls.length = first + (line :: ls).length := by
        rw [List.length_cons]
        omega
      rw [List.cons_append, numberedFrom, numberedFrom, ih, hnext, List.cons_append]

/-- Added lines leave the old code lines in front. -/
theorem Context.codeLines_prefix {c c' : Context} (h : c.lines <+: c'.lines) :
    c.codeLines <+: c'.codeLines := by
  obtain ⟨more, hmore⟩ := h
  rw [codeLines, codeLines, ← hmore, numberedFrom_append]
  exact (List.prefix_append _ _).filter _

namespace Score

/-- Every measure that adds to complexity is at most the other's. -/
structure Measures.Within (m m' : Measures) : Prop where
  totalLines : m.totalLines ≤ m'.totalLines
  controlMarkers : m.controlMarkers ≤ m'.controlMarkers
  maxDepth : m.maxDepth ≤ m'.maxDepth
  calls : m.calls ≤ m'.calls

/-- A count over more lines is no smaller. -/
theorem sumOver_le_of_prefix {ls ms : List (Nat × List Char)} (h : ls <+: ms)
    (count : List Glyph → Nat) : sumOver ls count ≤ sumOver ms count :=
  foldl_le_foldl_of_prefix id (fun _ _ => Nat.le_add_right _ _) h 0

/-- No measure gets smaller when lines are added. -/
theorem measures_join (c : Context) (addition : List Char) :
    (measures c).Within (measures { c with text := c.text ++ '\n' :: addition }) := by
  have hlines : c.lines <+: Context.lines { c with text := c.text ++ '\n' :: addition } :=
    Text.lines_prefix_join c.text addition
  have hcode := Context.codeLines_prefix hlines
  exact
    { totalLines := hlines.length_le
      controlMarkers := sumOver_le_of_prefix hcode Practice.controlMarkers
      maxDepth := BracketProfile.maxDepth_build_le_of_prefix hcode
      calls := sumOver_le_of_prefix hcode fun gs => (Line.calls gs).length }

open Exact in
/-- More of everything is not less complex. The terms are added from the left, and only the first
one can be anything but finite. -/
theorem complexity_grows {w : Weights Exact} (hw : w.ChargesCounts) {m m' : Measures}
    (hm : m.Within m') : Grows (complexity w m) (complexity w m') := by
  obtain ⟨line, hline, hlineWeight⟩ := hw.lineWeight
  obtain ⟨marker, hmarker, hmarkerWeight⟩ := hw.controlMarkerWeight
  obtain ⟨nesting, hnesting, hnestingWeight⟩ := hw.nestingWeight
  obtain ⟨call, hcall, hcallWeight⟩ := hw.functionCallWeight
  have hcost : ∀ {n n' : Nat} {x : ℚ}, 0 ≤ x → n ≤ n' → (n : ℚ) * x ≤ n' * x :=
    fun hx hn => mul_le_mul_of_nonneg_right (Nat.cast_le.mpr hn) hx
  rw [complexity, complexity, hlineWeight, hmarkerWeight, hnestingWeight, hcallWeight]
  have hlines := grows_lesser (hcost hline hm.totalLines) w.lineBaseCap
  exact ((hlines.add (hcost hmarker hm.controlMarkers)).add (hcost hnesting hm.maxDepth)).add
    (hcost hcall hm.calls)

end Score

/-- The scores of a script under weights in some type of numbers. -/
def Context.scoresWith {ν : Type} [Quantity ν] (w : Weights ν) (c : Context)
    (read : Pattern.Reader) (rules : List SecurityRule) : Scores :=
  let result := c.analyze read rules
  Score.all w (Score.measures c) (result.securityFindings.map SecurityFinding.risk)
    (result.improvements.map Improvement.aspect)

/-- **Growing a script never lowers its complexity.** With the weights of its settings `scoresWith`
gives the scores that an analysis reports. In exact arithmetic, if lines, markers, depth and calls
have finite weights that are not negative, whatever the cap on lines is, a text followed by a line
feed and any other text is at least as complex as the text alone. -/
theorem growth_never_lowers_complexity :
    (∀ (c : Context) (read : Pattern.Reader) (rules : List SecurityRule),
      c.scoresWith c.settings.scoring read rules = (c.analyze read rules).scores)
    ∧ ∀ (w : Weights Exact), w.ChargesCounts →
      ∀ (c : Context) (addition : List Char) (read : Pattern.Reader) (rules : List SecurityRule),
        (c.scoresWith w read rules).complexity ≤ (Context.scoresWith w
          { c with text := c.text ++ '\n' :: addition } read rules).complexity := by
  refine ⟨fun _ _ _ => rfl, ?_⟩
  intro w hw c addition read rules
  exact Exact.bounded_le_of_grows (Score.complexity_grows hw (Score.measures_join c addition))

/-- A call left open at the end of a text is closed twice in what follows, where two brackets are
opened. The cap is infinite. -/
theorem growth_never_lowers_complexity_unbalanced :
    ∃ (w : Weights Exact) (s s' : Scores), w.lineBaseCap = .infinite true ∧ w.ChargesCounts
      ∧ Context.scoresWith w { text := "think add(1".toList } Pattern.ofText? [] = s
      ∧ Context.scoresWith w { text := "think add(1".toList ++ '\n' :: "))[sub(2".toList }
          Pattern.ofText? [] = s'
      ∧ s.complexity ≤ s'.complexity
      ∧ s.complexity = 4 ∧ s'.complexity = 8 := by
  let w : Weights Exact := { (Weights.standard : Weights Exact) with lineBaseCap := .infinite true }
  have hw : w.ChargesCounts := Weights.chargesCounts_standard _
  have hle := growth_never_lowers_complexity.2 w hw { text := "think add(1".toList }
    "))[sub(2".toList Pattern.ofText? []
  refine ⟨w, _, _, rfl, hw, rfl, rfl, hle, ?_, ?_⟩
  · decide +kernel
  · decide +kernel

end Softcode
