import Mathlib.Algebra.Order.BigOperators.Group.List
import Mathlib.Data.Rat.Floor
import Mathlib.Tactic.GCongr
import Mathlib.Tactic.Linarith
import Softcode.Proofs.Validity

/-!
# Scores in exact arithmetic

The scoring rules are stated for any type of numbers. Scripts are scored in floating-point numbers,
whose sums depend on their order and on rounding; every finite one is a rational number, and over
the rationals the rules say what they mean. `Request.scoresWith` is the score of a request under any
weights. With the weights of the settings it is the score that an analysis reports
(`scoresWith_scoring`), so the two differ in the arithmetic and in nothing else.

Rounding into the range of a score keeps the order (`bounded_mono`), a total of weights is their sum
(`total_eq_sum`), and each rule for maintainability is monotone in what it looks at.
-/

namespace Softcode

instance : Quantity ℚ where
  ofNat n := n
  less a b := decide (a < b)
  lesser := min
  greater := max
  bounded x := ⌊max 0 (min x 100) + 1 / 2⌋.toNat

/-- The scores of a request under weights in some type of numbers. -/
def Request.scoresWith {ν : Type} [Quantity ν] (w : Weights ν) (r : Request)
    (read : Pattern.Reader) (catalogue : Catalogue) (settings : Settings) : Except Failure Scores :=
  match r.context catalogue settings with
  | .error failure => .error failure
  | .ok c =>
    let result := c.analyze read catalogue.rules
    .ok (Score.all w (Score.measures c) (result.securityFindings.map SecurityFinding.risk)
      (result.improvements.map Improvement.aspect))

/-- With the weights of the settings these are the scores that an analysis reports. -/
theorem Request.scoresWith_scoring (r : Request) (read : Pattern.Reader) (catalogue : Catalogue)
    (settings : Settings) :
    r.scoresWith settings.scoring read catalogue settings
      = (r.analyze read catalogue settings).map AnalysisResult.scores := by
  rw [scoresWith, analyze]
  cases hcontext : r.context catalogue settings with
  | error failure => rfl
  | ok c =>
      obtain ⟨-, -, hsettings⟩ := context_of_ok hcontext
      rw [← hsettings]
      rfl

/-- Weights under which comments are worth something and advice costs something, if only nothing. -/
structure Weights.RewardsComments (w : Weights ℚ) : Prop where
  lowCommentPenalty : 0 ≤ w.lowCommentPenalty
  veryLowCommentPenalty : 0 ≤ w.veryLowCommentPenalty
  goodCommentBonus : 0 ≤ w.goodCommentBonus
  aspectWeight : ∀ aspect, 0 ≤ Score.aspectWeight w aspect

theorem Weights.rewardsComments_standard : (Weights.standard : Weights ℚ).RewardsComments := by
  refine ⟨?_, ?_, ?_, fun aspect => ?_⟩
  · norm_num [Weights.standard]
  · norm_num [Weights.standard]
  · norm_num [Weights.standard]
  · cases aspect <;> norm_num [Score.aspectWeight, Weights.standard]

namespace Score

/-- Rounding into the range of a score keeps the order. -/
theorem bounded_mono {x y : ℚ} (h : x ≤ y) : Quantity.bounded x ≤ Quantity.bounded y := by
  refine Int.toNat_le_toNat (Int.floor_le_floor ?_)
  gcongr

/-- In exact arithmetic a total is a sum. -/
theorem total_eq_sum (weights : List ℚ) : total weights = weights.sum := by
  rw [List.sum_eq_foldl]
  rfl

theorem less_iff (x y : ℚ) : Quantity.less x y = true ↔ x < y := decide_eq_true_iff

/-- The more of the lines are comments, the better: the ratio passes from both penalties to one, to
none and to the bonus, wherever the thresholds are. -/
theorem afterComments_mono {w : Weights ℚ} (hw : w.RewardsComments) {r r' : ℚ} (h : r ≤ r')
    (score : ℚ) : afterComments w r score ≤ afterComments w r' score := by
  obtain ⟨hlow, hveryLow, hbonus, -⟩ := hw
  simp only [afterComments, less_iff]
  by_cases hlow' : r' < w.lowCommentRatio
  · -- both ratios are low, and only the smaller one can be very low alone
    have hrlow : r < w.lowCommentRatio := lt_of_le_of_lt h hlow'
    rw [if_pos hrlow, if_pos hlow']
    by_cases hvery : r < w.veryLowCommentRatio
    · rw [if_pos hvery]
      split <;> linarith
    · have hvery' : ¬ r' < w.veryLowCommentRatio := fun h' => hvery (lt_of_le_of_lt h h')
      rw [if_neg hvery, if_neg hvery']
  · rw [if_neg hlow']
    by_cases hrlow : r < w.lowCommentRatio
    · rw [if_pos hrlow]
      split <;> split <;> linarith
    · rw [if_neg hrlow]
      by_cases hgood : w.goodCommentRatio < r
      · rw [if_pos hgood, if_pos (lt_of_lt_of_le hgood h)]
      · rw [if_neg hgood]
        split <;> linarith

/-- Lines that are all comments raise the share of comments. -/
theorem commentRatio_le_of_added {m m' : Measures} {k : Nat} (h : m.commentLines ≤ m.totalLines)
    (htotal : m'.totalLines = m.totalLines + k)
    (hcomments : m'.commentLines = m.commentLines + k) :
    (commentRatio m : ℚ) ≤ commentRatio m' := by
  have hratio : (commentRatio m' : ℚ) = if m.totalLines + k = 0 then 0
      else ((m.commentLines + k : Nat) : ℚ) / ((m.totalLines + k : Nat) : ℚ) := by
    rw [commentRatio, htotal, hcomments]
    rfl
  rw [hratio, commentRatio]
  by_cases hzero : m.totalLines = 0
  · rw [if_pos hzero]
    split
    · exact le_refl _
    · exact div_nonneg (Nat.cast_nonneg _) (Nat.cast_nonneg _)
  · have hpos : 0 < m.totalLines := Nat.pos_of_ne_zero hzero
    have hpos' : 0 < m.totalLines + k := by omega
    rw [if_neg hzero, if_neg (Nat.pos_iff_ne_zero.mp hpos')]
    show (m.commentLines : ℚ) / (m.totalLines : ℚ) ≤ _
    rw [div_le_div_iff₀ (by exact_mod_cast hpos) (by exact_mod_cast hpos')]
    have hcross : m.commentLines * (m.totalLines + k) ≤ (m.commentLines + k) * m.totalLines := by
      calc m.commentLines * (m.totalLines + k)
          = m.commentLines * m.totalLines + m.commentLines * k := Nat.mul_add _ _ _
        _ ≤ m.commentLines * m.totalLines + m.totalLines * k :=
          Nat.add_le_add_left (Nat.mul_le_mul_right k h) _
        _ = (m.commentLines + k) * m.totalLines := by rw [Nat.add_mul, Nat.mul_comm k]
    exact_mod_cast hcross

/-- With as many code lines, a greater share of comments and less advice, a text is easier to
maintain. -/
theorem maintainability_mono {w : Weights ℚ} (hw : w.RewardsComments) {m m' : Measures}
    {aspects aspects' : List Aspect} (hcode : m'.codeLines = m.codeLines)
    (hratio : (commentRatio m : ℚ) ≤ commentRatio m') (haspects : aspects'.Sublist aspects) :
    maintainability w m aspects ≤ maintainability w m' aspects' := by
  have hcomments := afterComments_mono hw hratio (afterLength w m.codeLines (Quantity.ofNat 100))
  have htotal : total (aspects'.map (aspectWeight w)) ≤ total (aspects.map (aspectWeight w)) := by
    rw [total_eq_sum, total_eq_sum]
    refine (haspects.map (aspectWeight w)).sum_le_sum fun x hx => ?_
    obtain ⟨aspect, -, rfl⟩ := List.mem_map.mp hx
    exact hw.aspectWeight aspect
  simp only [maintainability, hcode]
  split <;> linarith

end Score

end Softcode
