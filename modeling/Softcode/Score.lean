import Softcode.Context
import Softcode.Finding
import Softcode.Line.Profile
import Softcode.Practice.Marker

/-!
# Quality scores

Three scores from 0 to 100, computed from a few measures of the text and from the findings. The
rules are stated for any type of numbers with the operations of `Quantity`; scripts are scored in
floating-point numbers.
-/

namespace Softcode

/-- Numbers that scores are computed in. -/
class Quantity (ν : Type) extends Add ν, Sub ν, Mul ν, Div ν where
  ofNat : Nat → ν
  less : ν → ν → Bool
  /-- the lesser of two numbers; of a number and something undefined, the number -/
  lesser : ν → ν → ν
  /-- the greater of two numbers; of a number and something undefined, the number -/
  greater : ν → ν → ν
  /-- the nearest integer from 0 to 100, halves going up; zero if undefined -/
  bounded : ν → Nat

/-- Keep a floating-point number within 0 and 100 and round it, halves going up: count the half-way
marks 0.5, 1.5 and so on up to 99.5 that it reaches. Something undefined reaches none. -/
def boundedFloat (x : Float) : Nat :=
  (List.range 100).countP fun n => Float.ofNat n + 0.5 ≤ x

instance : Quantity Float where
  ofNat := Float.ofNat
  less a b := a < b
  lesser a b := if a.isNaN then b else if b.isNaN then a else if b < a then b else a
  greater a b := if a.isNaN then b else if b.isNaN then a else if a < b then b else a
  bounded := boundedFloat

namespace Score

/-- The measures of a text that scores look at. -/
structure Measures where
  totalLines : Nat
  codeLines : Nat
  commentLines : Nat
  /-- calls and commands that branch or iterate -/
  controlMarkers : Nat
  calls : Nat
  maxDepth : Nat
  deriving DecidableEq, Repr

/-- Sum over numbered lines of a count on their glyphs. -/
def sumOver (lines : List (Nat × List Char)) (count : List Glyph → Nat) : Nat :=
  lines.foldl (fun n line => n + count (Line.glyphs line.2)) 0

/-- Measure a text. -/
def measures (c : Context) : Measures :=
  let code := c.codeLines
  { totalLines := c.totalLines
    codeLines := code.length
    commentLines := c.commentLines
    controlMarkers := sumOver code Practice.controlMarkers
    calls := sumOver code fun gs => (Line.calls gs).length
    maxDepth := (BracketProfile.build code).maxDepth }

variable {ν : Type} [Quantity ν]

/-- Weights added up from the left. -/
def total (weights : List ν) : ν := weights.foldl (· + ·) (Quantity.ofNat 0)

/-- How complex a text is: its length up to a cap, its markers, its depth and its calls. -/
def complexity (w : Weights ν) (m : Measures) : ν :=
  Quantity.lesser (Quantity.ofNat m.totalLines * w.lineWeight) w.lineBaseCap
    + Quantity.ofNat m.controlMarkers * w.controlMarkerWeight
    + Quantity.ofNat m.maxDepth * w.nestingWeight
    + Quantity.ofNat m.calls * w.functionCallWeight

/-- What a finding of this risk costs. -/
def riskWeight (w : Weights ν) : Risk → ν
  | .critical => w.criticalWeight
  | .high => w.highWeight
  | .medium => w.mediumWeight
  | .low => w.lowWeight

/-- How safe a text is, given the risks found in it. -/
def security (w : Weights ν) (risks : List Risk) : ν :=
  Quantity.greater (Quantity.ofNat 100 - total (risks.map (riskWeight w))) (Quantity.ofNat 0)

/-- What a piece of advice on this aspect costs. -/
def aspectWeight (w : Weights ν) : Aspect → ν
  | .maintainability => w.maintainabilityWeight
  | .readability => w.readabilityWeight
  | .performance => w.performanceWeight
  | .security => w.securityImprovementWeight
  | .bestPractice => w.bestPracticeWeight

/-- Subtract the penalty of the first length tier that the number of code lines exceeds. -/
def afterLength (w : Weights ν) (code : Nat) (score : ν) : ν :=
  if w.hugeScriptLines < code then score - w.hugeScriptPenalty
  else if w.veryLongScriptLines < code then score - w.veryLongScriptPenalty
  else if w.longScriptLines < code then score - w.longScriptPenalty
  else score

/-- The share of comments among the lines. -/
def commentRatio (m : Measures) : ν :=
  if m.totalLines = 0 then Quantity.ofNat 0
  else Quantity.ofNat m.commentLines / Quantity.ofNat m.totalLines

/-- Penalties for few comments, or the bonus for many. -/
def afterComments (w : Weights ν) (ratio score : ν) : ν :=
  if Quantity.less ratio w.lowCommentRatio then
    if Quantity.less ratio w.veryLowCommentRatio then
      score - w.lowCommentPenalty - w.veryLowCommentPenalty
    else score - w.lowCommentPenalty
  else if Quantity.less w.goodCommentRatio ratio then score + w.goodCommentBonus
  else score

/-- How easy a text is to maintain, given the aspects of the advice on it. -/
def maintainability (w : Weights ν) (m : Measures) (aspects : List Aspect) : ν :=
  let score := afterComments w (commentRatio m) (afterLength w m.codeLines (Quantity.ofNat 100))
  let score := score - total (aspects.map (aspectWeight w))
  if 0 < m.codeLines ∧ m.codeLines < w.longScriptLines then score + w.shortScriptBonus else score

/-- All three scores, rounded. -/
def all (w : Weights ν) (m : Measures) (risks : List Risk) (aspects : List Aspect) : Scores where
  complexity := Quantity.bounded (complexity w m)
  security := Quantity.bounded (security w risks)
  maintainability := Quantity.bounded (maintainability w m aspects)

end Score

/-- The scores of a text with these findings. -/
def Context.scores (c : Context) (security : List SecurityFinding)
    (improvements : List Improvement) : Scores :=
  Score.all c.settings.scoring (Score.measures c) (security.map SecurityFinding.risk)
    (improvements.map Improvement.aspect)

end Softcode
