/-!
# Settings

Limits, thresholds and scoring weights. The weights are generic in the type of numbers they are
written in, so that the same scoring rules can be run on floating-point numbers and reasoned about
in exact arithmetic.
-/

namespace Softcode

/-- Weights of the three quality scores. -/
structure Weights (ν : Type) where
  lineWeight : ν
  lineBaseCap : ν
  controlMarkerWeight : ν
  nestingWeight : ν
  functionCallWeight : ν
  criticalWeight : ν
  highWeight : ν
  mediumWeight : ν
  lowWeight : ν
  longScriptLines : Nat
  longScriptPenalty : ν
  veryLongScriptLines : Nat
  veryLongScriptPenalty : ν
  hugeScriptLines : Nat
  hugeScriptPenalty : ν
  lowCommentRatio : ν
  lowCommentPenalty : ν
  veryLowCommentRatio : ν
  veryLowCommentPenalty : ν
  goodCommentRatio : ν
  goodCommentBonus : ν
  shortScriptBonus : ν
  maintainabilityWeight : ν
  readabilityWeight : ν
  performanceWeight : ν
  securityImprovementWeight : ν
  bestPracticeWeight : ν
  deriving Repr

/-- The weights used unless others are given. -/
def Weights.standard {ν : Type} [OfScientific ν] : Weights ν where
  lineWeight := 0.5
  lineBaseCap := 20.0
  controlMarkerWeight := 2.0
  nestingWeight := 3.0
  functionCallWeight := 0.5
  criticalWeight := 30.0
  highWeight := 20.0
  mediumWeight := 10.0
  lowWeight := 5.0
  longScriptLines := 50
  longScriptPenalty := 10.0
  veryLongScriptLines := 100
  veryLongScriptPenalty := 20.0
  hugeScriptLines := 200
  hugeScriptPenalty := 30.0
  lowCommentRatio := 0.10
  lowCommentPenalty := 15.0
  veryLowCommentRatio := 0.05
  veryLowCommentPenalty := 10.0
  goodCommentRatio := 0.20
  goodCommentBonus := 5.0
  shortScriptBonus := 5.0
  maintainabilityWeight := 5.0
  readabilityWeight := 3.0
  performanceWeight := 4.0
  securityImprovementWeight := 6.0
  bestPracticeWeight := 2.0

/-- Limits and weights of an analysis. -/
structure Settings where
  /-- longest text accepted, in characters -/
  maxTextLength : Nat := 50000
  /-- width of one step of indentation; zero leaves the width free -/
  indentUnit : Nat := 2
  maxLineLength : Nat := 200
  maxNestingDepth : Nat := 10
  maxAttributeNameLength : Nat := 32
  maxCommandNameLength : Nat := 20
  maxVariableIndex : Nat := 99
  complexityThreshold : Nat := 10
  scoring : Weights Float := .standard
  deriving Repr

/-- Which passes of an analysis run, and how strictly. -/
structure Options where
  strictMode : Bool := false
  checkSecurity : Bool := true
  checkBestPractices : Bool := true
  deriving DecidableEq, Repr

end Softcode
