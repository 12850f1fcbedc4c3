import Softcode.Json.Basic
import Softcode.Record.Source
import Softcode.Settings

/-!
# Settings as records

Every field of the settings has a default, so a record may leave out any of them. Fields that are
not known do not count.
-/

namespace Softcode

/-- The fields of the weights, in order. -/
def Weights.slots : List (Slot (Weights Float)) :=
  [ .real "line_weight" (·.lineWeight)
      fun w x => { w with lineWeight := x },
    .real "line_base_cap" (·.lineBaseCap)
      fun w x => { w with lineBaseCap := x },
    .real "control_marker_weight" (·.controlMarkerWeight)
      fun w x => { w with controlMarkerWeight := x },
    .real "nesting_weight" (·.nestingWeight)
      fun w x => { w with nestingWeight := x },
    .real "function_call_weight" (·.functionCallWeight)
      fun w x => { w with functionCallWeight := x },
    .real "critical_weight" (·.criticalWeight)
      fun w x => { w with criticalWeight := x },
    .real "high_weight" (·.highWeight)
      fun w x => { w with highWeight := x },
    .real "medium_weight" (·.mediumWeight)
      fun w x => { w with mediumWeight := x },
    .real "low_weight" (·.lowWeight)
      fun w x => { w with lowWeight := x },
    .natural "long_script_lines" (·.longScriptLines)
      fun w x => { w with longScriptLines := x },
    .real "long_script_penalty" (·.longScriptPenalty)
      fun w x => { w with longScriptPenalty := x },
    .natural "very_long_script_lines" (·.veryLongScriptLines)
      fun w x => { w with veryLongScriptLines := x },
    .real "very_long_script_penalty" (·.veryLongScriptPenalty)
      fun w x => { w with veryLongScriptPenalty := x },
    .natural "huge_script_lines" (·.hugeScriptLines)
      fun w x => { w with hugeScriptLines := x },
    .real "huge_script_penalty" (·.hugeScriptPenalty)
      fun w x => { w with hugeScriptPenalty := x },
    .real "low_comment_ratio" (·.lowCommentRatio)
      fun w x => { w with lowCommentRatio := x },
    .real "low_comment_penalty" (·.lowCommentPenalty)
      fun w x => { w with lowCommentPenalty := x },
    .real "very_low_comment_ratio" (·.veryLowCommentRatio)
      fun w x => { w with veryLowCommentRatio := x },
    .real "very_low_comment_penalty" (·.veryLowCommentPenalty)
      fun w x => { w with veryLowCommentPenalty := x },
    .real "good_comment_ratio" (·.goodCommentRatio)
      fun w x => { w with goodCommentRatio := x },
    .real "good_comment_bonus" (·.goodCommentBonus)
      fun w x => { w with goodCommentBonus := x },
    .real "short_script_bonus" (·.shortScriptBonus)
      fun w x => { w with shortScriptBonus := x },
    .real "maintainability_weight" (·.maintainabilityWeight)
      fun w x => { w with maintainabilityWeight := x },
    .real "readability_weight" (·.readabilityWeight)
      fun w x => { w with readabilityWeight := x },
    .real "performance_weight" (·.performanceWeight)
      fun w x => { w with performanceWeight := x },
    .real "security_improvement_weight" (·.securityImprovementWeight)
      fun w x => { w with securityImprovementWeight := x },
    .real "best_practice_weight" (·.bestPracticeWeight)
      fun w x => { w with bestPracticeWeight := x }]

/-- The numeric fields of the settings, in order. -/
def Settings.slots : List (Slot Settings) :=
  [ .natural "max_text_length" (·.maxTextLength)
      fun s n => { s with maxTextLength := n },
    .natural "indent_unit" (·.indentUnit)
      fun s n => { s with indentUnit := n },
    .natural "max_line_length" (·.maxLineLength)
      fun s n => { s with maxLineLength := n },
    .natural "max_nesting_depth" (·.maxNestingDepth)
      fun s n => { s with maxNestingDepth := n },
    .natural "max_attribute_name_length" (·.maxAttributeNameLength)
      fun s n => { s with maxAttributeNameLength := n },
    .natural "max_command_name_length" (·.maxCommandNameLength)
      fun s n => { s with maxCommandNameLength := n },
    .natural "max_variable_index" (·.maxVariableIndex)
      fun s n => { s with maxVariableIndex := n },
    .natural "complexity_threshold" (·.complexityThreshold)
      fun s n => { s with complexityThreshold := n }]

/-- The members that show the fields of a record. -/
def Slot.members {σ : Type} (record : σ) (slots : List (Slot σ)) : List (String × Json) :=
  slots.map fun
    | .natural name get _ => (name, .natural (get record))
    | .real name get _ => (name, .real (get record))

/-- The JSON form of weights. -/
def Weights.toJson (w : Weights Float) : Json := .object (Slot.members w Weights.slots)

/-- The JSON form of settings. -/
def Settings.toJson (s : Settings) : Json :=
  .object (Slot.members s Settings.slots ++ [("scoring", s.scoring.toJson)])

variable {ν : Type} [Source ν]

/-- Read weights; what is left out has its standard value. -/
def Weights.read? (value : ν) : Option (Weights Float) := do
  let members ← Source.record? (Weights.slots.map Slot.name) value
  Weights.slots.foldlM (Slot.read? members) .standard

/-- Read settings; what is left out has its standard value. -/
def Settings.read? (value : ν) : Option Settings := do
  let members ← Source.record? (Settings.slots.map Slot.name ++ ["scoring"]) value
  let settings ← Settings.slots.foldlM (Slot.read? members) {}
  let scoring ← Source.fieldOr? members "scoring" .standard Weights.read?
  return { settings with scoring }

end Softcode
