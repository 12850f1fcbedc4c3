import Softcode.Finding

/-!
# Advice

A piece of advice is the cause of an improvement. What it improves, its category, its level, its
wording, how sure it is and how much work it means follow from the cause alone.
-/

namespace Softcode

/-- What could be better about a line. -/
inductive Advice where
  | mixedIndentation
  | misalignedIndentation (spaces unit : Nat)
  | uncommentedBranch
  | repeatedCall (name : String) (times : Nat)
  | nestedIteration
  | magicNumber (value : Nat)
  | manyParameters (count : Nat)
  | hardcodedReference (digits : String)
  | complexExpression (complexity limit : Nat)
  | shortRegisters (count : Nat)
  | unsanitizedInput
  deriving DecidableEq, Repr

namespace Advice

/-- What the advice improves. -/
def aspect : Advice → Aspect
  | mixedIndentation | misalignedIndentation _ _ | uncommentedBranch => .bestPractice
  | repeatedCall _ _ | nestedIteration => .performance
  | magicNumber _ | manyParameters _ | hardcodedReference _ => .maintainability
  | complexExpression _ _ | shortRegisters _ => .readability
  | unsanitizedInput => .security

/-- The category, which serves as a stable code. -/
def category : Advice → String
  | mixedIndentation | misalignedIndentation _ _ | uncommentedBranch => "style"
  | repeatedCall _ _ => "caching"
  | nestedIteration => "nested_loop"
  | magicNumber _ => "magic_number"
  | manyParameters _ => "too_many_parameters"
  | hardcodedReference _ => "hardcoded_dbref"
  | complexExpression _ _ => "complex_expression"
  | shortRegisters _ => "unclear_naming"
  | unsanitizedInput => "unsanitized_input"

/-- The level of the advice. -/
def level : Advice → Level
  | mixedIndentation | misalignedIndentation _ _ | uncommentedBranch | magicNumber _
  | shortRegisters _ => .info
  | repeatedCall _ _ | nestedIteration | manyParameters _ | hardcodedReference _
  | complexExpression _ _ | unsanitizedInput => .warning

/-- What could be better, in words. -/
def message : Advice → String
  | mixedIndentation => "Indentation mixes tabs and spaces"
  | misalignedIndentation spaces unit => s!"Indentation of {spaces} is not a multiple of {unit}"
  | uncommentedBranch => "Conditional logic has no explanatory comment"
  | repeatedCall name times => s!"{name}() is evaluated {times} times on one line"
  | nestedIteration => "Iteration nested inside another iteration"
  | magicNumber value => s!"Magic number {value}"
  | manyParameters count => s!"{count} positional parameters on one line"
  | hardcodedReference digits => s!"Hardcoded dbref #{digits}"
  | complexExpression complexity limit => s!"Expression complexity {complexity} exceeds {limit}"
  | shortRegisters count => s!"{count} single-character registers make the line hard to follow"
  | unsanitizedInput => "User input reaches a forced command without sanitizing"

/-- How sure the advice is. -/
def confidence : Advice → Float
  | mixedIndentation | misalignedIndentation _ _ => 0.9
  | uncommentedBranch | shortRegisters _ => 0.6
  | repeatedCall _ _ | complexExpression _ _ => 0.7
  | nestedIteration => 0.75
  | magicNumber _ => 0.5
  | manyParameters _ | unsanitizedInput => 0.8
  | hardcodedReference _ => 0.85

/-- How much work it is to follow. -/
def effort : Advice → Effort
  | mixedIndentation | misalignedIndentation _ _ | uncommentedBranch | magicNumber _
  | shortRegisters _ => .low
  | repeatedCall _ _ | manyParameters _ | hardcodedReference _ | complexExpression _ _
  | unsanitizedInput => .medium
  | nestedIteration => .high

/-- The advice can be followed mechanically. -/
def fixable : Advice → Bool
  | mixedIndentation | misalignedIndentation _ _ => true
  | _ => false

end Advice

/-- A piece of advice at a column of some line, with the code it is about and what to write
instead. -/
structure Tip where
  column : Nat
  advice : Advice
  before : List Char
  after : List Char
  deriving DecidableEq, Repr

/-- The improvement that reports a tip for the line with this number. -/
def Tip.improvement (line : Nat) (tip : Tip) : Improvement where
  line
  column := tip.column
  aspect := tip.advice.aspect
  category := tip.advice.category
  level := tip.advice.level
  message := tip.advice.message
  before := String.ofList tip.before
  after := String.ofList tip.after
  confidence := tip.advice.confidence
  effort := tip.advice.effort
  fixable := tip.advice.fixable

end Softcode
