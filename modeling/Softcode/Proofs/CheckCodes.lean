import Softcode.Proofs.BracketAccounting
import Softcode.Syntax.ScriptCheck

/-!
# What the checks report

Every check of a line reports defects with codes of its own, and a code has one level. So a question
that only the code decides splits the flaws of a line along its checks: asked for the bracket codes
it gives back the bracket check alone (`filter_flaws_bracketCodes`), and asked for the error level
it gives `errors`, which looks at the line and at the limit on attribute names and at nothing else
(`filter_flaws_isError`). The dialect, strict mode and the other limits only decide about warnings
and notes, and these neither remove nor reorder an error.
-/

namespace Softcode

/-- The level of every finding with a code. -/
def Code.level : Code → Level
  | .invalidCharacter | .unmatchedClosingBracket | .mismatchedBracket | .unclosedBracket
  | .unterminatedString | .invalidAttributeName | .attributeNameTooLong
  | .invalidVariableReference | .unbalancedBrackets => .error
  | .spaceAfterParen | .deprecatedFunction | .unknownFunction | .variableOutOfRange
  | .commandNameTooLong | .lineTooLong | .excessiveNesting => .warning
  | .trailingSemicolon => .info

/-- Findings with this code are errors. -/
def Code.isError (code : Code) : Bool := code.level == .error

/-- A defect has the level of its code. -/
theorem Defect.level_eq_level_code (d : Defect) : d.level = d.code.level := by
  cases d <;> rfl

/-- The codes of findings about brackets. -/
def Code.bracketCodes : List Code :=
  [.unmatchedClosingBracket, .mismatchedBracket, .unclosedBracket, .unbalancedBrackets]

/-- The flaw is reported as an error. -/
def Flaw.isError (flaw : Flaw) : Bool := flaw.defect.level == .error

namespace LineCheck

/-! ## The codes of each check -/

/-- A check that reports one flaw under a condition. -/
theorem code_of_mem_ite {p : Prop} [Decidable p] {flaw found : Flaw} {codes : List Code}
    (h : flaw ∈ if p then [found] else []) (hfound : found.defect.code ∈ codes) :
    flaw.defect.code ∈ codes := by
  rw [List.mem_ite_nil_right] at h
  rw [List.mem_singleton.mp h.2]
  exact hfound

/-- A check that reports one flaw unless a condition holds. -/
theorem code_of_mem_ite_nil {p : Prop} [Decidable p] {flaw found : Flaw} {codes : List Code}
    (h : flaw ∈ if p then [] else [found]) (hfound : found.defect.code ∈ codes) :
    flaw.defect.code ∈ codes := by
  rw [List.mem_ite_nil_left] at h
  rw [List.mem_singleton.mp h.2]
  exact hfound

/-- The check of characters has one code, also in the middle of a line. -/
theorem code_of_mem_charactersFrom {column : Nat} {gs : List Glyph} {flaw : Flaw}
    (h : flaw ∈ charactersFrom column gs) : flaw.defect.code ∈ [Code.invalidCharacter] := by
  induction gs generalizing column with
  | nil => exact absurd h List.not_mem_nil
  | cons g rest ih =>
      simp only [charactersFrom] at h
      split at h
      · rcases List.mem_cons.mp h with rfl | hrest
        · exact List.mem_singleton.mpr rfl
        · exact ih hrest
      · exact ih h

/-- The check of characters has one code. -/
theorem code_of_mem_characters {gs : List Glyph} {flaw : Flaw} (h : flaw ∈ characters gs) :
    flaw.defect.code ∈ [Code.invalidCharacter] :=
  code_of_mem_charactersFrom h

/-- The codes of the check of brackets. -/
theorem code_of_mem_brackets {gs : List Glyph} {flaw : Flaw} (h : flaw ∈ brackets gs) :
    flaw.defect.code
      ∈ [Code.unmatchedClosingBracket, .mismatchedBracket, .unclosedBracket] := by
  rw [brackets_eq_filterMap_flaw?, List.mem_filterMap] at h
  obtain ⟨settlement, -, hflaw⟩ := h
  cases settlement with
  | closed kind opener closer dropped =>
      cases dropped with
      | nil => exact absurd hflaw (by simp [Settlement.flaw?])
      | cons top rest =>
          rw [← Option.some.inj hflaw]
          simp [Defect.code]
  | unmatched kind closer =>
      rw [← Option.some.inj hflaw]
      simp [Defect.code]
  | unclosed kind opener =>
      rw [← Option.some.inj hflaw]
      simp [Defect.code]

/-- The code of the check of literals. -/
theorem code_of_mem_string {gs : List Glyph} {flaw : Flaw} (h : flaw ∈ string gs) :
    flaw.defect.code ∈ [Code.unterminatedString] := by
  rw [string, Option.mem_toList, Option.map_eq_some_iff] at h
  obtain ⟨column, -, rfl⟩ := h
  exact List.mem_singleton.mpr rfl

/-- The codes of the checks that look a call up in a dialect. -/
theorem code_of_mem_catalogued {dialect : Dialect} {strict : Bool} {call : Call} {flaw : Flaw}
    (h : flaw ∈ catalogued dialect strict call) :
    flaw.defect.code ∈ [Code.spaceAfterParen, .deprecatedFunction, .unknownFunction] := by
  simp only [catalogued] at h
  split at h
  · exact code_of_mem_ite h (by simp [Defect.code])
  · exact code_of_mem_ite h (by simp [Defect.code])

/-- The codes of the checks of calls. -/
theorem code_of_mem_calls {dialect : Option Dialect} {strict : Bool} {gs : List Glyph}
    {flaw : Flaw} (h : flaw ∈ calls dialect strict gs) :
    flaw.defect.code ∈ [Code.spaceAfterParen, .deprecatedFunction, .unknownFunction] := by
  rw [calls, List.mem_flatMap] at h
  obtain ⟨call, -, hcall⟩ := h
  rcases List.mem_append.mp hcall with hspaced | hcatalogued
  · exact code_of_mem_ite hspaced (by simp [Defect.code])
  · obtain ⟨d, -, hd⟩ := List.mem_flatMap.mp hcatalogued
    exact code_of_mem_catalogued hd

/-- The codes of the check of attribute names. -/
theorem code_of_mem_attributeName {limit : Nat} {line : List Char} {flaw : Flaw}
    (h : flaw ∈ attributeName limit line) :
    flaw.defect.code ∈ [Code.invalidAttributeName, .attributeNameTooLong] := by
  simp only [attributeName] at h
  split at h
  · split at h
    · exact absurd h List.not_mem_nil
    · rcases List.mem_append.mp h with hname | hlong
      · exact code_of_mem_ite_nil hname (by simp [Defect.code])
      · exact code_of_mem_ite hlong (by simp [Defect.code])
  · exact absurd h List.not_mem_nil

/-- The codes of the check of substitutions. -/
theorem code_of_mem_references {limit : Nat} {gs : List Glyph} {flaw : Flaw}
    (h : flaw ∈ references limit gs) :
    flaw.defect.code ∈ [Code.variableOutOfRange, .invalidVariableReference] := by
  rw [references, List.mem_flatMap] at h
  obtain ⟨sub, -, hsub⟩ := h
  simp only [reference] at hsub
  split at hsub
  · exact code_of_mem_ite hsub (by simp [Defect.code])
  · exact code_of_mem_ite hsub (by simp [Defect.code])
  · exact absurd hsub List.not_mem_nil

/-- The codes of the checks of commands. -/
theorem code_of_mem_command {limit : Nat} {gs : List Glyph} {flaw : Flaw}
    (h : flaw ∈ command limit gs) :
    flaw.defect.code ∈ [Code.commandNameTooLong, .trailingSemicolon] := by
  simp only [command] at h
  split at h
  · split at h
    · exact absurd h List.not_mem_nil
    · rcases List.mem_append.mp h with hlong | hsemicolon
      · exact code_of_mem_ite hlong (by simp [Defect.code])
      · rw [Option.mem_toList, Option.map_eq_some_iff] at hsemicolon
        obtain ⟨column, -, rfl⟩ := hsemicolon
        simp [Defect.code]
  · exact absurd h List.not_mem_nil

/-- The code of the check of the length. -/
theorem code_of_mem_length {limit : Nat} {line : List Char} {flaw : Flaw}
    (h : flaw ∈ length limit line) : flaw.defect.code ∈ [Code.lineTooLong] := by
  exact code_of_mem_ite_nil h (List.mem_singleton.mpr rfl)

/-! ## Asking for codes -/

/-- Asking for codes keeps a check all of whose codes are asked for. -/
theorem filter_code_eq_self {p : Code → Bool} {codes : List Code} {found : List Flaw}
    (h : ∀ flaw ∈ found, flaw.defect.code ∈ codes) (hp : ∀ code ∈ codes, p code = true) :
    found.filter (fun flaw => p flaw.defect.code) = found :=
  List.filter_eq_self.mpr fun flaw hflaw => hp _ (h flaw hflaw)

/-- Asking for codes empties a check none of whose codes are asked for. -/
theorem filter_code_eq_nil {p : Code → Bool} {codes : List Code} {found : List Flaw}
    (h : ∀ flaw ∈ found, flaw.defect.code ∈ codes) (hp : ∀ code ∈ codes, p code = false) :
    found.filter (fun flaw => p flaw.defect.code) = [] :=
  List.filter_eq_nil_iff.mpr fun flaw hflaw => by simp [hp _ (h flaw hflaw)]

/-- In strict mode or not, the length check has one code. -/
theorem code_of_mem_strict_length {strict : Bool} {limit : Nat} {line : List Char} {flaw : Flaw}
    (h : flaw ∈ if strict then length limit line else []) :
    flaw.defect.code ∈ [Code.lineTooLong] := by
  split at h
  · exact code_of_mem_length h
  · exact absurd h List.not_mem_nil

/-- The flaws of a line with a bracket code are those of the bracket check. -/
theorem filter_flaws_bracketCodes (c : Context) (line : List Char) :
    (flaws c line).filter (fun flaw => Code.bracketCodes.contains flaw.defect.code)
      = brackets (Line.glyphs line) := by
  simp only [flaws, List.filter_append]
  -- check by check, in the order of `flaws`
  rw [filter_code_eq_nil (fun _ => code_of_mem_characters) (by decide),
    filter_code_eq_self (fun _ => code_of_mem_brackets) (by decide),
    filter_code_eq_nil (fun _ => code_of_mem_string) (by decide),
    filter_code_eq_nil (fun _ => code_of_mem_calls) (by decide),
    filter_code_eq_nil (fun _ => code_of_mem_attributeName) (by decide),
    filter_code_eq_nil (fun _ => code_of_mem_references) (by decide),
    filter_code_eq_nil (fun _ => code_of_mem_command) (by decide),
    filter_code_eq_nil (fun _ => code_of_mem_strict_length) (by decide)]
  simp only [List.nil_append, List.append_nil]

/-! ## The errors of a line -/

/-- Registers without a proper name: what is an error among the references of a line. -/
def registers (gs : List Glyph) : List Flaw :=
  (Line.substitutions gs).flatMap fun sub =>
    match sub.reference with
    | .named name closed =>
      if !closed || !Text.isIdentifier name.toList then [⟨sub.column, .invalidRegister name⟩]
      else []
    | _ => []

/-- The flaws of a line that are errors. -/
def errors (nameLimit : Nat) (line : List Char) : List Flaw :=
  let gs := Line.glyphs line
  characters gs ++ brackets gs ++ string gs ++ attributeName nameLimit line ++ registers gs

/-- Of the references only the registers are errors, whatever the limit. -/
theorem filter_references_isError (limit : Nat) (gs : List Glyph) :
    (references limit gs).filter Flaw.isError = registers gs := by
  rw [references, registers, List.filter_flatMap]
  refine congrArg (fun f => (Line.substitutions gs).flatMap f) (funext fun sub => ?_)
  obtain ⟨column, target⟩ := sub
  cases target with
  | positional index =>
      simp only [reference]
      split <;> rfl
  | short register => rfl
  | named name closed =>
      simp only [reference]
      split <;> rfl

/-- The errors of a line depend on the limit for attribute names and on nothing else that a context
has: what the dialect, strict mode and the other limits add are warnings and notes. -/
theorem filter_flaws_isError (c : Context) (line : List Char) :
    (flaws c line).filter Flaw.isError = errors c.settings.maxAttributeNameLength line := by
  have hlevel : Flaw.isError = fun flaw => flaw.defect.code.isError := by
    funext flaw
    rw [Flaw.isError, Defect.level_eq_level_code, Code.isError]
  simp only [flaws, List.filter_append, filter_references_isError]
  -- check by check, in the order of `flaws`: kept whole or emptied
  rw [hlevel, filter_code_eq_self (fun _ => code_of_mem_characters) (by decide),
    filter_code_eq_self (fun _ => code_of_mem_brackets) (by decide),
    filter_code_eq_self (fun _ => code_of_mem_string) (by decide),
    filter_code_eq_nil (fun _ => code_of_mem_calls) (by decide),
    filter_code_eq_self (fun _ => code_of_mem_attributeName) (by decide),
    filter_code_eq_nil (fun _ => code_of_mem_command) (by decide),
    filter_code_eq_nil (fun _ => code_of_mem_strict_length) (by decide)]
  simp only [List.append_nil, errors]

end LineCheck

namespace Syntax

open LineCheck

/-! ## The errors of a script -/

/-- The errors of a numbered line. -/
theorem filter_lineFindings_error (c : Context) (line : Nat × List Char) :
    (lineFindings c line).filter (·.level == .error)
      = (errors c.settings.maxAttributeNameLength line.2).map (Flaw.finding line.1) := by
  rw [lineFindings, List.filter_map, ← filter_flaws_isError]
  rfl

/-- Of the findings about the script as a whole, those about brackets are errors and the one about
nesting is none. -/
theorem filter_scriptFindings_error (c : Context) :
    (scriptFindings c).filter (·.level == .error)
      = unbalanced (BracketProfile.build c.codeLines) := by
  have hunbalanced : ∀ f ∈ unbalanced (BracketProfile.build c.codeLines),
      (f.level == .error) = true := by
    intro f hf
    obtain ⟨kind, -, hkind⟩ := List.mem_flatMap.mp hf
    simp only [List.mem_ite_nil_right, List.mem_singleton] at hkind
    rw [hkind.2]
    rfl
  have hnesting : ∀ f ∈ nesting c.settings.maxNestingDepth (BracketProfile.build c.codeLines),
      ¬ (f.level == .error) = true := by
    intro f hf
    rw [nesting, List.mem_ite_nil_right, List.mem_singleton] at hf
    rw [hf.2]
    show ¬ (Level.warning == Level.error) = true
    decide
  simp only [scriptFindings, List.filter_append]
  rw [List.filter_eq_self.mpr hunbalanced, List.filter_eq_nil_iff.mpr hnesting, List.append_nil]

/-- The errors of a script are those of its code lines in order and then the unbalanced brackets. -/
theorem filter_findings_error (c : Context) :
    (findings c).filter (·.level == .error)
      = (c.codeLines.flatMap fun line =>
          (errors c.settings.maxAttributeNameLength line.2).map (Flaw.finding line.1))
        ++ unbalanced (BracketProfile.build c.codeLines) := by
  rw [findings, List.filter_append, filter_scriptFindings_error, List.filter_flatMap]
  congr 1
  refine congrArg (fun f => c.codeLines.flatMap f) (funext fun line => ?_)
  exact filter_lineFindings_error c line

end Syntax

end Softcode
