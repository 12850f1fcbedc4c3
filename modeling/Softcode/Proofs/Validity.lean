import Softcode.Analysis
import Softcode.Pattern.Reader
import Softcode.Proofs.CheckCodes
import Softcode.Proofs.TextLines

/-!
# When a script is valid

A script is valid if none of its syntax findings is an error. Three results say what that depends
on. The bracket findings of a script, those of its lines and those of the script as a whole, show
exactly that a code line is not well nested (`bracket_finding_iff_not_wellNested`). The errors of
two analyses of one text are the same records whatever else the analyses were given
(`analyze_errors_noninterfering`). And a text is valid exactly when the texts it is joined from are
(`errorFree_join_iff`), although the bracket counts of the parts may cancel.

All three rest on one fact about the counts: they can only show an opener that nobody reported if a
mismatch on some line has dropped it, and that line has an error already
(`exists_mismatch_of_mem_unbalanced`).
-/

namespace Softcode

open LineCheck

/-! ## Unbalanced brackets come from a mismatch -/

namespace LineCheck

/-- A line that drops an opener reports a mismatch. -/
theorem exists_mismatch_of_droppedCount_pos {gs : List Glyph} {kind : Bracket}
    (h : 0 < droppedCount gs kind) :
    ∃ flaw ∈ brackets gs, flaw.defect.code = .mismatchedBracket := by
  obtain ⟨opener, hopener, -⟩ := List.countP_pos_iff.mp h
  obtain ⟨settlement, hsettlement, hdropped⟩ := List.mem_flatMap.mp hopener
  rw [brackets_eq_filterMap_flaw?]
  cases settlement with
  | closed kind matched closer dropped =>
      cases dropped with
      | nil => exact absurd hdropped List.not_mem_nil
      | cons top rest => exact ⟨_, List.mem_filterMap.mpr ⟨_, hsettlement, rfl⟩, rfl⟩
  | unmatched kind closer => exact absurd hdropped List.not_mem_nil
  | unclosed kind left => exact absurd hdropped List.not_mem_nil

end LineCheck

namespace Syntax

/-- Brackets are only left open across the lines if some line reports a mismatch. -/
theorem exists_mismatch_of_mem_unbalanced {lines : List (Nat × List Char)} {f : SyntaxFinding}
    (h : f ∈ unbalanced (BracketProfile.build lines)) :
    ∃ line ∈ lines, ∃ flaw ∈ brackets (Line.glyphs line.2),
      flaw.defect.code = .mismatchedBracket := by
  obtain ⟨kind, -, hkind⟩ := List.mem_flatMap.mp h
  simp only [List.mem_ite_nil_right] at hkind
  have hcount := hkind.1
  rw [BracketProfile.unreportedOpen_build] at hcount
  -- the unmatched closers only lower the count, so a line has to drop an opener
  have hsum : 0 < (lines.map fun line => droppedCount (Line.glyphs line.2) kind).sum := by omega
  obtain ⟨n, hn, hpos⟩ := List.sum_pos_iff_exists_pos_nat.mp hsum
  obtain ⟨line, hline, rfl⟩ := List.mem_map.mp hn
  exact ⟨line, hline, exists_mismatch_of_droppedCount_pos hpos⟩

/-- The findings about unbalanced brackets have their code. -/
theorem code_of_mem_unbalanced {profile : BracketProfile} {f : SyntaxFinding}
    (h : f ∈ unbalanced profile) : f.code = .unbalancedBrackets := by
  obtain ⟨kind, -, hkind⟩ := List.mem_flatMap.mp h
  simp only [List.mem_ite_nil_right, List.mem_singleton] at hkind
  rw [hkind.2]
  rfl

/-- The finding about nesting has its code. -/
theorem code_of_mem_nesting {limit : Nat} {profile : BracketProfile} {f : SyntaxFinding}
    (h : f ∈ nesting limit profile) : f.code = .excessiveNesting := by
  rw [nesting, List.mem_ite_nil_right, List.mem_singleton] at h
  rw [h.2]
  rfl

/-- A finding of a line with a bracket code reports a flaw of the bracket check. -/
theorem mem_lineFindings_bracketCodes_iff (c : Context) (line : Nat × List Char)
    (f : SyntaxFinding) :
    (f ∈ lineFindings c line ∧ f.code ∈ Code.bracketCodes)
      ↔ ∃ flaw ∈ brackets (Line.glyphs line.2), flaw.finding line.1 = f := by
  rw [← filter_flaws_bracketCodes c, lineFindings, List.mem_map]
  constructor
  · rintro ⟨⟨flaw, hflaw, rfl⟩, hcode⟩
    exact ⟨flaw, List.mem_filter.mpr ⟨hflaw, List.contains_iff_mem.mpr hcode⟩, rfl⟩
  · rintro ⟨flaw, hflaw, rfl⟩
    obtain ⟨hmem, hcode⟩ := List.mem_filter.mp hflaw
    exact ⟨⟨flaw, hmem, rfl⟩, List.contains_iff_mem.mp hcode⟩

/-- Findings with a bracket code are those of the lines and the unbalanced brackets. -/
theorem mem_findings_bracketCodes_iff (c : Context) (f : SyntaxFinding) :
    (f ∈ findings c ∧ f.code ∈ Code.bracketCodes)
      ↔ (∃ line ∈ c.codeLines, ∃ flaw ∈ brackets (Line.glyphs line.2), flaw.finding line.1 = f)
        ∨ f ∈ unbalanced (BracketProfile.build c.codeLines) := by
  simp only [findings, scriptFindings, List.mem_append, List.mem_flatMap]
  constructor
  · rintro ⟨⟨line, hline, hf⟩ | hf | hf, hcode⟩
    · exact Or.inl ⟨line, hline, (mem_lineFindings_bracketCodes_iff c line f).mp ⟨hf, hcode⟩⟩
    · exact Or.inr hf
    · rw [code_of_mem_nesting hf] at hcode
      exact absurd hcode (by decide)
  · rintro (⟨line, hline, hflaw⟩ | hf)
    · obtain ⟨hf, hcode⟩ := (mem_lineFindings_bracketCodes_iff c line f).mpr hflaw
      exact ⟨Or.inl ⟨line, hline, hf⟩, hcode⟩
    · refine ⟨Or.inr (Or.inl hf), ?_⟩
      rw [code_of_mem_unbalanced hf]
      decide

/-- Among the findings of a script only the unbalanced brackets have their code. -/
theorem mem_unbalanced_of_code {c : Context} {f : SyntaxFinding} (hf : f ∈ findings c)
    (hcode : f.code = .unbalancedBrackets) :
    f ∈ unbalanced (BracketProfile.build c.codeLines) := by
  have hbracket : f.code ∈ Code.bracketCodes := by
    rw [hcode]
    decide
  rcases (mem_findings_bracketCodes_iff c f).mp ⟨hf, hbracket⟩ with
    ⟨line, -, flaw, hflaw, rfl⟩ | hunbalanced
  · -- the bracket check of a line never reports this code
    have hline := code_of_mem_brackets hflaw
    rw [show flaw.defect.code = .unbalancedBrackets from hcode] at hline
    exact absurd hline (by decide)
  · exact hunbalanced

/-- A script has a finding about brackets exactly if the bracket check flaws a code line. -/
theorem exists_bracket_finding_iff (c : Context) :
    (∃ f ∈ findings c, f.code ∈ Code.bracketCodes)
      ↔ ∃ line ∈ c.codeLines, brackets (Line.glyphs line.2) ≠ [] := by
  constructor
  · rintro ⟨f, hf⟩
    rcases (mem_findings_bracketCodes_iff c f).mp hf with
      ⟨line, hline, flaw, hflaw, -⟩ | hunbalanced
    · exact ⟨line, hline, List.ne_nil_of_mem hflaw⟩
    · -- brackets left open across the lines do not add a case: some line has a mismatch
      obtain ⟨line, hline, flaw, hflaw, -⟩ := exists_mismatch_of_mem_unbalanced hunbalanced
      exact ⟨line, hline, List.ne_nil_of_mem hflaw⟩
  · rintro ⟨line, hline, hne⟩
    obtain ⟨flaw, hflaw⟩ := List.exists_mem_of_ne_nil _ hne
    exact ⟨flaw.finding line.1,
      (mem_findings_bracketCodes_iff c _).mpr (Or.inl ⟨line, hline, flaw, hflaw, rfl⟩)⟩

/-- **Bracket findings are exactly about lines that do not nest.** A script has a finding with one
of the four bracket codes exactly if the structural brackets of one of its code lines are not well
nested. In particular brackets are never reported as unbalanced across the script unless a code line
also reports a mismatch. -/
theorem bracket_finding_iff_not_wellNested (c : Context) :
    ((∃ f ∈ findings c, f.code ∈ Code.bracketCodes)
        ↔ ∃ line ∈ c.lines, Line.isCode line = true ∧ ¬ WellNested (Line.marks (Line.glyphs line)))
      ∧ ((∃ f ∈ findings c, f.code = .unbalancedBrackets)
        → ∃ line ∈ c.codeLines, ∃ f ∈ lineFindings c line, f.code = .mismatchedBracket) := by
  constructor
  · rw [exists_bracket_finding_iff,
      c.exists_codeLines_iff fun line => brackets (Line.glyphs line) ≠ []]
    simp only [ne_eq, brackets_eq_nil_iff]
  · rintro ⟨f, hf, hcode⟩
    have hunbalanced := mem_unbalanced_of_code hf hcode
    obtain ⟨line, hline, flaw, hflaw, hmismatch⟩ := exists_mismatch_of_mem_unbalanced hunbalanced
    obtain ⟨hmem, -⟩ := (mem_lineFindings_bracketCodes_iff c line _).mpr ⟨flaw, hflaw, rfl⟩
    exact ⟨line, hline, flaw.finding line.1, hmem, hmismatch⟩

/-! ## Validity line by line -/

/-- A script is free of errors exactly if each of its code lines is. -/
theorem errorFree_iff (c : Context) :
    (∀ f ∈ findings c, f.level ≠ .error)
      ↔ ∀ line ∈ c.lines, Line.isCode line = true
        → errors c.settings.maxAttributeNameLength line = [] := by
  have hfilter : (∀ f ∈ findings c, f.level ≠ .error)
      ↔ (findings c).filter (·.level == .error) = [] := by
    simp [List.filter_eq_nil_iff]
  rw [hfilter, filter_findings_error,
    ← c.forall_codeLines_iff fun line => errors c.settings.maxAttributeNameLength line = []]
  simp only [List.append_eq_nil_iff, List.flatMap_eq_nil_iff, List.map_eq_nil_iff]
  refine ⟨fun h => h.1, fun h => ⟨h, ?_⟩⟩
  -- an unbalanced bracket would need a mismatch, which is an error of its line
  refine List.eq_nil_iff_forall_not_mem.mpr fun f hf => ?_
  obtain ⟨line, hline, flaw, hflaw, -⟩ := exists_mismatch_of_mem_unbalanced hf
  have hnil : brackets (Line.glyphs line.2) = [] := by
    have hline := h line hline
    simp only [errors, List.append_eq_nil_iff] at hline
    exact hline.1.1.1.2
  rw [hnil] at hflaw
  exact absurd hflaw List.not_mem_nil

/-- **Validity is compositional.** Two texts joined by a line feed are free of errors exactly if
both are. -/
theorem errorFree_join_iff (a b : List Char) (dialect : Option Dialect) (options : Options)
    (settings : Settings) :
    (∀ f ∈ findings ⟨a ++ '\n' :: b, dialect, options, settings⟩, f.level ≠ .error)
      ↔ (∀ f ∈ findings ⟨a, dialect, options, settings⟩, f.level ≠ .error)
        ∧ (∀ f ∈ findings ⟨b, dialect, options, settings⟩, f.level ≠ .error) := by
  simp only [errorFree_iff]
  exact Text.forall_codeLine_join_iff _ a b

example :
    let errorsOf (text : String) : List (Nat × Code) :=
      ((findings { text := text.toList }).filter (·.level == .error)).map fun f => (f.line, f.code)
    errorsOf "think a" = []
      ∧ errorsOf "[(]" = [(1, .mismatchedBracket), (1, .unbalancedBrackets)]
      ∧ errorsOf "think a\n[(]" = [(2, .mismatchedBracket), (1, .unbalancedBrackets)]
      -- the second text closes what the first leaves open, and the mismatch stays
      ∧ errorsOf ")" = [(1, .unmatchedClosingBracket)]
      ∧ errorsOf "[(]\n)" = [(1, .mismatchedBracket), (2, .unmatchedClosingBracket)] := by
  decide

end Syntax

/-! ## Two analyses of one text -/

/-- A context is built for a text that shows something and is not too long, with the dialect that
the catalogue has for the request. -/
theorem Request.context_eq_ok_iff {r : Request} {catalogue : Catalogue} {settings : Settings}
    {c : Context} :
    r.context catalogue settings = .ok c
      ↔ Text.isBlankText r.text.toList = false ∧ r.text.toList.length ≤ settings.maxTextLength
        ∧ ∃ dialect, catalogue.requested r.dialectId = .ok dialect
          ∧ c = ⟨r.text.toList, dialect, r.options, settings⟩ := by
  simp only [Request.context]
  by_cases hblank : Text.isBlankText r.text.toList = true
  · simp [hblank]
  · by_cases hlong : settings.maxTextLength < r.text.toList.length
    · simp [hblank, hlong, Nat.not_le_of_lt hlong]
    · rw [if_neg hblank, if_neg hlong]
      simp only [Bool.not_eq_true] at hblank
      refine ⟨fun h => ⟨hblank, Nat.le_of_not_lt hlong, ?_⟩, ?_⟩
      · split at h
        · exact absurd h (by simp)
        · rename_i dialect hdialect
          exact ⟨dialect, hdialect, (Except.ok.inj h).symm⟩
      · rintro ⟨-, -, dialect, hdialect, rfl⟩
        rw [hdialect]

/-- The context of a request has its text and options and the settings at hand. -/
theorem Request.context_of_ok {r : Request} {catalogue : Catalogue} {settings : Settings}
    {c : Context} (h : r.context catalogue settings = .ok c) :
    c.text = r.text.toList ∧ c.options = r.options ∧ c.settings = settings := by
  obtain ⟨-, -, dialect, -, rfl⟩ := Request.context_eq_ok_iff.mp h
  exact ⟨rfl, rfl, rfl⟩

/-- An analysis that succeeds has run the passes on the context of the request. -/
theorem Request.exists_context_of_analyze_ok {r : Request} {read : Pattern.Reader}
    {catalogue : Catalogue} {settings : Settings} {result : AnalysisResult}
    (h : r.analyze read catalogue settings = .ok result) :
    ∃ c, r.context catalogue settings = .ok c ∧ result = c.analyze read catalogue.rules := by
  simp only [Request.analyze] at h
  split at h
  · exact absurd h (by simp)
  · rename_i c hcontext
    exact ⟨c, hcontext, (Except.ok.inj h).symm⟩

/-- A result is valid exactly if its errors are an empty list. -/
theorem Context.analyze_isValid (c : Context) (read : Pattern.Reader)
    (rules : List SecurityRule) :
    (c.analyze read rules).isValid
      = ((c.analyze read rules).syntaxFindings.filter (·.level == .error)).isEmpty := by
  rw [Bool.eq_iff_iff, List.isEmpty_iff, List.filter_eq_nil_iff]
  simp [Context.analyze]

/-- The errors of a context are those of any context with the same text and limit on the names of
attributes. -/
theorem Syntax.filter_findings_error_congr {c d : Context} (htext : c.text = d.text)
    (hlimit : c.settings.maxAttributeNameLength = d.settings.maxAttributeNameLength) :
    (findings c).filter (·.level == .error) = (findings d).filter (·.level == .error) := by
  have hcode : c.codeLines = d.codeLines := by
    rw [Context.codeLines, Context.codeLines, Context.lines, Context.lines, htext]
  rw [filter_findings_error, filter_findings_error, hcode, hlimit]

/-- **Validity does not interfere with anything but the text.** Two analyses of one text that
succeed report the same errors in the same order and agree on validity, whatever the catalogues, the
readings of their patterns, the dialects asked for, the options and the settings, as long as the
limit on the names of attributes is the same. -/
theorem analyze_errors_noninterfering {r₁ r₂ : Request} {read₁ read₂ : Pattern.Reader}
    {catalogue₁ catalogue₂ : Catalogue} {settings₁ settings₂ : Settings}
    {result₁ result₂ : AnalysisResult}
    (htext : r₁.text = r₂.text)
    (hlimit : settings₁.maxAttributeNameLength = settings₂.maxAttributeNameLength)
    (h₁ : r₁.analyze read₁ catalogue₁ settings₁ = .ok result₁)
    (h₂ : r₂.analyze read₂ catalogue₂ settings₂ = .ok result₂) :
    result₁.syntaxFindings.filter (·.level == .error)
        = result₂.syntaxFindings.filter (·.level == .error)
      ∧ result₁.isValid = result₂.isValid := by
  obtain ⟨c₁, hc₁, rfl⟩ := Request.exists_context_of_analyze_ok h₁
  obtain ⟨c₂, hc₂, rfl⟩ := Request.exists_context_of_analyze_ok h₂
  obtain ⟨htext₁, -, hsettings₁⟩ := Request.context_of_ok hc₁
  obtain ⟨htext₂, -, hsettings₂⟩ := Request.context_of_ok hc₂
  have herrors : (c₁.analyze read₁ catalogue₁.rules).syntaxFindings.filter (·.level == .error)
      = (c₂.analyze read₂ catalogue₂.rules).syntaxFindings.filter (·.level == .error) :=
    Syntax.filter_findings_error_congr (by rw [htext₁, htext₂, htext])
      (by rw [hsettings₁, hsettings₂, hlimit])
  refine ⟨herrors, ?_⟩
  rw [Context.analyze_isValid, Context.analyze_isValid, herrors]

/-- A strict analysis for a dialect in which `foo` is deprecated, and one without a dialect that
allows less nesting and fewer arguments: the warnings differ and the errors are the same. -/
theorem analyze_errors_noninterfering_deprecated_call :
    let text := "think [foo( %20]"
    let strict : Request := { text, dialectId := some "d", options := { strictMode := true } }
    let plain : Request := { text, options := { checkSecurity := false } }
    let foo : DialectFunction := { name := "foo", deprecated := true }
    let dialect : Dialect := { id := "d", name := "D", functions := [foo] }
    ∃ result₁ result₂,
      strict.analyze Pattern.ofText? { dialects := [dialect] } {} = .ok result₁
        ∧ plain.analyze Pattern.ofText? {} { maxVariableIndex := 9, maxNestingDepth := 1 }
          = .ok result₂
        ∧ result₁.syntaxFindings.length = 4 ∧ result₂.syntaxFindings.length = 5
        ∧ result₁.syntaxFindings.filter (·.level == .error)
          = result₂.syntaxFindings.filter (·.level == .error)
        ∧ result₁.isValid = result₂.isValid := by
  refine ⟨?result₁, ?result₂, ?strict, ?plain, ?four, ?five,
    analyze_errors_noninterfering (by rfl) (by rfl) ?strict ?plain⟩
  case strict => rfl
  case plain => rfl
  case four => decide
  case five => decide

end Softcode
