import Softcode.Proofs.Columns
import Softcode.Proofs.LineInsertion

/-!
# Where findings stand

Every finding of an analysis stands on a line of the text, and every syntax finding and improvement
on a column of a code line (`analyze_positions`). The one exception is the finding about brackets
left open across the script, which is put at line 1, column 1.

Most findings take their line from the numbering of the code lines. The line of the deepest nesting
is one of those that were walked (`DeepestAmong`), unless nothing nests, and then it is not
reported. A match of a security rule is located by its offset, and no line after the last is given.
-/

namespace Softcode

/-! ## Lines -/

/-- The place is a character of a code line of the text. -/
def Text.OnCode (text : List Char) (line column : Nat) : Prop :=
  ∃ content, 1 ≤ line ∧ (lines text)[line - 1]? = some content ∧ Line.isCode content = true
    ∧ 1 ≤ column ∧ column ≤ content.length

/-- A place on code is on a line of the text. -/
theorem Text.OnCode.line_mem {text : List Char} {line column : Nat} (h : OnCode text line column) :
    1 ≤ line ∧ line ≤ (lines text).length := by
  obtain ⟨content, hpos, hline, -⟩ := h
  obtain ⟨hlt, -⟩ := List.getElem?_eq_some_iff.mp hline
  omega

/-- A numbered line stands at the place its number says. -/
theorem getElem?_of_mem_numberedFrom {first number : Nat} {ls : List (List Char)}
    {line : List Char} (h : (number, line) ∈ numberedFrom first ls) :
    first ≤ number ∧ ls[number - first]? = some line := by
  induction ls generalizing first with
  | nil => exact absurd h List.not_mem_nil
  | cons head rest ih =>
      rcases List.mem_cons.mp h with hhead | hrest
      · obtain ⟨rfl, rfl⟩ := Prod.mk.inj hhead
        simp
      · obtain ⟨hle, hget⟩ := ih hrest
        have hsub : number - first = number - (first + 1) + 1 := by omega
        rw [hsub, List.getElem?_cons_succ]
        exact ⟨by omega, hget⟩

/-- A line of code is not empty. -/
theorem Line.ne_nil_of_isCode {line : List Char} (h : isCode line = true) : line ≠ [] := by
  rintro rfl
  exact absurd h (by decide)

/-- A character of a code line, by the number the line has in the context. -/
theorem Context.onCode_of_mem {c : Context} {number column : Nat} {line : List Char}
    (hmem : (number, line) ∈ numberedFrom 1 c.lines) (hcode : Line.isCode line = true)
    (hcolumn : OnGlyphs 1 (Line.glyphs line) column) : Text.OnCode c.text number column := by
  obtain ⟨hpos, hget⟩ := getElem?_of_mem_numberedFrom hmem
  exact ⟨line, hpos, hget, hcode, onGlyphs_glyphs_iff.mp hcolumn⟩

/-- A column on the glyphs of a code line is a place on code. -/
theorem Context.onCode_of_mem_codeLines {c : Context} {number column : Nat} {line : List Char}
    (hmem : (number, line) ∈ c.codeLines) (hcolumn : OnGlyphs 1 (Line.glyphs line) column) :
    Text.OnCode c.text number column := by
  obtain ⟨hnumbered, hcode⟩ := List.mem_filter.mp hmem
  exact c.onCode_of_mem hnumbered hcode hcolumn

namespace BracketProfile

/-- The line of the deepest nesting is one of these, unless nothing is nested. -/
def DeepestAmong (numbers : List Nat) (p : BracketProfile) : Prop :=
  p.maxDepth = 0 ∨ p.maxDepthLine ∈ numbers

/-- A glyph of a line among the numbers leaves the deepest line among them. -/
theorem DeepestAmong.addGlyph {numbers : List Nat} {number : Nat} (hnumber : number ∈ numbers)
    {state : BracketProfile × List Bracket} (h : DeepestAmong numbers state.1) (g : Glyph) :
    DeepestAmong numbers (addGlyph number state g).1 := by
  simp only [BracketProfile.addGlyph]
  split
  · split
    · exact Or.inr hnumber
    · exact h
  · split
    · exact h
    · exact h

/-- So do the glyphs of a whole line. -/
theorem DeepestAmong.foldl_addGlyph {numbers : List Nat} {number : Nat} (hnumber : number ∈ numbers)
    (gs : List Glyph) {state : BracketProfile × List Bracket} (h : DeepestAmong numbers state.1) :
    DeepestAmong numbers (gs.foldl (BracketProfile.addGlyph number) state).1 := by
  induction gs generalizing state with
  | nil => exact h
  | cons g rest ih => exact ih (h.addGlyph hnumber g)

/-- So does the line. -/
theorem DeepestAmong.addLine {numbers : List Nat} {line : Nat × List Char}
    (hnumber : line.1 ∈ numbers) {p : BracketProfile} (h : DeepestAmong numbers p) :
    DeepestAmong numbers (addLine p line) :=
  DeepestAmong.foldl_addGlyph hnumber (Line.glyphs line.2) h

/-- So do all the lines, each of them among the numbers. -/
theorem DeepestAmong.foldl_addLine {numbers : List Nat} {lines : List (Nat × List Char)}
    (hlines : ∀ line ∈ lines, line.1 ∈ numbers) {p : BracketProfile} (h : DeepestAmong numbers p) :
    DeepestAmong numbers (lines.foldl BracketProfile.addLine p) := by
  induction lines generalizing p with
  | nil => exact h
  | cons line rest ih =>
      have hline := hlines line List.mem_cons_self
      exact ih (fun other hmem => hlines other (List.mem_cons_of_mem _ hmem)) (h.addLine hline)

/-- The deepest line of a profile is one of the lines it was built from. -/
theorem DeepestAmong.build (lines : List (Nat × List Char)) :
    DeepestAmong (lines.map Prod.fst) (build lines) :=
  DeepestAmong.foldl_addLine (fun _ hmem => List.mem_map_of_mem hmem) (Or.inl rfl)

end BracketProfile

namespace Syntax

/-- Nesting that gets too deep is reported at a line that was walked: no limit is below zero. -/
theorem onCode_of_mem_nesting {c : Context} {limit : Nat} {f : SyntaxFinding}
    (h : f ∈ nesting limit (BracketProfile.build c.codeLines)) :
    Text.OnCode c.text f.line f.column := by
  rw [nesting, List.mem_ite_nil_right, List.mem_singleton] at h
  obtain ⟨hdeep, rfl⟩ := h
  rcases BracketProfile.DeepestAmong.build c.codeLines with hzero | hmem
  · omega
  · obtain ⟨⟨number, line⟩, hline, hnumber⟩ := List.mem_map.mp hmem
    have hcode := (List.mem_filter.mp hline).2
    have hplace := c.onCode_of_mem_codeLines hline (onGlyphs_one (Line.ne_nil_of_isCode hcode))
    rwa [← hnumber]

/-- A syntax finding is about brackets left open across the script, or stands on a code line. -/
theorem mem_unbalanced_or_onCode {c : Context} {f : SyntaxFinding} (h : f ∈ findings c) :
    f ∈ unbalanced (BracketProfile.build c.codeLines) ∨ Text.OnCode c.text f.line f.column := by
  simp only [findings, scriptFindings, List.mem_append] at h
  rcases h with hline | hunbalanced | hnesting
  · obtain ⟨⟨number, line⟩, hmem, hf⟩ := List.mem_flatMap.mp hline
    obtain ⟨flaw, hflaw, rfl⟩ := List.mem_map.mp hf
    have hcolumn := onGlyphs_glyphs_iff.mpr (LineCheck.column_of_mem_flaws hflaw)
    exact Or.inr (c.onCode_of_mem_codeLines hmem hcolumn)
  · exact Or.inl hunbalanced
  · exact Or.inr (onCode_of_mem_nesting hnesting)

end Syntax

namespace Practice

/-- An improvement reports a tip, at a place on a code line. -/
def Reported (c : Context) (f : Improvement) : Prop :=
  ∃ number tip, f = Tip.improvement number tip ∧ Text.OnCode c.text number tip.column

/-- The style advice of a run of lines stands on the lines of the script. -/
theorem reported_of_mem_styleFrom {c : Context} {unit first : Nat} {above : Option (List Char)}
    {ls : List (List Char)} {f : Improvement}
    (hls : ∀ line ∈ numberedFrom first ls, line ∈ numberedFrom 1 c.lines)
    (h : f ∈ styleFrom unit first above ls) : Reported c f := by
  induction ls generalizing first above with
  | nil => exact absurd h List.not_mem_nil
  | cons line rest ih =>
      rcases List.mem_append.mp h with hhere | hrest
      · rw [List.mem_ite_nil_right] at hhere
        obtain ⟨hcode, hf⟩ := hhere
        obtain ⟨tip, htip, rfl⟩ := List.mem_map.mp hf
        have hcolumn := onGlyphs_of_mem_style (Line.ne_nil_of_isCode hcode) htip
        have hmem := hls (first, line) List.mem_cons_self
        exact ⟨first, tip, rfl, c.onCode_of_mem hmem hcode hcolumn⟩
      · exact ih (fun other hmem => hls other (List.mem_cons_of_mem _ hmem)) hrest

/-- A pass over the lines stands on the script when its tips stand on their lines. -/
theorem reported_of_mem_pass {c : Context} {tips : List Char → List Tip}
    (htips : ∀ line, line ≠ [] → ∀ tip ∈ tips line, OnGlyphs 1 (Line.glyphs line) tip.column)
    {f : Improvement} (h : f ∈ pass c tips) : Reported c f := by
  obtain ⟨⟨number, line⟩, hmem, hf⟩ := List.mem_flatMap.mp h
  obtain ⟨tip, htip, rfl⟩ := List.mem_map.mp hf
  have hline := Line.ne_nil_of_isCode (List.mem_filter.mp hmem).2
  exact ⟨number, tip, rfl, c.onCode_of_mem_codeLines hmem (htips line hline tip htip)⟩

/-- Every piece of advice of the review stands on the script. -/
theorem reported_of_mem_review {c : Context} {f : Improvement} (h : f ∈ review c) :
    Reported c f := by
  simp only [review, List.mem_append] at h
  rcases h with (((hstyle | hperformance) | hmaintainability) | hreadability) | hhygiene
  · exact reported_of_mem_styleFrom (fun _ hmem => hmem) hstyle
  · exact reported_of_mem_pass (fun _ _ _ => onGlyphs_of_mem_performance) hperformance
  · exact reported_of_mem_pass (fun _ hline _ => onGlyphs_of_mem_maintainability hline)
      hmaintainability
  · refine reported_of_mem_pass (fun line hline tip htip => ?_) hreadability
    rw [column_of_mem_readability htip]
    exact onGlyphs_one hline
  · exact reported_of_mem_pass
      (fun _ _ _ htip => onGlyphs_of_hygiene (Option.mem_toList.mp htip)) hhygiene

end Practice

/-- The confidence of a piece of advice is between zero and one. -/
theorem Advice.confidence_mem (advice : Advice) :
    0 ≤ advice.confidence ∧ advice.confidence ≤ 1 := by
  cases advice <;> simp only [confidence] <;> decide

/-- No piece of advice is an error. -/
theorem Advice.level_ne_error (advice : Advice) : advice.level ≠ .error := by
  cases advice <;> simp [level]

/-! ## Matches of security rules -/

/-- The first line starts at offset zero, which no offset comes before. -/
theorem Text.LineIndex.one_le_locate (text : List Char) (offset : Nat) :
    1 ≤ ((build text).locate offset).1 := by
  simp only [locate, build]
  rw [List.filter_cons_of_pos (by simp), List.length_cons]
  omega

theorem Text.length_lines_pos {text : List Char} (h : text ≠ []) : 0 < (lines text).length := by
  rw [lines, List.length_map, List.length_pos_iff]
  intro hnil
  rcases dropEmptyLast_eq_or (pieces text) with hpieces | hpieces
  · exact pieces_ne_nil text (hpieces.trans hnil)
  · have hjoin := intercalate_pieces text
    rw [hpieces, hnil] at hjoin
    exact h hjoin.symm

/-- A security finding is on a line of the script, when there is one. -/
theorem Security.line_of_mem_scan {read : Pattern.Reader} {c : Context}
    {rules : List SecurityRule} {f : SecurityFinding} (hlines : 0 < c.totalLines)
    (h : f ∈ scan read c rules) : 1 ≤ f.line ∧ f.line ≤ c.totalLines := by
  obtain ⟨rule, -, hf⟩ := List.mem_flatMap.mp h
  simp only [SecurityRule.findings] at hf
  split at hf
  · exact absurd hf List.not_mem_nil
  · obtain ⟨span, -, rfl⟩ := List.mem_map.mp hf
    have hlocate := Text.LineIndex.one_le_locate c.text span.start
    show 1 ≤ min ((Text.LineIndex.build c.text).locate span.start).1 (max c.totalLines 1)
      ∧ min ((Text.LineIndex.build c.text).locate span.start).1 (max c.totalLines 1) ≤ c.totalLines
    omega

/-! ## All findings of an analysis -/

namespace Context

variable {c : Context} {read : Pattern.Reader} {rules : List SecurityRule}

/-- Every improvement of an analysis stands on the script. -/
theorem reported_of_mem_improvements {f : Improvement}
    (h : f ∈ (c.analyze read rules).improvements) : Practice.Reported c f :=
  Practice.reported_of_mem_review (List.mem_ite_nil_right.mp h).2

/-- Every syntax finding of an analysis is on a line of the script, when there is one. -/
theorem line_of_mem_syntaxFindings {f : SyntaxFinding} (hlines : 0 < c.totalLines)
    (h : f ∈ (c.analyze read rules).syntaxFindings) : 1 ≤ f.line ∧ f.line ≤ c.totalLines := by
  rcases Syntax.mem_unbalanced_or_onCode h with hunbalanced | hplace
  · rw [(Syntax.position_of_mem_unbalanced hunbalanced).1]
    exact ⟨Nat.le_refl 1, hlines⟩
  · exact hplace.line_mem

/-- Only what is about brackets left open across the script is put at the start of the text. -/
theorem position_of_mem_syntaxFindings {f : SyntaxFinding}
    (h : f ∈ (c.analyze read rules).syntaxFindings) :
    if f.code = .unbalancedBrackets then f.line = 1 ∧ f.column = 1
    else Text.OnCode c.text f.line f.column := by
  split
  · rename_i hcode
    exact Syntax.position_of_mem_unbalanced (Syntax.mem_unbalanced_of_code h hcode)
  · rename_i hcode
    refine (Syntax.mem_unbalanced_or_onCode h).resolve_left ?_
    exact fun hunbalanced => hcode (Syntax.code_of_mem_unbalanced hunbalanced)

end Context

/-- **Every finding stands in the text.** In an analysis that succeeds, however patterns are read,
every finding is on one of the lines counted. Syntax findings and improvements are at a character of
a code line; only brackets left open across the script are reported at line 1, column 1, whatever is
there. Improvements are sure to a degree between zero and one, and none is an error. -/
theorem analyze_positions {r : Request} {read : Pattern.Reader} {catalogue : Catalogue}
    {settings : Settings} {result : AnalysisResult}
    (h : r.analyze read catalogue settings = .ok result) :
    result.totalLines = (Text.lines r.text.toList).length
      ∧ (∀ f ∈ result.syntaxFindings, 1 ≤ f.line ∧ f.line ≤ result.totalLines)
      ∧ (∀ f ∈ result.securityFindings, 1 ≤ f.line ∧ f.line ≤ result.totalLines)
      ∧ (∀ f ∈ result.improvements, 1 ≤ f.line ∧ f.line ≤ result.totalLines)
      ∧ (∀ f ∈ result.syntaxFindings,
          if f.code = .unbalancedBrackets then f.line = 1 ∧ f.column = 1
          else Text.OnCode r.text.toList f.line f.column)
      ∧ (∀ f ∈ result.improvements, Text.OnCode r.text.toList f.line f.column)
      ∧ ∀ f ∈ result.improvements, 0 ≤ f.confidence ∧ f.confidence ≤ 1 ∧ f.level ≠ .error := by
  obtain ⟨c, hc, rfl⟩ := Request.exists_context_of_analyze_ok h
  obtain ⟨hblank, -, dialect, -, rfl⟩ := Request.context_eq_ok_iff.mp hc
  have hlines : 0 < (Text.lines r.text.toList).length := by
    refine Text.length_lines_pos ?_
    intro hnil
    rw [hnil] at hblank
    exact absurd hblank (by decide)
  refine ⟨rfl, fun _ => Context.line_of_mem_syntaxFindings hlines, ?_, ?_,
    fun _ => Context.position_of_mem_syntaxFindings, ?_, ?_⟩
  · intro f hf
    exact Security.line_of_mem_scan hlines (List.mem_ite_nil_right.mp hf).2
  · intro f hf
    obtain ⟨number, tip, rfl, hplace⟩ := Context.reported_of_mem_improvements hf
    exact hplace.line_mem
  · intro f hf
    obtain ⟨number, tip, rfl, hplace⟩ := Context.reported_of_mem_improvements hf
    exact hplace
  · intro f hf
    obtain ⟨number, tip, rfl, -⟩ := Context.reported_of_mem_improvements hf
    obtain ⟨hnonneg, hle⟩ := tip.advice.confidence_mem
    exact ⟨hnonneg, hle, tip.advice.level_ne_error⟩

/-- Below a comment, a mismatch that also leaves a bracket open across the script, a number without
a name and a password: the mismatch and the number are on line 2, the password on line 3, and the
bracket left open is reported on the comment. -/
theorem analyze_positions_mismatch :
    ∃ result,
      Request.analyze { text := "@@ note\nthink [(] 42\npassword=\"x\"" } Pattern.ofText? {} {}
        = .ok result
      ∧ result.totalLines = 3
      ∧ result.syntaxFindings.map (fun f => (f.code, f.line, f.column))
        = [(.mismatchedBracket, 2, 9), (.unbalancedBrackets, 1, 1)]
      ∧ result.securityFindings.map (fun f => (f.line, f.column)) = [(3, 1)]
      ∧ result.improvements.map (fun f => (f.line, f.column)) = [(2, 11)]
      ∧ (∀ f ∈ result.improvements,
          Text.OnCode "@@ note\nthink [(] 42\npassword=\"x\"".toList f.line f.column)
      ∧ ∀ f ∈ result.improvements, 0 ≤ f.confidence ∧ f.confidence ≤ 1 ∧ f.level ≠ .error := by
  refine ⟨_, rfl, ?_, ?_, ?_, ?_, ?_⟩
  · rfl
  · decide +kernel
  · decide +kernel
  · decide +kernel
  · obtain ⟨-, -, -, -, -, hplace, hadvice⟩ :=
      @analyze_positions { text := "@@ note\nthink [(] 42\npassword=\"x\"" } Pattern.ofText? {} {} _
        rfl
    exact ⟨hplace, hadvice⟩

end Softcode
