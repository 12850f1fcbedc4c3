import Softcode.Proofs.Documentation
import Softcode.Proofs.TextLines

/-!
# Line terminators

A script is the same whether its lines end in line feeds or in carriage returns and line feeds: the
lines are the same (`Text.lines_withReturns`), and apart from the search for patterns of security
rules every pass sees the lines alone (`line_terminators_do_not_matter`). A line loses all the
carriage returns it ends with, so this holds also of texts that have carriage returns already.
-/

namespace Softcode

namespace Text

/-- The text with a carriage return put before each of its line feeds. -/
def withReturns (text : List Char) : List Char :=
  text.flatMap fun c => if c = '\n' then ['\r', '\n'] else [c]

/-- A text without line feeds gets no carriage returns. -/
theorem withReturns_of_not_mem {text : List Char} (h : '\n' ∉ text) : withReturns text = text := by
  induction text with
  | nil => rfl
  | cons c rest ih =>
      obtain ⟨hc, hrest⟩ := List.ne_and_not_mem_of_not_mem_cons h
      have hstep : withReturns (c :: rest) = c :: withReturns rest := by
        rw [withReturns, List.flatMap_cons, if_neg (Ne.symm hc)]
        rfl
      rw [hstep, ih hrest]

/-- Up to its first line feed a text gets one carriage return. -/
theorem withReturns_join {line : List Char} (h : '\n' ∉ line) (rest : List Char) :
    withReturns (line ++ '\n' :: rest) = (line ++ ['\r']) ++ '\n' :: withReturns rest := by
  have hline := withReturns_of_not_mem h
  rw [withReturns] at hline
  rw [withReturns, List.flatMap_append, hline, List.flatMap_cons, if_pos rfl, List.append_assoc]
  rfl

/-- One more carriage return at the end is dropped too. -/
theorem dropReturns_append_return (s : List Char) : dropReturns (s ++ ['\r']) = dropReturns s := by
  rw [dropReturns, List.reverse_append, List.reverse_singleton, List.singleton_append,
    List.dropWhile_cons_of_pos (by decide), dropReturns]

/-- Carriage returns before line feeds do not show in the lines. By induction on the line feeds. -/
theorem lines_withReturns (text : List Char) : lines (withReturns text) = lines text := by
  by_cases hfeed : '\n' ∈ text
  · obtain ⟨line, rest, hsplit, hline⟩ := List.eq_append_cons_of_mem hfeed
    have hreturn : '\n' ∉ line ++ ['\r'] := by simp [hline]
    rw [hsplit, withReturns_join hline, lines_join, lines_join, terminated_of_not_mem hline,
      terminated_of_not_mem hreturn, dropReturns_append_return, lines_withReturns rest]
  · rw [withReturns_of_not_mem hfeed]
termination_by text.length
decreasing_by
  simp only [hsplit, List.length_append, List.length_cons]
  omega

end Text

/-! ## Passes over the lines -/

section Lines

variable {c : Context} {text : List Char}

/-- The code lines depend on the text by its lines only. -/
theorem Context.codeLines_of_lines (h : Context.lines { c with text } = c.lines) :
    Context.codeLines { c with text } = c.codeLines := by
  rw [codeLines, codeLines, h]

/-- So do the syntax findings. -/
theorem Syntax.findings_of_lines (h : Context.lines { c with text } = c.lines) :
    findings { c with text } = findings c := by
  rw [findings, findings, scriptFindings, scriptFindings, Context.codeLines_of_lines h]
  rfl

/-- So does the review. -/
theorem Practice.review_of_lines (h : Context.lines { c with text } = c.lines) :
    review { c with text } = review c := by
  simp only [review, pass, Context.codeLines_of_lines h, h]

/-- So do the notes. -/
theorem Deprecation.notes_of_lines (h : Context.lines { c with text } = c.lines) :
    notes { c with text } = notes c := by
  have hcalls : scriptCalls { c with text } = scriptCalls c := by
    rw [scriptCalls, scriptCalls, Context.codeLines_of_lines h]
  rw [notes, notes, hcalls]

/-- So do the measures. -/
theorem Score.measures_of_lines (h : Context.lines { c with text } = c.lines) :
    measures { c with text } = measures c := by
  simp only [measures, Context.totalLines, Context.commentLines, Context.codeLines_of_lines h, h]

/-- All of a result but what the security rules find depends on the text through its lines. -/
theorem Context.analyze_of_lines (h : Context.lines { c with text } = c.lines)
    (read : Pattern.Reader) (rules : List SecurityRule) :
    (Context.analyze { c with text } read rules).syntaxFindings
        = (c.analyze read rules).syntaxFindings
      ∧ (Context.analyze { c with text } read rules).improvements
        = (c.analyze read rules).improvements
      ∧ (Context.analyze { c with text } read rules).compatibilityNotes
        = (c.analyze read rules).compatibilityNotes
      ∧ (Context.analyze { c with text } read rules).totalLines = (c.analyze read rules).totalLines
      ∧ (Context.analyze { c with text } read rules).scores.complexity
        = (c.analyze read rules).scores.complexity
      ∧ (Context.analyze { c with text } read rules).scores.maintainability
        = (c.analyze read rules).scores.maintainability := by
  simp only [Context.analyze, Context.scores, Score.all, Syntax.findings_of_lines h,
    Practice.review_of_lines h, Deprecation.notes_of_lines h, Score.measures_of_lines h,
    Context.totalLines, h, and_self]

end Lines

/-- The request with a carriage return put before each line feed of its text. -/
def Request.withReturns (r : Request) : Request :=
  { r with text := String.ofList (Text.withReturns r.text.toList) }

/-- A request with a context is analysed. -/
theorem Request.analyze_of_context_ok {r : Request} {catalogue : Catalogue} {settings : Settings}
    {c : Context} (h : r.context catalogue settings = .ok c) (read : Pattern.Reader) :
    r.analyze read catalogue settings = .ok (c.analyze read catalogue.rules) := by
  rw [Request.analyze, h]

/-- Line terminators do not matter: if a request is accepted with line feeds and with carriage
returns before them, both contexts have the same lines, and both analyses give a result, with the
same syntax findings, improvements, notes, number of lines and scores for complexity and
maintainability. -/
theorem line_terminators_do_not_matter {r : Request} {catalogue : Catalogue} {settings : Settings}
    {c c' : Context} (h : r.context catalogue settings = .ok c)
    (h' : r.withReturns.context catalogue settings = .ok c') (read : Pattern.Reader) :
    c'.lines = c.lines
      ∧ ∃ result result', r.analyze read catalogue settings = .ok result
        ∧ r.withReturns.analyze read catalogue settings = .ok result'
        ∧ result'.syntaxFindings = result.syntaxFindings
        ∧ result'.improvements = result.improvements
        ∧ result'.compatibilityNotes = result.compatibilityNotes
        ∧ result'.totalLines = result.totalLines
        ∧ result'.scores.complexity = result.scores.complexity
        ∧ result'.scores.maintainability = result.scores.maintainability := by
  obtain rfl := Request.context_with_text h h'
  have hlines : Context.lines { c with text := r.withReturns.text.toList } = c.lines := by
    rw [Context.lines, Context.lines, Request.withReturns, String.toList_ofList,
      Text.lines_withReturns, (Request.context_of_ok h).1]
  have hresults := Context.analyze_of_lines hlines read catalogue.rules
  exact ⟨hlines, _, _, Request.analyze_of_context_ok h read,
    Request.analyze_of_context_ok h' read, hresults⟩

/-- A text with carriage returns of its own, before a line feed, alone on a line and at the end. -/
theorem line_terminators_do_not_matter_stray_returns :
    ∃ (r : Request) (c c' : Context), r.text = "think [f(\r\n\r\n\rx]\n\r"
      ∧ r.context {} {} = .ok c ∧ r.withReturns.context {} {} = .ok c'
      ∧ c'.text = "think [f(\r\r\n\r\r\n\rx]\r\n\r".toList
      ∧ c'.lines = ["think [f(".toList, [], "\rx]".toList, []]
      ∧ ∃ result result', r.analyze Pattern.ofText? {} {} = .ok result
        ∧ r.withReturns.analyze Pattern.ofText? {} {} = .ok result'
        ∧ result'.syntaxFindings = result.syntaxFindings := by
  have h : Request.context { text := "think [f(\r\n\r\n\rx]\n\r" } {} {} = .ok _ := rfl
  have h' : Request.context (Request.withReturns { text := "think [f(\r\n\r\n\rx]\n\r" }) {} {}
      = .ok _ := rfl
  obtain ⟨hlines, result, result', hresult, hresult', hfindings, -⟩ :=
    line_terminators_do_not_matter h h' Pattern.ofText?
  refine ⟨_, _, _, ?_, h, h', ?_, hlines.trans ?_, result, result', hresult, hresult', hfindings⟩
  · rfl
  · decide
  · decide

end Softcode
