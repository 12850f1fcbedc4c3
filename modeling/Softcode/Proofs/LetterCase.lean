import Softcode.Pattern.Reader
import Softcode.Proofs.AlikeScripts
import Softcode.Proofs.TextLines

/-!
# The case of letters

Names in softcode have no case, so texts that are equal up to the case of letters get the same
findings (`letter_case_does_not_matter`): in the same places, of the same kinds, and with the same
scores. Each text is compared with its lowered form. Cutting a text into lines, trimming a line and
walking over it do not see the case of a letter, so a line reads like its lowered form
(`Line.readAlike_lower`), which carries the review, the notes and the measures. The checks of a line
also look at what reading alike leaves open, such as control characters inside literals, and are
taken one by one (`LineCheck.flaws_lower`).
-/

namespace Softcode

open Text

/-! ## Lowered texts -/

namespace Text

/-- Lowering a character does not make or unmake a control character. -/
@[simp] theorem isControl_toLower (c : Char) : isControl c.toLower = isControl c := by
  refine ask_toLower false (fun d hd => ?_) c
  have hcode := toNat_of_isAlpha hd
  simp [isControl]
  omega

/-- A cut that does not see the case of letters. -/
theorem dropWhile_lower {p : Char → Bool} (hp : ∀ c : Char, p c.toLower = p c) (s : List Char) :
    (lower s).dropWhile p = lower (s.dropWhile p) := by
  have hcomp : p ∘ Char.toLower = p := funext hp
  rw [lower, List.dropWhile_map, hcomp, lower]

/-- A test that does not see case takes the same first part of a lowered text. -/
theorem takeWhile_lower {p : Char → Bool} (hp : ∀ c : Char, p c.toLower = p c) (s : List Char) :
    (lower s).takeWhile p = lower (s.takeWhile p) := by
  have hcomp : p ∘ Char.toLower = p := funext hp
  rw [lower, List.takeWhile_map, hcomp, lower]

/-- Lowering keeps the length of a text. -/
@[simp] theorem length_lower (s : List Char) : (lower s).length = s.length := List.length_map _

/-- Only the empty text is empty when lowered. -/
@[simp] theorem isEmpty_lower (s : List Char) : (lower s).isEmpty = s.isEmpty := List.isEmpty_map

/-- A text is lowered character by character, from either end. -/
theorem lower_reverse (s : List Char) : (lower s).reverse = lower s.reverse := by
  simp [lower]

/-- Lowering makes no blanks at the start of a text and takes none away. -/
theorem trimStart_lower (s : List Char) : trimStart (lower s) = lower (trimStart s) :=
  dropWhile_lower isBlank_toLower s

/-- Lowering makes no blanks at the ends of a text and takes none away. -/
theorem trim_lower (s : List Char) : trim (lower s) = lower (trim s) := by
  rw [trim, trimStart_lower, trimEnd, lower_reverse, dropWhile_lower isBlank_toLower, lower_reverse]
  rfl

/-- Lowering keeps the carriage returns at the end of a line. -/
theorem dropReturns_lower (s : List Char) : dropReturns (lower s) = lower (dropReturns s) := by
  rw [dropReturns, lower_reverse, dropWhile_lower (toLower_beq (by decide)), lower_reverse]
  rfl

/-- A lowered text is split at the same places by a test that does not see case. -/
theorem splitBy_lower {test : Char → Bool} (htest : ∀ c : Char, test c.toLower = test c)
    (s : List Char) : splitBy test (lower s) = (splitBy test s).map lower := by
  induction s with
  | nil => rfl
  | cons c rest ih =>
      rw [lower, List.map_cons, splitBy, splitBy, htest, ← lower, ih]
      split
      · rfl
      · cases splitBy test rest <;> rfl

/-- A last piece is empty exactly if it is when lowered. -/
theorem dropEmptyLast_map_lower (ps : List (List Char)) :
    dropEmptyLast (ps.map lower) = (dropEmptyLast ps).map lower := by
  fun_induction dropEmptyLast ps with
  | case1 => rfl
  | case2 piece hempty => simp_all [dropEmptyLast, lower]
  | case3 piece hempty => simp_all [dropEmptyLast, lower]
  | case4 piece more hmore ih =>
      obtain - | ⟨next, more⟩ := more
      · exact absurd rfl hmore
      · rw [List.map_cons, List.map_cons, dropEmptyLast, ← List.map_cons, ih, List.map_cons]
        simp

/-- Lowering goes line by line. -/
theorem lines_lower (text : List Char) : lines (lower text) = (lines text).map lower := by
  rw [lines, pieces, splitBy_lower (toLower_beq (by decide)), dropEmptyLast_map_lower, lines,
    List.map_map, List.map_map]
  exact List.map_congr_left fun piece _ => dropReturns_lower piece

/-- Whether a name is an identifier does not depend on its case. -/
@[simp] theorem isIdentifier_lower (s : List Char) : isIdentifier (lower s) = isIdentifier s := by
  cases s with
  | nil => rfl
  | cons c rest => simp [isIdentifier, lower, Function.comp_def]

end Text

/-! ## Lowered lines -/

/-- The glyph with its letter lowered. -/
def Glyph.lowered (g : Glyph) : Glyph := { g with char := g.char.toLower }

/-- The walk takes a letter and its lower case alike. -/
theorem Quoting.step_toLower (q : Quoting) (c : Char) : q.step c.toLower = q.step c := by
  simp [step, toLower_beq]

/-- The glyphs of a lowered text are the lowered glyphs. -/
theorem glyphsFrom_lower (q : Quoting) (s : List Char) :
    glyphsFrom q (lower s) = (glyphsFrom q s).map Glyph.lowered := by
  induction s generalizing q with
  | nil => rfl
  | cons c rest ih =>
      rw [lower, List.map_cons, glyphsFrom, glyphsFrom, q.step_toLower, ← lower, ih]
      rfl

/-- A glyph looks like the lowered one to whoever does not see case. -/
theorem sameView_lowered (g : Glyph) : g.SameView Char.toLower g.lowered :=
  ⟨rfl, (Char.toLower_toLower_eq_toLower g.char).symm⟩

/-- Glyphs and the lowered ones are alike to whoever does not see case. -/
theorem alike_map_lowered (gs : List Glyph) :
    Alike Char.toLower false gs (gs.map Glyph.lowered) := by
  induction gs with
  | nil => exact .nil false
  | cons g gs ih => exact .shown (sameView_lowered g) (fun _ => ⟨rfl, rfl⟩) ih

namespace Line

/-- The glyphs of a lowered line are the lowered glyphs of the line. -/
theorem glyphs_lower (line : List Char) :
    glyphs (lower line) = (glyphs line).map Glyph.lowered := by
  rw [glyphs_eq_glyphsFrom, glyphs_eq_glyphsFrom, glyphsFrom_lower]

/-- A comment, in tests of single characters. -/
theorem isComment_eq (line : List Char) :
    isComment line
      = match Text.trim line with
        | [] => false
        | [c] => c == '#'
        | c :: d :: _ => (c == '@' && d == '@') || (c == '#' && d == ' ') := by
  rw [isComment]
  match Text.trim line with
  | [] => rfl
  | [c] => split <;> simp_all
  | c :: d :: rest => split <;> simp_all

/-- Lowering neither makes nor unmakes a comment. -/
theorem isComment_lower (line : List Char) : isComment (lower line) = isComment line := by
  rw [isComment_eq, isComment_eq, trim_lower]
  match Text.trim line with
  | [] => rfl
  | [c] => simp [lower, toLower_beq]
  | c :: d :: rest => simp [lower, toLower_beq]

/-- Lowering neither makes nor unmakes a code line. -/
theorem isCode_lower (line : List Char) : isCode (lower line) = isCode line := by
  rw [isCode, isCode, isComment_lower, trim_lower]
  simp [lower]

end Line

namespace Practice

/-- A comment mark stands at the start of a text or further on. -/
theorem hasCommentMark_cons_cons (c d : Char) (rest : List Char) :
    hasCommentMark (c :: d :: rest) = ((c == '@' && d == '@') || hasCommentMark (d :: rest)) := by
  by_cases hmark : c = '@' ∧ d = '@'
  · obtain ⟨rfl, rfl⟩ := hmark
    rfl
  · have hlater : hasCommentMark (c :: d :: rest) = hasCommentMark (d :: rest) := by
      rw [hasCommentMark]
      intro _ hc hd
      exact hmark ⟨hc, (List.cons.inj hd).1⟩
    have hhere : (c == '@' && d == '@') = false := by simpa using hmark
    rw [hlater, hhere, Bool.false_or]

/-- Lowering neither makes nor unmakes a comment mark. -/
theorem hasCommentMark_lower (line : List Char) :
    hasCommentMark (lower line) = hasCommentMark line := by
  induction line with
  | nil => rfl
  | cons c rest ih =>
      cases rest with
      | nil => grind [hasCommentMark, lower]
      | cons d rest =>
          simp only [lower, List.map_cons] at ih
          simp [lower, hasCommentMark_cons_cons, toLower_beq, ih]

/-- Advice on indentation changes only in the line it quotes. -/
theorem indentation_lower (unit : Nat) (line : List Char) :
    (indentation unit (lower line)).map Tip.unquoted
      = (indentation unit line).map Tip.unquoted := by
  have hindent : (lower line).takeWhile isIndent = lower (line.takeWhile isIndent) :=
    takeWhile_lower (fun c => by simp [isIndent, toLower_beq]) line
  have htabs : (lower (line.takeWhile isIndent)).countP (· == '\t')
      = (line.takeWhile isIndent).countP (· == '\t') := by
    simp [lower, List.countP_map, Function.comp_def, toLower_beq]
  have hlength : (lower (line.takeWhile isIndent)).length = (line.takeWhile isIndent).length :=
    List.length_map _
  simp only [indentation, hindent, htabs, hlength]
  split
  · rfl
  · split <;> rfl

end Practice

/-- A line reads like its lowered form. -/
theorem Line.readAlike_lower (line : List Char) : ReadAlike Char.toLower line (lower line) where
  glyphs := glyphs_lower line ▸ alike_map_lowered (Line.glyphs line)
  isComment := (isComment_lower line).symm
  isCode := (isCode_lower line).symm
  indentation unit := (Practice.indentation_lower unit line).symm

/-! ## Flaws of lowered lines -/

/-- Where a flaw stands and what kind it is. -/
def Flaw.outline (flaw : Flaw) : Nat × Level × Code × Bool :=
  (flaw.column, flaw.defect.level, flaw.defect.code, flaw.defect.fixable)

namespace LineCheck

/-- The check for characters flaws the same columns of a lowered line. -/
theorem charactersFrom_lowered (column : Nat) (gs : List Glyph) :
    (charactersFrom column (gs.map Glyph.lowered)).map Flaw.outline
      = (charactersFrom column gs).map Flaw.outline := by
  induction gs generalizing column with
  | nil => rfl
  | cons g gs ih =>
      have htab : (g.char.toLower != '\t') = (g.char != '\t') := by
        rw [bne, toLower_beq (by decide), bne]
      simp only [List.map_cons, charactersFrom, Glyph.lowered, isControl_toLower, htab]
      split
      · rw [List.map_cons, List.map_cons, ih]
        rfl
      · exact ih (column + 1)

/-- The check for brackets does not see case. -/
theorem brackets_lowered (gs : List Glyph) : brackets (gs.map Glyph.lowered) = brackets gs :=
  (bracketsFrom_congr ((alike_map_lowered gs).sameBrackets isView_toLower) 1 []).symm

/-- The check for strings does not see case. -/
theorem string_lowered (gs : List Glyph) : string (gs.map Glyph.lowered) = string gs := by
  rw [string, string, Line.unterminatedLiteral, Line.unterminatedLiteral,
    Line.openLiteralFrom_congr (alike_map_lowered gs).map_role]

/-- The catalogue is asked without regard to case; the spelling shows in messages alone. -/
theorem catalogued_viewed (d : Dialect) (strict : Bool) (call : Call) :
    (catalogued d strict (call.viewed Char.toLower)).map Flaw.outline
      = (catalogued d strict call).map Flaw.outline := by
  simp only [catalogued, Call.viewed, Dialect.function?_viewed isView_toLower]
  cases d.function? call.name with
  | none => simp only; split <;> rfl
  | some function => simp only; split <;> rfl

/-- The checks on calls flaw the same places of a lowered line, since names are looked up without
case. -/
theorem calls_lowered (dialect : Option Dialect) (strict : Bool) (gs : List Glyph) :
    (calls dialect strict (gs.map Glyph.lowered)).map Flaw.outline
      = (calls dialect strict gs).map Flaw.outline := by
  rw [calls, calls, List.map_flatMap, List.map_flatMap]
  refine flatMap_of_map_eq ((alike_map_lowered gs).calls isView_toLower).symm _ fun call => ?_
  simp only [List.map_append, List.map_flatMap, catalogued_viewed]
  refine congrArg (· ++ _) ?_
  cases hspaced : call.spaced with
  | false => simp only [Call.viewed, hspaced, Bool.false_eq_true, if_false]
  | true =>
      simp only [Call.viewed, hspaced, if_true]
      rfl

/-- The check on the names of attributes sees their length and their characters, not their case. -/
theorem attributeName_lower (limit : Nat) (line : List Char) :
    (attributeName limit (lower line)).map Flaw.outline
      = (attributeName limit line).map Flaw.outline := by
  simp only [attributeName, trimStart_lower, length_lower]
  cases trimStart line with
  | nil => rfl
  | cons c rest =>
      by_cases hc : c = '&'
      · subst hc
        have hname : (lower rest).takeWhile inAttributeName
            = lower (rest.takeWhile inAttributeName) :=
          takeWhile_lower (fun c => by simp [inAttributeName, bne, toLower_beq]) rest
        have hstart : lower ('&' :: rest) = '&' :: lower rest := rfl
        simp only [hstart, hname, isIdentifier_lower, length_lower, isEmpty_lower]
        split
        · rfl
        · rw [List.map_append, List.map_append]
          refine congrArg₂ (· ++ ·) ?_ ?_ <;> split <;> rfl
      · have hlowered : c.toLower ≠ '&' := by
          rwa [Ne, ← beq_iff_eq, toLower_beq (by decide), beq_iff_eq]
        simp [lower, hc, hlowered]

/-- The check on a reference sees its kind and its number, not its case. -/
theorem reference_viewed (limit : Nat) (sub : Substitution) :
    (reference limit (sub.viewed Char.toLower)).map Flaw.outline
      = (reference limit sub).map Flaw.outline := by
  obtain ⟨column, reference⟩ := sub
  cases reference with
  | positional index => rfl
  | short register => rfl
  | named name closed =>
      simp only [LineCheck.reference, Substitution.viewed, Reference.viewed, viewed,
        String.toList_ofList]
      rw [← lower, isIdentifier_lower]
      split <;> rfl

/-- The checks on references flaw the same places of a lowered line. -/
theorem references_lowered (limit : Nat) (gs : List Glyph) :
    (references limit (gs.map Glyph.lowered)).map Flaw.outline
      = (references limit gs).map Flaw.outline := by
  rw [references, references, List.map_flatMap, List.map_flatMap]
  exact flatMap_of_map_eq ((alike_map_lowered gs).substitutions isView_toLower).symm _
    (reference_viewed limit)

/-- Whether a glyph is blank does not depend on its case. -/
theorem isBlank_lowered : ((Text.isBlank ·.char) ∘ Glyph.lowered) = (Text.isBlank ·.char) :=
  funext fun g => isBlank_toLower g.char

/-- A lowered line has its last semicolon in the same column. -/
theorem trailingSemicolon?_lowered (gs : List Glyph) :
    trailingSemicolon? (gs.map Glyph.lowered) = trailingSemicolon? gs := by
  have hsemicolon : ∀ g : Glyph, g.lowered.isCodeChar ';' = g.isCodeChar ';' :=
    fun g => ((sameView_lowered g).isCodeChar isView_toLower (by decide)).symm
  simp only [trailingSemicolon?, ← List.map_reverse, List.dropWhile_map, isBlank_lowered,
    List.length_map, List.getLast?_map, Option.any_map, hsemicolon]

/-- The checks on commands flaw the same places of a lowered line. -/
theorem command_lowered (limit : Nat) (gs : List Glyph) :
    (command limit (gs.map Glyph.lowered)).map Flaw.outline
      = (command limit gs).map Flaw.outline := by
  have hat : ∀ g : Glyph, (g.lowered.char == '@') = (g.char == '@') :=
    fun g => toLower_beq (by decide) g.char
  simp only [command, List.takeWhile_map, isBlank_lowered, List.length_map, ← List.map_drop,
    List.head?_map, Option.any_map, hat, trailingSemicolon?_lowered]
  have hfound := map_find?_of_map_eq ((alike_map_lowered gs).commands isView_toLower)
    (·.column == (gs.takeWhile (Text.isBlank ·.char)).length + 1) (fun _ => rfl)
    (fun found => (found.column, found.name.length)) fun found => by
      simp [Command.viewed, viewed, String.length_toList]
  split
  · -- the commands found stand at the same column and have names of the same length
    generalize (Line.commands gs).find? _ = found at hfound ⊢
    generalize (Line.commands (gs.map Glyph.lowered)).find? _ = found' at hfound ⊢
    cases found with
    | none =>
        rw [Option.map_none, eq_comm, Option.map_eq_none_iff] at hfound
        rw [hfound]
    | some found =>
        obtain ⟨other, rfl, hother⟩ := Option.map_eq_some_iff.mp hfound.symm
        obtain ⟨hcolumn, hlength⟩ := Prod.mk.inj hother
        simp only [hcolumn, hlength, List.map_append]
        refine congrArg (· ++ _) ?_
        split <;> rfl
  · rfl

/-- Each check finds its flaws in a lowered line where it finds them in the line. -/
theorem flaws_lower (c : Context) (line : List Char) :
    (flaws c (lower line)).map Flaw.outline = (flaws c line).map Flaw.outline := by
  simp only [flaws, Line.glyphs_lower, List.map_append, characters, charactersFrom_lowered,
    brackets_lowered, string_lowered, calls_lowered, attributeName_lower, references_lowered,
    command_lowered, length, length_lower]

end LineCheck

/-! ## Lowered scripts -/

/-- Where a syntax finding stands and what kind it is. -/
def SyntaxFinding.outline (f : SyntaxFinding) : Nat × Nat × Level × Code × Bool :=
  (f.line, f.column, f.level, f.code, f.fixable)

/-- Lowered lines have the same numbers. -/
theorem numberedFrom_map_lower (first : Nat) (ls : List (List Char)) :
    numberedFrom first (ls.map lower)
      = (numberedFrom first ls).map fun line => (line.1, lower line.2) := by
  induction ls generalizing first with
  | nil => rfl
  | cons line rest ih => rw [List.map_cons, numberedFrom, numberedFrom, ih, List.map_cons]

namespace Context

variable (c : Context)

/-- The context with its text lowered. -/
def lowered : Context := { c with text := lower c.text }

/-- The lines of a lowered script are the lowered lines. -/
theorem lines_lowered : c.lowered.lines = c.lines.map lower := lines_lower c.text

/-- A script and the lowered one read alike, line by line. -/
theorem readAlike_lowered : List.Forall₂ (Line.ReadAlike Char.toLower) c.lines c.lowered.lines := by
  rw [lines_lowered, List.forall₂_map_right_iff, List.forall₂_same]
  exact fun line _ => Line.readAlike_lower line

/-- A lowered script has the same code lines, lowered. -/
theorem codeLines_lowered :
    c.lowered.codeLines = c.codeLines.map fun line => (line.1, lower line.2) := by
  rw [codeLines, codeLines, lines_lowered, numberedFrom_map_lower, List.filter_map]
  simp [Function.comp_def, Line.isCode_lower]

end Context

namespace Syntax

/-- The findings on a lowered line have the outlines of those on the line. -/
theorem lineFindings_lowered (c : Context) (number : Nat) (line : List Char) :
    (lineFindings c.lowered (number, lower line)).map SyntaxFinding.outline
      = (lineFindings c (number, line)).map SyntaxFinding.outline := by
  have hlooks : ∀ flaws : List Flaw, (flaws.map (Flaw.finding number)).map SyntaxFinding.outline
      = (flaws.map Flaw.outline).map (Prod.mk number) := by
    intro flaws
    rw [List.map_map, List.map_map]
    rfl
  have hflaws : LineCheck.flaws c.lowered (lower line) = LineCheck.flaws c (lower line) := rfl
  rw [lineFindings, lineFindings, hlooks, hlooks, hflaws, LineCheck.flaws_lower]

/-- The findings on a lowered script have the outlines of those on the script. -/
theorem findings_lowered (c : Context) :
    (findings c.lowered).map SyntaxFinding.outline = (findings c).map SyntaxFinding.outline := by
  have hscript : scriptFindings c.lowered = scriptFindings c := by
    rw [scriptFindings, scriptFindings,
      BracketProfile.build_of_readAlike isView_toLower c.readAlike_lowered]
    rfl
  rw [findings, findings, List.map_append, List.map_append, hscript, Context.codeLines_lowered,
    List.flatMap_map, List.map_flatMap, List.map_flatMap]
  simp only [lineFindings_lowered]

end Syntax

/-- Lowered lines have comment marks where the lines have them. -/
theorem Practice.sameMarks_map_lower (above : Option (List Char)) (ls : List (List Char)) :
    SameMarks above ls (ls.map lower) := by
  induction ls generalizing above with
  | nil => trivial
  | cons line rest ih => exact ⟨fun _ => (hasCommentMark_lower line).symm, ih (some line)⟩

/-- The review of a lowered script gives the same advice but for the code it quotes. -/
theorem Practice.review_lowered (c : Context) :
    (review c.lowered).map Improvement.unquoted = (review c).map Improvement.unquoted := by
  have hmarks : SameMarks none c.lines c.lowered.lines := by
    rw [Context.lines_lowered]
    exact sameMarks_map_lower none c.lines
  exact (review_of_sameMarks isView_toLower c.readAlike_lowered hmarks).symm

/-- The notes on a lowered script are those on the script. -/
theorem Deprecation.notes_lowered (c : Context) : notes c.lowered = notes c :=
  (notes_of_readAlike isView_toLower c.readAlike_lowered).symm

/-- The two scores that do not ask for security findings. -/
theorem Context.scores_lowered (c : Context) (read : Pattern.Reader) (rules : List SecurityRule) :
    (c.lowered.analyze read rules).scores.complexity = (c.analyze read rules).scores.complexity
      ∧ (c.lowered.analyze read rules).scores.maintainability
        = (c.analyze read rules).scores.maintainability := by
  have hmeasures : Score.measures c.lowered = Score.measures c :=
    (Score.measures_of_readAlike isView_toLower c.readAlike_lowered).symm
  have haspects : (Practice.review c.lowered).map Improvement.aspect
      = (Practice.review c).map Improvement.aspect :=
    eq_of_map_eq (Practice.review_lowered c) (List.map Improvement.aspect) fun _ => List.map_map
  have hoptions : c.lowered.options = c.options := rfl
  have hsettings : c.lowered.settings = c.settings := rfl
  simp only [Context.analyze, Context.scores, Score.all, hmeasures, hoptions, hsettings]
  refine ⟨trivial, ?_⟩
  split
  · rw [haspects]
  · rfl

/-- The case of letters does not matter: on texts that are equal up to it the syntax findings agree
in place, level, code and fixability, the improvements in all but the code they quote, and the notes
on deprecated functions and the scores for complexity and maintainability are the same. -/
theorem letter_case_does_not_matter (c : Context) (text : List Char) (read : Pattern.Reader)
    (rules : List SecurityRule) (h : lower c.text = lower text) :
    (Syntax.findings c).map SyntaxFinding.outline
        = (Syntax.findings { c with text }).map SyntaxFinding.outline
      ∧ (Practice.review c).map Improvement.unquoted
        = (Practice.review { c with text }).map Improvement.unquoted
      ∧ Deprecation.notes c = Deprecation.notes { c with text }
      ∧ (c.analyze read rules).scores.complexity
        = (Context.analyze { c with text } read rules).scores.complexity
      ∧ (c.analyze read rules).scores.maintainability
        = (Context.analyze { c with text } read rules).scores.maintainability := by
  -- both texts are compared with the one lowered text
  have hlowered : c.lowered = Context.lowered { c with text } := by
    rw [Context.lowered, h]
    rfl
  have hscores := c.scores_lowered read rules
  have hscores' := Context.scores_lowered { c with text } read rules
  refine ⟨?_, ?_, ?_, ?_, ?_⟩
  · rw [← Syntax.findings_lowered, hlowered, Syntax.findings_lowered]
  · rw [← Practice.review_lowered, hlowered, Practice.review_lowered]
  · rw [← Deprecation.notes_lowered, hlowered, Deprecation.notes_lowered]
  · rw [← hscores.1, hlowered, hscores'.1]
  · rw [← hscores.2, hlowered, hscores'.2]

/-- A deprecated function, a register and its argument, spelled in another case. -/
theorem letter_case_does_not_matter_deprecated_call :
    ∃ (c : Context) (text : List Char), c.text = "think Switch( %Q<1>,a)".toList
      ∧ text = "THINK sWITCH( %q<1>,A)".toList ∧ lower c.text = lower text
      ∧ (Syntax.findings { c with text }).map SyntaxFinding.outline
        = [(1, 14, .warning, .spaceAfterParen, true), (1, 7, .warning, .deprecatedFunction, true),
          (1, 15, .error, .invalidVariableReference, false)]
      ∧ (Practice.review c).map Improvement.unquoted
        = (Practice.review { c with text }).map Improvement.unquoted
      ∧ Deprecation.notes { c with text }
        = ["switch() is deprecated in D", "Replace switch() with case()"] := by
  let c : Context :=
    { text := "think Switch( %Q<1>,a)".toList
      dialect := some
        { id := "d", name := "D"
          functions := [{ name := "switch", deprecated := true, replacement := some "case" }] } }
  have h : lower c.text = lower "THINK sWITCH( %q<1>,A)".toList := by decide
  obtain ⟨hfindings, hreview, hnotes, -⟩ := letter_case_does_not_matter c _ Pattern.ofText? [] h
  refine ⟨c, _, rfl, rfl, h, hfindings.symm.trans ?_, hreview, hnotes.symm.trans ?_⟩
  · decide
  · rfl

end Softcode
