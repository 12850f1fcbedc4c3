import Mathlib.Order.Monotone.Basic
import Softcode.Proofs.TextLines
import Softcode.Proofs.Validity

/-!
# Lines put in between

An `Insertion` takes one list of lines to another by putting in lines that meet a condition, at any
places. It gives every line a new number (`renumber`), which keeps the order of the lines and their
content.

Comments and blank lines are no code, so the code lines after putting some in are the old ones with
their new numbers (`codeLines_eq_map_renumber`). The syntax checks and the deprecation notes look at
code lines alone, and the number of a line shows in a finding only as its line. Their results are
therefore the old ones with the lines renumbered (`findings_renumber`). Nesting is the one
place where a number passes through the state of a walk: the profile of brackets remembers the line
that first got deepest, and the walk commutes with renumbering step by step
(`addGlyph_renumber`, `build_renumber`).
-/

namespace Softcode

/-- A way from one list of lines to another that keeps every line in its order and puts in lines
that meet a condition. -/
inductive Insertion (p : List Char → Bool) : List (List Char) → List (List Char) → Type where
  | done : Insertion p [] []
  | keep (line : List Char) {old new : List (List Char)} :
      Insertion p old new → Insertion p (line :: old) (line :: new)
  | insert (line : List Char) (h : p line = true) {old new : List (List Char)} :
      Insertion p old new → Insertion p old (line :: new)

namespace Insertion

variable {p : List Char → Bool} {old new : List (List Char)}

/-- The new index of the line at an index. -/
def place {old new : List (List Char)} : Insertion p old new → Nat → Nat
  | done, i => i
  | keep _ _, 0 => 0
  | keep _ e, i + 1 => e.place i + 1
  | insert _ _ e, i => e.place i + 1

/-- The new number of the line with a number. Lines are numbered from one; zero is no line and stays
as it is. -/
def renumber (e : Insertion p old new) : Nat → Nat
  | 0 => 0
  | i + 1 => e.place i + 1

/-- A line is found again at its new index. -/
theorem getElem?_place (e : Insertion p old new) (i : Nat) : new[e.place i]? = old[i]? := by
  induction e generalizing i with
  | done => rfl
  | keep line e ih =>
      cases i with
      | zero => rfl
      | succ i => exact ih i
  | insert line h e ih => exact ih i

/-- Lines stay in their order. -/
theorem place_lt_place_succ (e : Insertion p old new) (i : Nat) : e.place i < e.place (i + 1) := by
  induction e generalizing i with
  | done => exact Nat.lt_succ_self i
  | keep line e ih =>
      cases i with
      | zero => exact Nat.succ_pos _
      | succ i => exact Nat.succ_lt_succ (ih i)
  | insert line h e ih => exact Nat.succ_lt_succ (ih i)

/-- The old lines stay in their order. -/
theorem strictMono_renumber (e : Insertion p old new) : StrictMono e.renumber := by
  refine strictMono_nat_of_lt_succ fun n => ?_
  cases n with
  | zero => exact Nat.succ_pos _
  | succ i => exact Nat.succ_lt_succ (e.place_lt_place_succ i)

/-- As many lines are put in as lines that meet the condition. -/
theorem exists_count (e : Insertion p old new) :
    ∃ k, new.length = old.length + k ∧ new.countP p = old.countP p + k := by
  induction e with
  | done => exact ⟨0, rfl, rfl⟩
  | keep line e ih =>
      obtain ⟨k, hlength, hcount⟩ := ih
      refine ⟨k, ?_, ?_⟩
      · rw [List.length_cons, List.length_cons, hlength]
        omega
      · rw [List.countP_cons, List.countP_cons, hcount]
        omega
  | insert line h e ih =>
      obtain ⟨k, hlength, hcount⟩ := ih
      refine ⟨k + 1, ?_, ?_⟩
      · rw [List.length_cons, hlength]
        omega
      · rw [List.countP_cons_of_pos h, hcount]
        omega

/-! ## Numbers along an insertion

A walk over numbered lines starts at some number on either side. `Carries` says that a function on
numbers does what the insertion does to the rest of the lines, and its two lemmas follow the
constructors.
-/

/-- The function takes numbers from `first` on to those from `first'` on, as the lines move. -/
def Carries (e : Insertion p old new) (ρ : Nat → Nat) (first first' : Nat) : Prop :=
  ∀ i, ρ (first + i) = first' + e.place i

/-- The renumbering of an insertion carries the numbers of its lines. -/
theorem carries_renumber (e : Insertion p old new) : e.Carries e.renumber 1 1 := by
  intro i
  rw [Nat.add_comm 1 i, Nat.add_comm 1 (e.place i)]
  rfl

/-- Past a line that is kept, both counts go on. -/
theorem Carries.of_keep {e : Insertion p old new} {line : List Char} {ρ : Nat → Nat}
    {first first' : Nat} (h : (keep line e).Carries ρ first first') :
    ρ first = first' ∧ e.Carries ρ (first + 1) (first' + 1) := by
  refine ⟨h 0, fun i => ?_⟩
  have hi : ρ (first + (i + 1)) = first' + (e.place i + 1) := h (i + 1)
  rw [Nat.add_assoc, Nat.add_comm 1 i, hi]
  omega

/-- Past a line that is inserted, only the new count goes on. -/
theorem Carries.of_insert {e : Insertion p old new} {line : List Char} {hline : p line = true}
    {ρ : Nat → Nat} {first first' : Nat} (h : (insert line hline e).Carries ρ first first') :
    e.Carries ρ first (first' + 1) := by
  intro i
  have hi : ρ (first + i) = first' + (e.place i + 1) := h i
  rw [hi]
  omega

/-- Lines that are no code leave the numbered code lines as they are, but for their numbers. -/
theorem filter_isCode_numberedFrom (hp : ∀ line, p line = true → Line.isCode line = false)
    (e : Insertion p old new) {ρ : Nat → Nat} {first first' : Nat}
    (h : e.Carries ρ first first') :
    (numberedFrom first' new).filter (fun line => Line.isCode line.2)
      = ((numberedFrom first old).filter fun line => Line.isCode line.2).map (Prod.map ρ id) := by
  induction e generalizing first first' with
  | done => rfl
  | keep line e ih =>
      obtain ⟨hfirst, hrest⟩ := h.of_keep
      simp only [numberedFrom, List.filter_cons, ih hrest]
      split
      · rw [List.map_cons, Prod.map_apply, hfirst, id]
      · rfl
  | insert line hline e ih =>
      rw [numberedFrom, List.filter_cons_of_neg (by simp [hp line hline]), ih h.of_insert]

end Insertion

/-! ## Comments and blank lines -/

/-- A line that the structural passes skip: a comment, or nothing that shows. -/
def Line.isFiller (line : List Char) : Bool := Line.isComment line || Text.isBlankText line

/-- A text without a character that shows is trimmed to nothing. -/
theorem Text.trim_eq_nil_of_isBlankText {s : List Char} (h : isBlankText s = true) :
    trim s = [] := by
  have hstart : trimStart s = [] := by
    rw [trimStart, List.dropWhile_eq_nil_iff]
    exact fun c hc => List.all_eq_true.mp h c hc
  rw [trim, hstart]
  rfl

/-- A comment is no code. -/
theorem Line.isCode_eq_false_of_isComment {line : List Char} (h : isComment line = true) :
    isCode line = false := by
  simp [isCode, h]

/-- A comment or a blank line is no code. -/
theorem Line.isCode_eq_false_of_isFiller {line : List Char} (h : isFiller line = true) :
    isCode line = false := by
  rcases Bool.or_eq_true_iff.mp h with hcomment | hblank
  · exact isCode_eq_false_of_isComment hcomment
  · simp [isCode, Text.trim_eq_nil_of_isBlankText hblank]

/-- Lines that are no code only change the numbers of the code lines of a script. -/
theorem Context.codeLines_eq_map_renumber {p : List Char → Bool}
    (hp : ∀ line, p line = true → Line.isCode line = false) (c : Context) (text : List Char)
    (e : Insertion p c.lines (Text.lines text)) :
    Context.codeLines { c with text } = c.codeLines.map (Prod.map e.renumber id) :=
  e.filter_isCode_numberedFrom hp e.carries_renumber

/-! ## Brackets across renumbered lines -/

namespace BracketProfile

/-- The profile with the line of the deepest nesting renumbered. -/
def renumber (ρ : Nat → Nat) (p : BracketProfile) : BracketProfile :=
  { p with maxDepthLine := ρ p.maxDepthLine }

/-- A step of the walk on a renumbered line is the step on the line, renumbered. -/
theorem addGlyph_renumber (ρ : Nat → Nat) (number : Nat) (state : BracketProfile × List Bracket)
    (g : Glyph) :
    addGlyph (ρ number) (Prod.map (renumber ρ) id state) g
      = Prod.map (renumber ρ) id (addGlyph number state g) := by
  obtain ⟨p, stack⟩ := state
  cases g using Glyph.mark_cases with
  | none hmark =>
      obtain ⟨hopens, hcloses⟩ := g.mark?_eq_none_iff.mp hmark
      simp only [addGlyph, Prod.map_apply, hopens, hcloses, id]
  | opening kind hmark =>
      -- the one step that may write the number of its line
      simp only [addGlyph, Prod.map_apply, (g.mark?_eq_opening_iff kind).mp hmark, renumber, id]
      by_cases hdeeper : p.maxDepth < p.depth + 1
      · simp only [hdeeper, if_true]
      · simp only [hdeeper, if_false]
  | closing kind hmark =>
      simp only [addGlyph, Prod.map_apply, g.opens_eq_none_of_mark? hmark,
        (g.mark?_eq_closing_iff kind).mp hmark, renumber, id]

/-- Adding a line and renumbering can be done in either order. -/
theorem addLine_renumber (ρ : Nat → Nat) (p : BracketProfile) (line : Nat × List Char) :
    (p.renumber ρ).addLine (Prod.map ρ id line) = (p.addLine line).renumber ρ := by
  have hwalk : (Line.glyphs line.2).foldl (addGlyph (ρ line.1)) (Prod.map (renumber ρ) id (p, []))
      = Prod.map (renumber ρ) id ((Line.glyphs line.2).foldl (addGlyph line.1) (p, [])) :=
    List.foldl_hom _ fun state g => addGlyph_renumber ρ line.1 state g
  rw [Prod.map_apply, id] at hwalk
  simp only [addLine, Prod.map_fst, Prod.map_snd, id, hwalk]
  rfl

/-- The profile of renumbered lines is the profile of the lines, renumbered. Before the first
bracket it has line zero, which has to stay. -/
theorem build_renumber {ρ : Nat → Nat} (hzero : ρ 0 = 0) (lines : List (Nat × List Char)) :
    build (lines.map (Prod.map ρ id)) = (build lines).renumber ρ := by
  have hinit : ({} : BracketProfile) = renumber ρ {} := by rw [renumber, hzero]
  rw [build, List.foldl_map, hinit, build]
  exact List.foldl_hom (renumber ρ) (fun p line => addLine_renumber ρ p line)

end BracketProfile

/-! ## Findings on renumbered lines -/

/-- The finding with its line renumbered. Brackets left open across the script are reported at its
start and have no line of their own. -/
def SyntaxFinding.renumber (ρ : Nat → Nat) (f : SyntaxFinding) : SyntaxFinding :=
  if f.code = .unbalancedBrackets then f else { f with line := ρ f.line }

namespace Syntax

open LineCheck

/-- No check of a line reports brackets left open across the script. -/
theorem code_ne_unbalancedBrackets_of_mem_flaws {c : Context} {line : List Char} {flaw : Flaw}
    (h : flaw ∈ flaws c line) : flaw.defect.code ≠ .unbalancedBrackets := by
  intro hcode
  have hasked : Code.bracketCodes.contains flaw.defect.code = true := by
    rw [hcode]
    decide
  have hbrackets : flaw ∈ brackets (Line.glyphs line) := by
    rw [← filter_flaws_bracketCodes c]
    exact List.mem_filter.mpr ⟨h, hasked⟩
  have hmem := code_of_mem_brackets hbrackets
  rw [hcode] at hmem
  exact absurd hmem (by decide)

/-- The findings of a line move with its number. -/
theorem lineFindings_renumber (ρ : Nat → Nat) (c : Context) (text : List Char)
    (line : Nat × List Char) :
    lineFindings { c with text } (Prod.map ρ id line)
      = (lineFindings c line).map (SyntaxFinding.renumber ρ) := by
  rw [lineFindings, lineFindings, List.map_map]
  refine List.map_congr_left fun flaw hflaw => ?_
  exact (if_neg (code_ne_unbalancedBrackets_of_mem_flaws hflaw)).symm

/-- The findings on what is left open move with the numbers of their lines. -/
theorem unbalanced_renumber (ρ : Nat → Nat) (profile : BracketProfile) :
    unbalanced (profile.renumber ρ) = (unbalanced profile).map (SyntaxFinding.renumber ρ) := by
  have hkept : ∀ f ∈ unbalanced profile, SyntaxFinding.renumber ρ f = id f :=
    fun f hf => if_pos (code_of_mem_unbalanced hf)
  rw [List.map_congr_left hkept, List.map_id]
  rfl

/-- The finding on the depth moves with the deepest line. -/
theorem nesting_renumber (ρ : Nat → Nat) (limit : Nat) (profile : BracketProfile) :
    nesting limit (profile.renumber ρ)
      = (nesting limit profile).map (SyntaxFinding.renumber ρ) := by
  by_cases hdeep : limit < profile.maxDepth
  · rw [nesting, nesting, if_pos hdeep]
    exact if_pos hdeep
  · rw [nesting, nesting, if_neg hdeep]
    exact if_neg hdeep

/-- The findings after lines that are no code have been put in. -/
theorem findings_renumber {p : List Char → Bool}
    (hp : ∀ line, p line = true → Line.isCode line = false) (c : Context) (text : List Char)
    (e : Insertion p c.lines (Text.lines text)) :
    findings { c with text } = (findings c).map (SyntaxFinding.renumber e.renumber) := by
  have hcode := c.codeLines_eq_map_renumber hp text e
  have hprofile : BracketProfile.build (c.codeLines.map (Prod.map e.renumber id))
      = (BracketProfile.build c.codeLines).renumber e.renumber :=
    BracketProfile.build_renumber rfl c.codeLines
  simp only [findings, scriptFindings, hcode, hprofile, List.map_append, List.flatMap_map,
    List.map_flatMap, lineFindings_renumber, unbalanced_renumber, nesting_renumber]

/-- Brackets left open across the script are reported at its start. -/
theorem position_of_mem_unbalanced {profile : BracketProfile} {f : SyntaxFinding}
    (h : f ∈ unbalanced profile) : f.line = 1 ∧ f.column = 1 := by
  obtain ⟨kind, -, hkind⟩ := List.mem_flatMap.mp h
  simp only [List.mem_ite_nil_right, List.mem_singleton] at hkind
  rw [hkind.2]
  exact ⟨rfl, rfl⟩

end Syntax

/-- The notes on deprecated functions do not see the numbers of lines at all. -/
theorem Deprecation.notes_eq_of_insertion {p : List Char → Bool}
    (hp : ∀ line, p line = true → Line.isCode line = false) (c : Context) (text : List Char)
    (e : Insertion p c.lines (Text.lines text)) :
    notes { c with text } = notes c := by
  have hcalls : scriptCalls { c with text } = scriptCalls c := by
    rw [scriptCalls, c.codeLines_eq_map_renumber hp text e, List.flatMap_map]
    rfl
  rw [notes, notes, hcalls]

/-- **Comments and blank lines are invisible to the checks.** Put in anywhere, they leave the syntax
findings in their order and alone in all their fields but the line, which is renumbered; brackets
left open across the script stay reported at line 1, column 1. The notes on deprecated functions
stay the same. The new numbers keep the order of the lines, and the line with the new number is the
line it was. -/
theorem filler_only_renumbers (c : Context) (text : List Char)
    (e : Insertion Line.isFiller c.lines (Text.lines text)) :
    Syntax.findings { c with text } = (Syntax.findings c).map (SyntaxFinding.renumber e.renumber)
      ∧ (∀ f ∈ Syntax.findings { c with text },
          f.code = .unbalancedBrackets → f.line = 1 ∧ f.column = 1)
      ∧ Deprecation.notes { c with text } = Deprecation.notes c
      ∧ StrictMono e.renumber
      ∧ ∀ number, Context.line { c with text } (e.renumber number) = c.line number := by
  have hfiller : ∀ line, Line.isFiller line = true → Line.isCode line = false :=
    fun _ => Line.isCode_eq_false_of_isFiller
  refine ⟨Syntax.findings_renumber hfiller c text e, ?_,
    Deprecation.notes_eq_of_insertion hfiller c text e, e.strictMono_renumber, ?_⟩
  · intro f hf hcode
    exact Syntax.position_of_mem_unbalanced (Syntax.mem_unbalanced_of_code hf hcode)
  · intro number
    cases number with
    | zero => rfl
    | succ i => exact congrArg (Option.getD · []) (e.getElem?_place i)

/-- A comment above a mismatch and a blank line above the deepest line: the mismatch moves to line
2, the nesting to line 4, and the bracket left open across the script stays at line 1. -/
theorem filler_only_renumbers_mismatch :
    let c : Context := { text := "[(]\n([(".toList, settings := { maxNestingDepth := 3 } }
    let text := "# why\n[(]\n\t\n([(".toList
    ∃ ρ : Nat → Nat, ρ 1 = 2 ∧ ρ 2 = 4
      ∧ Syntax.findings { c with text } = (Syntax.findings c).map (SyntaxFinding.renumber ρ)
      ∧ (Syntax.findings c).map (fun f => (f.line, f.column, f.code))
        = [(1, 3, .mismatchedBracket), (2, 1, .unclosedBracket), (2, 2, .unclosedBracket),
          (2, 3, .unclosedBracket), (1, 1, .unbalancedBrackets), (2, 1, .excessiveNesting)] := by
  intro c text
  let e : Insertion Line.isFiller c.lines (Text.lines text) :=
    .insert _ (by decide) (.keep _ (.insert _ (by decide) (.keep _ .done)))
  exact ⟨e.renumber, rfl, rfl, (filler_only_renumbers c text e).1, by decide⟩

end Softcode
