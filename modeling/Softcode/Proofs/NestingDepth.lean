import Mathlib.Data.List.Induction
import Mathlib.Order.Bounds.Basic
import Softcode.Proofs.BracketPairs
import Softcode.Proofs.Growth

/-!
# Nesting depth

Three walks have a depth. `Line.maxDepth` counts openers up and closers down on one line and never
goes below the surface; `BracketProfile.build` counts in the same way, but carries the depth from
line to line; the check of a line keeps a stack. A greater depth at the start of a line stays the
greater one (`maxDepthFrom_mono`), so the profile is at least as deep as each of its lines. Where
the brackets of a line nest, the count is the height of the stack and ends at the surface, so no
line hands anything on to the next one.

A line number comes into a profile only together with a new greatest depth
(`addLine_maxDepthLine`), which is why it is the first line that reached it.
-/

namespace Softcode

/-! ## Depth on one line -/

namespace Line

/-- A glyph keeps the order of depths. -/
theorem depthAfter_mono (g : Glyph) {d e : Nat} (h : d ≤ e) : depthAfter d g ≤ depthAfter e g := by
  rw [depthAfter, depthAfter]
  split_ifs <;> omega

/-- Starting deeper, a walk never comes to lie above the one that started higher up. -/
theorem maxDepthFrom_mono (gs : List Glyph) {d e : Nat} (h : d ≤ e) :
    maxDepthFrom d gs ≤ maxDepthFrom e gs := by
  induction gs generalizing d e with
  | nil => exact Nat.le_refl 0
  | cons g rest ih =>
      have hstep := depthAfter_mono g h
      exact max_le_max hstep (ih hstep)

/-- The depth after some glyphs. -/
def depthFrom (depth : Nat) (gs : List Glyph) : Nat := gs.foldl depthAfter depth

/-- The greatest depth is reached after some number of glyphs, and is not exceeded after any. -/
theorem isGreatest_depthFrom (depth : Nat) (gs : List Glyph) :
    IsGreatest (Set.range fun n => depthFrom depth (gs.take n))
      (max depth (maxDepthFrom depth gs)) := by
  induction gs generalizing depth with
  | nil =>
      refine ⟨⟨0, by simp [depthFrom, maxDepthFrom]⟩, ?_⟩
      rintro _ ⟨n, rfl⟩
      simp [depthFrom]
  | cons g rest ih =>
      obtain ⟨⟨n, hn⟩, hbound⟩ := ih (depthAfter depth g)
      rw [maxDepthFrom]
      constructor
      · rcases le_total (max (depthAfter depth g) (maxDepthFrom (depthAfter depth g) rest)) depth
          with hle | hle
        · exact ⟨0, by simp [depthFrom, max_eq_left hle]⟩
        · exact ⟨n + 1, by rw [max_eq_right hle, ← hn]; rfl⟩
      · rintro _ ⟨n, rfl⟩
        cases n with
        | zero => exact le_max_left _ _
        | succ n => exact (hbound ⟨n, rfl⟩).trans (le_max_right _ _)

end Line

namespace LineCheck

/-- As long as the brackets nest, the depth is the number of those that are open. -/
theorem depthFrom_of_pending {stack kinds : List Bracket} {gs : List Glyph}
    (h : pending stack (Line.marks gs) = some kinds) :
    Line.depthFrom stack.length gs = kinds.length := by
  induction gs generalizing stack with
  | nil =>
      obtain rfl : stack = kinds := Option.some.inj h
      rfl
  | cons g rest ih =>
      rw [Line.depthFrom, List.foldl_cons, ← Line.depthFrom]
      cases g using Glyph.mark_cases with
      | none hmark =>
          obtain ⟨hopens, hcloses⟩ := g.mark?_eq_none_iff.mp hmark
          rw [Line.marks_cons_of_none hmark] at h
          rw [← ih h, depthAfter, hopens, hcloses]
          rfl
      | opening kind hmark =>
          rw [Line.marks_cons_of_some hmark] at h
          rw [← ih h, depthAfter, (g.mark?_eq_opening_iff kind).mp hmark]
          rfl
      | closing kind hmark =>
          rw [Line.marks_cons_of_some hmark] at h
          cases stack with
          | nil => exact absurd h (by simp [pending])
          | cons top below =>
              rw [pending] at h
              split at h
              · rw [← ih h, depthAfter, g.opens_eq_none_of_mark? hmark,
                  (g.mark?_eq_closing_iff kind).mp hmark]
                rfl
              · exact absurd h (by simp)

section Clean

variable {gs : List Glyph} (hclean : brackets gs = [])

include hclean

/-- Whatever comes after some of the glyphs is checked with the stack that they leave. -/
theorem brackets_take_append (n : Nat) (rest : List Glyph) :
    brackets (gs.take n ++ rest)
      = bracketsFrom (1 + (gs.take n).length) (stackAt gs n) rest := by
  have happend := bracketsFrom_append_of_pending [] (pending_at hclean n).1 1 [] rest
  rw [List.append_nil (stackFrom 1 [] (gs.take n))] at happend
  exact happend

/-- Where the brackets of a line nest, its depth is the height of the stack of the check. -/
theorem length_stackAt (n : Nat) : (stackAt gs n).length = Line.depthFrom 0 (gs.take n) := by
  have hdepth := depthFrom_of_pending (pending_at hclean n).1
  rw [List.length_map] at hdepth
  exact hdepth.symm

/-- Where the brackets of a line nest, nothing is open at its end. -/
theorem depthFrom_of_clean : Line.depthFrom 0 gs = 0 :=
  depthFrom_of_pending ((bracketsFrom_eq_nil_iff 1 [] gs).mp hclean)

/-- The depth of a clean line is the greatest height of its stack. -/
theorem isGreatest_length_stackAt :
    IsGreatest (Set.range fun n => (stackAt gs n).length) (Line.maxDepth gs) := by
  have hdepth := Line.isGreatest_depthFrom 0 gs
  rw [Nat.zero_max] at hdepth
  rw [funext (length_stackAt hclean)]
  exact hdepth

end Clean

end LineCheck

/-! ## Depth across lines -/

namespace BracketProfile

/-- A glyph changes the depth of a profile as it does that of a line. -/
theorem addGlyph_depth (number : Nat) (state : BracketProfile × List Bracket) (g : Glyph) :
    (addGlyph number state g).1.depth = depthAfter state.1.depth g := by
  obtain ⟨p, stack⟩ := state
  rw [addGlyph, depthAfter]
  cases g.opens with
  | some kind =>
      simp only [Option.isSome_some, if_true]
      split <;> rfl
  | none =>
      cases g.closes with
      | some kind => rfl
      | none => rfl

/-- A glyph raises the greatest depth to the depth behind it. -/
theorem addGlyph_maxDepth (number : Nat) {state : BracketProfile × List Bracket}
    (h : state.1.depth ≤ state.1.maxDepth) (g : Glyph) :
    (addGlyph number state g).1.maxDepth = max state.1.maxDepth (depthAfter state.1.depth g) := by
  obtain ⟨p, stack⟩ := state
  rw [addGlyph, depthAfter]
  cases g.opens with
  | some kind =>
      simp only [Option.isSome_some, if_true]
      split
      · rename_i hdeeper
        exact (max_eq_right hdeeper.le).symm
      · rename_i hnot
        exact (max_eq_left (Nat.le_of_not_lt hnot)).symm
  | none =>
      cases g.closes with
      | some kind => exact (max_eq_left ((Nat.sub_le _ _).trans h)).symm
      | none => exact (max_eq_left h).symm

/-- Over glyphs the profile goes to the depth that these reach from where it is. -/
theorem foldl_addGlyph_depth (number : Nat) (gs : List Glyph)
    (state : BracketProfile × List Bracket) (h : state.1.depth ≤ state.1.maxDepth) :
    (gs.foldl (addGlyph number) state).1.depth = Line.depthFrom state.1.depth gs
      ∧ (gs.foldl (addGlyph number) state).1.maxDepth
        = max state.1.maxDepth (Line.maxDepthFrom state.1.depth gs) := by
  induction gs generalizing state with
  | nil => exact ⟨rfl, (Nat.max_zero _).symm⟩
  | cons g rest ih =>
      have hdepth := addGlyph_depth number state g
      have hmax := addGlyph_maxDepth number h g
      have hle : (addGlyph number state g).1.depth ≤ (addGlyph number state g).1.maxDepth := by
        rw [hdepth, hmax]
        exact le_max_right _ _
      obtain ⟨hend, hgreatest⟩ := ih _ hle
      rw [List.foldl_cons, hend, hgreatest, hdepth, hmax, Line.maxDepthFrom, max_assoc]
      exact ⟨rfl, rfl⟩

section AddLine

variable {p : BracketProfile} (h : p.depth ≤ p.maxDepth) (line : Nat × List Char)

include h

theorem addLine_depth : (p.addLine line).depth = Line.depthFrom p.depth (Line.glyphs line.2) :=
  (foldl_addGlyph_depth line.1 (Line.glyphs line.2) (p, []) h).1

theorem addLine_maxDepth :
    (p.addLine line).maxDepth = max p.maxDepth (Line.maxDepthFrom p.depth (Line.glyphs line.2)) :=
  (foldl_addGlyph_depth line.1 (Line.glyphs line.2) (p, []) h).2

/-- The depth where a line ends is not greater than the greatest. -/
theorem addLine_depth_le : (p.addLine line).depth ≤ (p.addLine line).maxDepth := by
  have hreached := (Line.isGreatest_depthFrom p.depth (Line.glyphs line.2)).2
    ⟨(Line.glyphs line.2).length, rfl⟩
  simp only [List.take_length] at hreached
  rw [addLine_depth h, addLine_maxDepth h]
  exact hreached.trans (max_le_max h (Nat.le_refl _))

/-- A line is never deeper on its own than in a profile. -/
theorem maxDepth_line_le_addLine :
    Line.maxDepth (Line.glyphs line.2) ≤ (p.addLine line).maxDepth := by
  rw [addLine_maxDepth h]
  exact (Line.maxDepthFrom_mono _ (Nat.zero_le _)).trans (le_max_right _ _)

end AddLine

/-- The depth of a profile stays below its greatest one. -/
theorem foldl_addLine_depth_le {p : BracketProfile} (h : p.depth ≤ p.maxDepth)
    (lines : List (Nat × List Char)) :
    (lines.foldl addLine p).depth ≤ (lines.foldl addLine p).maxDepth := by
  induction lines generalizing p with
  | nil => exact h
  | cons line rest ih => exact ih (addLine_depth_le h line)

/-- The profile of one more line. -/
theorem build_concat (lines : List (Nat × List Char)) (line : Nat × List Char) :
    build (lines ++ [line]) = (build lines).addLine line := by
  rw [build, List.foldl_append, ← build]
  rfl

/-- A profile is at least as deep as each of its lines. -/
theorem maxDepth_line_le_build {lines : List (Nat × List Char)} {line : Nat × List Char}
    (h : line ∈ lines) : Line.maxDepth (Line.glyphs line.2) ≤ (build lines).maxDepth := by
  obtain ⟨before, after, rfl⟩ := List.append_of_mem h
  have hbefore := foldl_addLine_depth_le (p := {}) (Nat.le_refl 0) before
  have hline := maxDepth_line_le_addLine hbefore line
  rw [← build, ← build_concat] at hline
  have hmore : before ++ [line] <+: before ++ line :: after := ⟨after, by simp⟩
  have hgrows := maxDepth_build_le_of_prefix hmore
  exact hline.trans hgrows

/-- Lines whose brackets nest hand nothing on, so a profile gets as deep as the deepest of them. -/
theorem foldl_addLine_maxDepth_of_clean {p : BracketProfile} (hsurface : p.depth = 0)
    {lines : List (Nat × List Char)}
    (hclean : ∀ line ∈ lines, LineCheck.brackets (Line.glyphs line.2) = []) :
    (lines.foldl addLine p).maxDepth
      = (lines.map fun line => Line.maxDepth (Line.glyphs line.2)).foldl max p.maxDepth := by
  induction lines generalizing p with
  | nil => rfl
  | cons line rest ih =>
      have hle : p.depth ≤ p.maxDepth := hsurface.trans_le (Nat.zero_le _)
      have hend : (p.addLine line).depth = 0 := by
        rw [addLine_depth hle, hsurface]
        exact LineCheck.depthFrom_of_clean (hclean line List.mem_cons_self)
      rw [List.foldl_cons, ih hend fun other hother => hclean other (List.mem_cons_of_mem _ hother),
        addLine_maxDepth hle, hsurface]
      rfl

/-! ## The line of the greatest depth -/

/-- A glyph brings in its line number exactly if it goes deeper than before. -/
theorem addGlyph_maxDepthLine (number : Nat) (state : BracketProfile × List Bracket) (g : Glyph) :
    (addGlyph number state g).1.maxDepthLine
      = if state.1.maxDepth < (addGlyph number state g).1.maxDepth then number
        else state.1.maxDepthLine := by
  obtain ⟨p, stack⟩ := state
  rw [addGlyph]
  cases g.opens with
  | some kind =>
      simp only
      split
      · rfl
      · exact (if_neg (Nat.lt_irrefl _)).symm
  | none =>
      cases g.closes with
      | some kind => exact (if_neg (Nat.lt_irrefl _)).symm
      | none => exact (if_neg (Nat.lt_irrefl _)).symm

/-- A line becomes the deepest one exactly if it raises the greatest depth. -/
theorem foldl_addGlyph_maxDepthLine (number : Nat) (gs : List Glyph)
    (state : BracketProfile × List Bracket) :
    (gs.foldl (addGlyph number) state).1.maxDepthLine
      = if state.1.maxDepth < (gs.foldl (addGlyph number) state).1.maxDepth then number
        else state.1.maxDepthLine := by
  induction gs generalizing state with
  | nil => exact (if_neg (Nat.lt_irrefl _)).symm
  | cons g rest ih =>
      have hstep := maxDepth_le_addGlyph number state g
      have hrest : (addGlyph number state g).1.maxDepth
          ≤ (rest.foldl (addGlyph number) (addGlyph number state g)).1.maxDepth :=
        le_foldl (fun s => s.1.maxDepth) (maxDepth_le_addGlyph number) rest
          (addGlyph number state g)
      rw [List.foldl_cons, ih]
      by_cases hlater : (addGlyph number state g).1.maxDepth
          < (rest.foldl (addGlyph number) (addGlyph number state g)).1.maxDepth
      · rw [if_pos hlater, if_pos (hstep.trans_lt hlater)]
      · -- the rest goes no deeper, so the glyph decides
        rw [if_neg hlater, addGlyph_maxDepthLine, Nat.le_antisymm hrest (Nat.le_of_not_lt hlater)]

/-- A line brings in its number exactly if it goes deeper than those before it. -/
theorem addLine_maxDepthLine (p : BracketProfile) (line : Nat × List Char) :
    (p.addLine line).maxDepthLine
      = if p.maxDepth < (p.addLine line).maxDepth then line.1 else p.maxDepthLine :=
  foldl_addGlyph_maxDepthLine line.1 (Line.glyphs line.2) (p, [])

/-- With positive line numbers, zero stands for a script in which nothing is nested. -/
theorem maxDepthLine_build_eq_zero_iff {lines : List (Nat × List Char)}
    (hpos : ∀ line ∈ lines, 0 < line.1) :
    (build lines).maxDepthLine = 0 ↔ (build lines).maxDepth = 0 := by
  induction lines using List.reverseRecOn with
  | nil => exact Iff.rfl
  | append_singleton lines line ih =>
      have hnumber := hpos line (by simp)
      have hlines := ih fun other hother => hpos other (List.mem_append_left _ hother)
      have hgrows := maxDepth_le_addLine (build lines) line
      rw [build_concat, addLine_maxDepthLine]
      split_ifs <;> omega

/-- The line of the greatest depth is the first after which a profile has it. -/
theorem exists_first_deepest {lines : List (Nat × List Char)} (h : (build lines).maxDepth ≠ 0) :
    ∃ before line after, lines = before ++ line :: after
      ∧ (build lines).maxDepthLine = line.1
      ∧ (build (before ++ [line])).maxDepth = (build lines).maxDepth
      ∧ ∀ earlier, earlier <+: before → (build earlier).maxDepth < (build lines).maxDepth := by
  induction lines using List.reverseRecOn with
  | nil => exact absurd rfl h
  | append_singleton lines last ih =>
      have hgrows := maxDepth_le_addLine (build lines) last
      have hline := addLine_maxDepthLine (build lines) last
      rw [← build_concat] at hgrows hline
      by_cases hdeeper : (build lines).maxDepth < (build (lines ++ [last])).maxDepth
      · rw [if_pos hdeeper] at hline
        refine ⟨lines, last, [], rfl, hline, rfl, ?_⟩
        intro earlier hearlier
        have hgrows := maxDepth_build_le_of_prefix hearlier
        exact hgrows.trans_lt hdeeper
      · rw [if_neg hdeeper] at hline
        have hsame : (build lines).maxDepth = (build (lines ++ [last])).maxDepth := by omega
        rw [hline, ← hsame]
        obtain ⟨before, line, after, hlines, hrest⟩ := ih (by rwa [hsame])
        exact ⟨before, line, after ++ [last], by rw [hlines]; simp, hrest⟩

/-- **The depths agree.** A profile is at least as deep as each of its lines. If the lines have no
bracket flaws it is exactly as deep as the deepest of them, and the depth of a line is the greatest
height that the stack of its check reaches, the stack with which the check goes on. With positive
line numbers, the line of the greatest depth is zero exactly if that depth is; otherwise it is the
number of the first line after which the profile of the lines so far has that depth. -/
theorem depths_agree {lines : List (Nat × List Char)} (hpos : ∀ line ∈ lines, 0 < line.1) :
    (∀ line ∈ lines, Line.maxDepth (Line.glyphs line.2) ≤ (build lines).maxDepth)
    ∧ ((∀ line ∈ lines, LineCheck.brackets (Line.glyphs line.2) = []) →
        (build lines).maxDepth
            = (lines.map fun line => Line.maxDepth (Line.glyphs line.2)).foldl max 0
        ∧ ∀ line ∈ lines,
            (∀ n rest, LineCheck.brackets ((Line.glyphs line.2).take n ++ rest)
              = LineCheck.bracketsFrom (1 + ((Line.glyphs line.2).take n).length)
                (LineCheck.stackAt (Line.glyphs line.2) n) rest)
            ∧ IsGreatest (Set.range fun n => (LineCheck.stackAt (Line.glyphs line.2) n).length)
              (Line.maxDepth (Line.glyphs line.2)))
    ∧ ((build lines).maxDepthLine = 0 ↔ (build lines).maxDepth = 0)
    ∧ ((build lines).maxDepth ≠ 0 →
        ∃ before line after, lines = before ++ line :: after
          ∧ (build lines).maxDepthLine = line.1
          ∧ (build (before ++ [line])).maxDepth = (build lines).maxDepth
          ∧ ∀ earlier, earlier <+: before →
              (build earlier).maxDepth < (build lines).maxDepth) := by
  refine ⟨fun line => maxDepth_line_le_build, ?_, maxDepthLine_build_eq_zero_iff hpos,
    exists_first_deepest⟩
  intro hclean
  refine ⟨foldl_addLine_maxDepth_of_clean rfl hclean, ?_⟩
  intro line hline
  exact ⟨LineCheck.brackets_take_append (hclean line hline),
    LineCheck.isGreatest_length_stackAt (hclean line hline)⟩

/-- Of two lines that are equally deep the first one counts. -/
theorem depths_agree_equal_lines :
    let lines := [(3, "[add(1,2)]".toList), (7, "{[f(x)]} \"(\"".toList), (9, "g(h(i()))".toList)]
    (∀ line ∈ lines, 0 < line.1)
      ∧ (∀ line ∈ lines, LineCheck.brackets (Line.glyphs line.2) = [])
      ∧ (build lines).maxDepth = 3 ∧ (build lines).maxDepthLine = 7
      ∧ (build lines).maxDepth
        = (lines.map fun line => Line.maxDepth (Line.glyphs line.2)).foldl max 0
      ∧ ∃ before line after, lines = before ++ line :: after
        ∧ (build lines).maxDepthLine = line.1
        ∧ (build (before ++ [line])).maxDepth = (build lines).maxDepth
        ∧ ∀ earlier, earlier <+: before → (build earlier).maxDepth < (build lines).maxDepth := by
  intro lines
  have hpos : ∀ line ∈ lines, 0 < line.1 := by decide
  have hclean : ∀ line ∈ lines, LineCheck.brackets (Line.glyphs line.2) = [] := by decide
  obtain ⟨-, hdeepest, -, hfirst⟩ := depths_agree hpos
  exact ⟨hpos, hclean, by decide, by decide, (hdeepest hclean).1, hfirst (by decide)⟩

end BracketProfile

end Softcode
