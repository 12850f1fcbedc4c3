import Mathlib.Data.List.TakeWhile
import Softcode.Context

/-!
# Lines of joined texts

Two texts joined by a line feed have the pieces of the first and then those of the second. The seam
can only add one line to those of the two texts: the empty line after a first text that is empty or
ends in a line feed itself (`lines_join`, `terminated_eq`). That line is not code, so a property
holds of all code lines of the joined text exactly when it holds of those of both parts
(`forall_codeLine_join_iff`). Carriage returns before the seam are dropped from the line they end,
as they are at the end of a text.
-/

namespace Softcode.Text

/-- Splitting is the library's, so its laws are at hand. -/
theorem splitBy_eq_splitOnP (test : Char → Bool) (text : List Char) :
    splitBy test text = text.splitOnP test := by
  induction text with
  | nil => simp [splitBy]
  | cons c rest ih =>
      rw [splitBy, List.splitOnP_cons_eq_if_modifyHead, ih]
      cases hpieces : rest.splitOnP test with
      | nil => exact absurd hpieces (List.splitOnP_ne_nil test rest)
      | cons piece more => rfl

/-- No separator is left in a piece. -/
theorem test_of_mem_splitBy {test : Char → Bool} {text piece : List Char}
    (h : piece ∈ splitBy test text) {c : Char} (hc : c ∈ piece) : test c = false := by
  fun_induction splitBy test text generalizing piece with
  | case1 =>
      rw [List.mem_singleton.mp h] at hc
      exact absurd hc List.not_mem_nil
  | case2 d rest hseparator ih =>
      rcases List.mem_cons.mp h with rfl | hrest
      · exact absurd hc List.not_mem_nil
      · exact ih hrest hc
  | case3 d rest hseparator hnone =>
      rw [List.mem_singleton.mp h, List.mem_singleton] at hc
      rw [hc]
      exact Bool.eq_false_iff.mpr hseparator
  | case4 d rest hseparator first more hsome ih =>
      rcases List.mem_cons.mp h with rfl | hmore
      · rcases List.mem_cons.mp hc with rfl | hfirst
        · exact Bool.eq_false_iff.mpr hseparator
        · exact ih (hsome ▸ List.mem_cons_self) hfirst
      · exact ih (hsome ▸ List.mem_cons_of_mem _ hmore) hc

/-- There is always at least one piece. -/
theorem pieces_ne_nil (text : List Char) : pieces text ≠ [] := by
  rw [pieces, splitBy_eq_splitOnP]
  exact List.splitOnP_ne_nil _ text

/-- A line feed separates the pieces of the text before it from those of the text after it. -/
theorem pieces_join (a b : List Char) : pieces (a ++ '\n' :: b) = pieces a ++ pieces b := by
  simp only [pieces, splitBy_eq_splitOnP]
  exact List.splitOnP_append_cons a b (by decide)

/-- Only the very last piece can be forgotten. -/
theorem dropEmptyLast_append (front : List (List Char)) {back : List (List Char)} (h : back ≠ []) :
    dropEmptyLast (front ++ back) = front ++ dropEmptyLast back := by
  induction front with
  | nil => rfl
  | cons piece front ih =>
      cases hrest : front ++ back with
      | nil => exact absurd (List.append_eq_nil_iff.mp hrest).2 h
      | cons next more =>
          rw [List.cons_append, hrest, dropEmptyLast, ← hrest, ih, List.cons_append]
          simp

/-- What is forgotten is an empty piece at the end. -/
theorem dropEmptyLast_eq_or (ps : List (List Char)) :
    ps = dropEmptyLast ps ∨ ps = dropEmptyLast ps ++ [[]] := by
  fun_induction dropEmptyLast ps with
  | case1 => exact Or.inl rfl
  | case2 piece hempty => exact Or.inr (by simpa using hempty)
  | case3 piece hempty => exact Or.inl rfl
  | case4 piece more _ ih =>
      rcases ih with ih | ih
      · exact Or.inl (congrArg (piece :: ·) ih)
      · exact Or.inr (congrArg (piece :: ·) ih)

/-- The lines of a text that a line feed follows. -/
def terminated (text : List Char) : List (List Char) := (pieces text).map dropReturns

theorem pieces_of_not_mem {text : List Char} (h : '\n' ∉ text) : pieces text = [text] := by
  rw [pieces, splitBy_eq_splitOnP]
  refine List.splitOnP_eq_singleton fun c hc => beq_eq_false_iff_ne.mpr ?_
  rintro rfl
  exact h hc

/-- A text without line feeds has one piece, so it is one line once a line feed ends it. -/
theorem terminated_of_not_mem {line : List Char} (h : '\n' ∉ line) :
    terminated line = [dropReturns line] := by
  rw [terminated, pieces_of_not_mem h, List.map_singleton]

/-- Without line feeds a text is one line, unless it is empty. -/
theorem lines_of_not_mem {text : List Char} (hfeed : '\n' ∉ text) (hne : text ≠ []) :
    lines text = [dropReturns text] := by
  rw [lines, pieces_of_not_mem hfeed, dropEmptyLast, if_neg (by simpa using hne),
    List.map_singleton]

/-- A line loses carriage returns at its end and nothing else. -/
theorem dropReturns_append (s : List Char) :
    ∃ returns, s = dropReturns s ++ returns ∧ ∀ c ∈ returns, c = '\r' := by
  refine ⟨(s.reverse.takeWhile (· == '\r')).reverse, ?_, fun c hc => ?_⟩
  · rw [dropReturns, ← List.reverse_append, List.takeWhile_append_dropWhile, List.reverse_reverse]
  · simpa using List.mem_takeWhile_imp (List.mem_reverse.mp hc)

/-- Dropping carriage returns stops at any other character. -/
theorem dropReturns_append_of_ne {c : Char} (hc : c ≠ '\r') (before after : List Char) :
    dropReturns (before ++ c :: after) = before ++ c :: dropReturns after := by
  rw [dropReturns, dropReturns, List.reverse_append, List.reverse_cons, List.append_assoc,
    List.dropWhile_append, List.singleton_append, List.dropWhile_cons_of_neg (by simpa using hc)]
  split
  · rename_i hall
    simp [List.isEmpty_iff.mp hall]
  · simp

/-- The joined text has the lines of the first part, ended by the seam, and those of the second. -/
theorem lines_join (a b : List Char) : lines (a ++ '\n' :: b) = terminated a ++ lines b := by
  rw [lines, pieces_join, dropEmptyLast_append _ (pieces_ne_nil b), List.map_append]
  rfl

/-- A line feed at the end of a text ends its last line or adds an empty one. -/
theorem terminated_eq (text : List Char) :
    terminated text = lines text ∨ terminated text = lines text ++ [[]] := by
  rcases dropEmptyLast_eq_or (pieces text) with h | h
  · left
    rw [lines, ← h, terminated]
  · right
    rw [terminated, h, List.map_append, lines]
    rfl

/-- A property holds of the code lines of a joined text exactly when it does on both sides. -/
theorem forall_codeLine_join_iff (p : List Char → Prop) (a b : List Char) :
    (∀ line ∈ lines (a ++ '\n' :: b), Line.isCode line = true → p line)
      ↔ (∀ line ∈ lines a, Line.isCode line = true → p line)
        ∧ (∀ line ∈ lines b, Line.isCode line = true → p line) := by
  rw [lines_join, List.forall_mem_append]
  refine and_congr_left fun _ => ?_
  rcases terminated_eq a with h | h
  · rw [h]
  · -- the line that the seam adds is empty, so it is not code
    have hempty : ∀ line ∈ [([] : List Char)], Line.isCode line = true → p line := by
      intro line hline hcode
      rw [List.mem_singleton.mp hline] at hcode
      exact absurd hcode (by decide)
    rw [h, List.forall_mem_append]
    exact and_iff_left hempty

end Softcode.Text

namespace Softcode

/-- Numbering keeps the lines. -/
theorem map_snd_numberedFrom (first : Nat) (ls : List (List Char)) :
    (numberedFrom first ls).map Prod.snd = ls := by
  induction ls generalizing first with
  | nil => rfl
  | cons line rest ih => rw [numberedFrom, List.map_cons, ih]

/-- The code lines without their numbers. -/
theorem Context.map_snd_codeLines (c : Context) :
    c.codeLines.map Prod.snd = c.lines.filter Line.isCode := by
  calc c.codeLines.map Prod.snd
      = ((numberedFrom 1 c.lines).map Prod.snd).filter Line.isCode := by
        rw [codeLines, List.filter_map]
        rfl
    _ = c.lines.filter Line.isCode := by rw [map_snd_numberedFrom]

/-- A property of the text of every code line. -/
theorem Context.forall_codeLines_iff (c : Context) (p : List Char → Prop) :
    (∀ line ∈ c.codeLines, p line.2) ↔ ∀ line ∈ c.lines, Line.isCode line = true → p line := by
  rw [← List.forall_mem_map, map_snd_codeLines, List.forall_mem_filter]

/-- A property of the text of some code line. -/
theorem Context.exists_codeLines_iff (c : Context) (p : List Char → Prop) :
    (∃ line ∈ c.codeLines, p line.2) ↔ ∃ line ∈ c.lines, Line.isCode line = true ∧ p line := by
  have hmem : ∀ line,
      line ∈ c.codeLines.map Prod.snd ↔ line ∈ c.lines ∧ Line.isCode line = true := by
    intro line
    rw [map_snd_codeLines, List.mem_filter]
  constructor
  · rintro ⟨line, hline, hp⟩
    obtain ⟨hlines, hcode⟩ := (hmem line.2).mp (List.mem_map_of_mem hline)
    exact ⟨line.2, hlines, hcode, hp⟩
  · rintro ⟨line, hline, hcode, hp⟩
    obtain ⟨numbered, hnumbered, rfl⟩ := List.mem_map.mp ((hmem line).mpr ⟨hline, hcode⟩)
    exact ⟨numbered, hnumbered, hp⟩

end Softcode
