import Softcode.Proofs.AlikeScripts
import Softcode.Proofs.LineEdits

/-!
# What stands inside a literal

Literals are opaque to structure (`literals_opaque_to_structure`): no character inside one changes
the role of any other, nor anything read off the roles. Two lines are compared place by place
(`Line.DifferOnly`), which the walk turns into a relation along its own states (`Line.Veiled`).
Where the lines differ a literal is open on both sides of the character, so code is never next to
it.

The review keeps to this but for the mark of a comment, for which it searches the line as it is
written. `review_of_literals_iff` says exactly when that shows, and `review_differs_on_literals`
that it does.
-/

namespace Softcode

/-! ## Lines that differ inside literals -/

namespace Line

/-- The role of the character at an index. -/
def roleAt (line : List Char) (i : Nat) : Option Role := (glyphs line)[i]?.map Glyph.role

/-- A literal is open where the character at an index stands. -/
def inLiteral (line : List Char) (i : Nat) : Bool :=
  (unterminatedLiteral ((glyphs line).take i)).isSome

/-- Two lines are equally long and differ only at places, and by characters of the second, that are
allowed. -/
def DifferOnly (allowed : Nat → Char → Bool) (a b : List Char) : Prop :=
  a.length = b.length
    ∧ ∀ i, (hi : i < b.length) → a[i]? ≠ some b[i] → allowed i b[i] = true

instance (allowed : Nat → Char → Bool) (a b : List Char) : Decidable (DifferOnly allowed a b) :=
  inferInstanceAs (Decidable (_ ∧ _))

/-- A character may take the place of one inside a literal: of a literal character unless it is a
quote or a backslash, and of an escaped one whatever it is. -/
def fitsLiteral (line : List Char) (i : Nat) (c : Char) : Bool :=
  (roleAt line i == some .literal && c != '"' && c != '\\')
    || (roleAt line i == some .escaped && inLiteral line i)

end Line

namespace Quoting

variable {q : Quoting} {c : Char}

/-- A literal character comes inside a literal and leaves it open, and may be any other but a quote
or a backslash. -/
theorem step_of_literal (h : (q.step c).1 = .literal) :
    q.literal = true ∧ (q.step c).2.literal = true
      ∧ ∀ d, d ≠ '"' → d ≠ '\\' → q.step d = q.step c := by
  simp only [step] at h ⊢
  split_ifs at h ⊢
  simp_all

/-- An escaped character leaves literals as they are, and may be any. -/
theorem step_of_escaped (h : (q.step c).1 = .escaped) :
    (q.step c).2.literal = q.literal ∧ ∀ d, q.step d = q.step c := by
  simp only [step] at h ⊢
  split_ifs at h ⊢
  simp_all

/-- Only a quote opens a literal. -/
theorem eq_quote_of_step (hclosed : q.literal = false) (hopen : (q.step c).2.literal = true) :
    c = '"' := by
  simp only [step] at hopen
  split_ifs at hopen <;> simp_all

end Quoting

namespace Line

/-- Two texts that a walk from the same state gives the same roles: where they differ, a literal is
open before and after the step. -/
inductive Veiled : Quoting → List Char → List Char → Prop where
  | nil (q : Quoting) : Veiled q [] []
  | same {q : Quoting} (c : Char) {a b : List Char} (rest : Veiled (q.step c).2 a b) :
      Veiled q (c :: a) (c :: b)
  | other {q : Quoting} {c d : Char} {a b : List Char} (inside : q.literal = true)
      (step : q.step d = q.step c) (stays : (q.step c).2.literal = true)
      (rest : Veiled (q.step c).2 a b) : Veiled q (c :: a) (d :: b)

/-- The column of an open quote is kept exactly as long as the walk is inside a literal. -/
theorem isSome_opened_step {q : Quoting} {opened : Option Nat} (h : opened.isSome = q.literal)
    (column : Nat) (c : Char) :
    (match (q.step c).1 with
      | .quoteOpen => some column
      | .quoteClose => none
      | _ => opened).isSome = (q.step c).2.literal := by
  simp only [Quoting.step]
  split_ifs <;> simp_all

/-- Replacing characters inside literals, place by place, is what the walk cannot see. The walk's
literal state is told by the column of the open quote, which `inLiteral` asks for. -/
theorem veiled_of_differOnly (a b : List Char) (q : Quoting) (column : Nat) (opened : Option Nat)
    (hopened : opened.isSome = q.literal) (hlength : a.length = b.length)
    (h : ∀ i, (hi : i < b.length) → a[i]? ≠ some b[i] →
      ((glyphsFrom q a)[i]?.map Glyph.role = some .literal ∧ b[i] ≠ '"' ∧ b[i] ≠ '\\')
        ∨ ((glyphsFrom q a)[i]?.map Glyph.role = some .escaped
          ∧ (openLiteralFrom column opened ((glyphsFrom q a).take i)).isSome = true)) :
    Veiled q a b := by
  induction a generalizing b q column opened with
  | nil =>
      obtain rfl := List.length_eq_zero_iff.mp hlength.symm
      exact .nil q
  | cons c a ih =>
      obtain - | ⟨d, b⟩ := b
      · simp at hlength
      -- the rest is walked from the state after `c`, with the open quote that `c` leaves
      have hrest : Veiled (q.step c).2 a b := by
        refine ih b _ (column + 1) _ (isSome_opened_step hopened column c)
          (Nat.succ_injective hlength) fun i hi hne => ?_
        have hlater := h (i + 1) (Nat.succ_lt_succ hi) hne
        simp only [glyphsFrom, List.getElem?_cons_succ, List.getElem_cons_succ,
          List.take_succ_cons, openLiteralFrom] at hlater
        exact hlater
      by_cases hcd : c = d
      · subst hcd
        exact .same c hrest
      · have hhere := h 0 (Nat.zero_lt_succ _) (by simpa using hcd)
        simp only [glyphsFrom, List.getElem?_cons_zero, Option.map_some, Option.some.injEq,
          List.getElem_cons_zero, List.take_zero, openLiteralFrom] at hhere
        rcases hhere with ⟨hrole, hquote, hbackslash⟩ | ⟨hrole, hinside⟩
        · have hliteral := Quoting.step_of_literal hrole
          exact .other hliteral.1 (hliteral.2.2 d hquote hbackslash) hliteral.2.1 hrest
        · have hescaped := Quoting.step_of_escaped hrole
          exact .other (hopened ▸ hinside) (hescaped.2 d) (hescaped.1 ▸ hopened ▸ hinside) hrest

/-- Lines that differ only by what fits their literals are veiled alike. -/
theorem veiled_of_fitsLiteral {a b : List Char} (h : DifferOnly (fitsLiteral a) a b) :
    Veiled ⟨false, false⟩ a b := by
  refine veiled_of_differOnly a b _ 1 none rfl h.1 fun i hi hne => ?_
  simpa [fitsLiteral, roleAt, inLiteral, glyphs_eq_glyphsFrom, unterminatedLiteral, and_assoc]
    using h.2 i hi hne

namespace Veiled

variable {q : Quoting} {a b : List Char}

/-- The walks are alike: code comes outside literals only, where nothing differs. -/
theorem alike (h : Veiled q a b) : Alike id q.literal (glyphsFrom q a) (glyphsFrom q b) := by
  induction h with
  | nil q => exact .nil _
  | @same q c a b _ ih =>
      refine .shown ⟨rfl, rfl⟩ (fun hcode => ?_) ih
      obtain ⟨hstart, hkeeps⟩ := Quoting.step_of_code (beq_iff_eq.mp hcode)
      exact ⟨congrArg Quoting.literal hstart, congrArg Quoting.literal (hkeeps.trans hstart)⟩
  | @other q c d a b inside step stays _ ih =>
      have hcode : (⟨c, (q.step c).1⟩ : Glyph).isCode = false := by
        refine Bool.eq_false_iff.mpr fun hcode => ?_
        have hstart := (Quoting.step_of_code (beq_iff_eq.mp hcode)).1
        exact absurd (inside.symm.trans (congrArg Quoting.literal hstart)) (by decide)
      rw [inside, glyphsFrom, glyphsFrom, step]
      exact .hidden rfl hcode (stays ▸ ih)

/-- Veiled lines show the same. -/
theorem alike_glyphs (h : Veiled ⟨false, false⟩ a b) : Alike id false (glyphs a) (glyphs b) := by
  rw [glyphs_eq_glyphsFrom, glyphs_eq_glyphsFrom]
  exact h.alike

/-- Texts that differ share all up to a quote. -/
theorem eq_or_split (h : Veiled q a b) (hclosed : q.literal = false) :
    a = b ∨ ∃ before after after', a = before ++ '"' :: after ∧ b = before ++ '"' :: after' := by
  induction h with
  | nil q => exact .inl rfl
  | @same q c a b _ ih =>
      -- either this character opens the first literal, or the split comes later
      cases hopen : (q.step c).2.literal with
      | true =>
          obtain rfl := Quoting.eq_quote_of_step hclosed hopen
          exact .inr ⟨[], a, b, rfl, rfl⟩
      | false =>
          refine (ih hopen).imp (congrArg (c :: ·)) ?_
          rintro ⟨before, after, after', rfl, rfl⟩
          exact ⟨c :: before, after, after', rfl, rfl⟩
  | other inside => exact absurd (inside.symm.trans hclosed) (by decide)

end Veiled

end Line

/-! ## What the walk finds -/

theorem Call.viewed_id : Call.viewed id = id := by
  funext call
  simp [Call.viewed]

theorem Command.viewed_id : Command.viewed id = id := by
  funext command
  simp [Command.viewed]

theorem Substitution.viewed_id : Substitution.viewed id = id := by
  funext ⟨column, reference⟩
  cases reference <;> simp [Substitution.viewed, Reference.viewed]

/-- Literals are opaque to structure: lines that differ only inside literals have the same roles,
and everything that is read off the structure of a line is the same for both. -/
theorem literals_opaque_to_structure {a b : List Char}
    (h : Line.DifferOnly (Line.fitsLiteral a) a b) :
    (∀ i, Line.roleAt a i = Line.roleAt b i)
      ∧ Line.unterminatedLiteral (Line.glyphs a) = Line.unterminatedLiteral (Line.glyphs b)
      ∧ Line.maxDepth (Line.glyphs a) = Line.maxDepth (Line.glyphs b)
      ∧ (∀ i, Line.matchingParen (Line.glyphs a) i = Line.matchingParen (Line.glyphs b) i)
      ∧ Line.calls (Line.glyphs a) = Line.calls (Line.glyphs b)
      ∧ Line.commands (Line.glyphs a) = Line.commands (Line.glyphs b)
      ∧ Line.substitutions (Line.glyphs a) = Line.substitutions (Line.glyphs b)
      ∧ Practice.controlMarkers (Line.glyphs a) = Practice.controlMarkers (Line.glyphs b)
      ∧ LineCheck.brackets (Line.glyphs a) = LineCheck.brackets (Line.glyphs b) := by
  have halike : Alike id false (Line.glyphs a) (Line.glyphs b) :=
    (Line.veiled_of_fitsLiteral h).alike_glyphs
  have hbrackets := halike.sameBrackets Text.isView_id
  refine ⟨fun i => ?_, ?_, ?_, ?_, ?_, ?_, ?_, ?_, ?_⟩
  · rw [Line.roleAt, Line.roleAt, ← List.getElem?_map, ← List.getElem?_map, halike.map_role]
  · exact Line.openLiteralFrom_congr halike.map_role 1 none
  · exact Line.maxDepthFrom_congr hbrackets 0
  · exact Line.matchingParen_congr hbrackets
  · simpa only [Call.viewed_id, List.map_id] using halike.calls Text.isView_id
  · simpa only [Command.viewed_id, List.map_id] using halike.commands Text.isView_id
  · simpa only [Substitution.viewed_id, List.map_id] using halike.substitutions Text.isView_id
  · exact Practice.controlMarkers_of_alike Text.isView_id halike
  · exact LineCheck.bracketsFrom_congr hbrackets 1 []

/-- Brackets, a call, a command and a substitution written into a literal, and an escaped quote. -/
theorem literals_opaque_to_structure_masked :
    ∃ a b : List Char, a = "f(\"abcdefghij\\k\",%0)".toList
      ∧ b = "f(\"(]@g(x)%0a\\\"\",%0)".toList
      ∧ Line.DifferOnly (Line.fitsLiteral a) a b ∧ a ≠ b
      ∧ Line.calls (Line.glyphs b) = [⟨"f", 1, 1, false⟩]
      ∧ LineCheck.brackets (Line.glyphs b) = [] := by
  have h : Line.DifferOnly (Line.fitsLiteral "f(\"abcdefghij\\k\",%0)".toList)
      "f(\"abcdefghij\\k\",%0)".toList "f(\"(]@g(x)%0a\\\"\",%0)".toList := by decide
  obtain ⟨-, -, -, -, hcalls, -, -, -, hbrackets⟩ := literals_opaque_to_structure h
  exact ⟨_, _, rfl, rfl, h, by decide, hcalls.symm.trans rfl, hbrackets.symm.trans rfl⟩

/-! ## What the review finds -/

/-- A quote ends the indentation. -/
theorem Line.takeWhile_isIndent_append_quote (before after : List Char) :
    (before ++ '"' :: after).takeWhile Practice.isIndent = before.takeWhile Practice.isIndent := by
  rw [List.takeWhile_append, List.takeWhile_cons_of_neg (by decide), List.append_nil]
  split
  · rename_i hall
    exact (List.takeWhile_prefix _).eq_of_length hall |>.symm
  · rfl

/-- Lines that differ only inside literals read alike: up to the first quote, which settles what is
a comment and how a line is indented, they are one. -/
theorem Line.readAlike_of_fitsLiteral {a b : List Char} (h : DifferOnly (fitsLiteral a) a b) :
    ReadAlike id a b := by
  have hveiled := veiled_of_fitsLiteral h
  obtain rfl | ⟨before, after, after', rfl, rfl⟩ := hveiled.eq_or_split rfl
  · exact ⟨hveiled.alike_glyphs, rfl, rfl, fun _ => rfl⟩
  · have hquote : Text.isSolid '"' = true := by decide
    refine ⟨hveiled.alike_glyphs, ?_, isCode_append_solid hquote hquote _ _ _, fun unit => ?_⟩
    · rw [isComment_append_solid hquote, isComment_append_solid hquote]
    · simp only [Practice.indentation, takeWhile_isIndent_append_quote]
      split
      · rfl
      · split <;> rfl

/-- A character may take the place of a literal one on a line of a script: it is neither a quote nor
a backslash, and it does not end the line. -/
def Line.fitsLiteralText (line : List Char) (i : Nat) (c : Char) : Bool :=
  roleAt line i == some .literal && c != '"' && c != '\\' && c != '\n' && c != '\r'

theorem Line.DifferOnly.mono {allowed allowed' : Nat → Char → Bool} {a b : List Char}
    (h : DifferOnly allowed a b) (hallowed : ∀ i c, allowed i c = true → allowed' i c = true) :
    DifferOnly allowed' a b :=
  ⟨h.1, fun i hi hne => hallowed i _ (h.2 i hi hne)⟩

/-- What fits the text of a literal fits the literal. -/
theorem Line.fitsLiteral_of_fitsLiteralText {line : List Char} {i : Nat} {c : Char}
    (h : fitsLiteralText line i c = true) : fitsLiteral line i c = true := by
  simp only [fitsLiteralText, Bool.and_eq_true] at h
  simp [fitsLiteral, h]

namespace Practice

/-- No line above is as good as a blank one. -/
theorem hangsOnMark_getD (above : Option (List Char)) (line : List Char) :
    hangsOnMark (some (above.getD [])) line = hangsOnMark above line := by
  cases above <;> rfl

/-- The lines on which the marks of comments have to agree, by their places. -/
theorem sameMarks_iff {ls ls' : List (List Char)} (hlength : ls.length = ls'.length)
    (above : Option (List Char)) :
    SameMarks above ls ls' ↔ ∀ i,
      hangsOnMark (match i with | 0 => above | j + 1 => ls[j]?) (ls[i]?.getD []) = true →
        hasCommentMark (ls[i]?.getD []) = hasCommentMark (ls'[i]?.getD []) := by
  induction ls generalizing ls' above with
  | nil =>
      obtain rfl := List.length_eq_zero_iff.mp hlength.symm
      simp [SameMarks]
  | cons line rest ih =>
      obtain - | ⟨line', rest'⟩ := ls'
      · simp at hlength
      rw [SameMarks, ih (Nat.succ_injective hlength)]
      refine Iff.trans ?_ Nat.and_forall_add_one
      refine and_congr Iff.rfl (forall_congr' fun i => ?_)
      cases i <;> rfl

end Practice

/-- The review sees a literal in one respect only. Of two scripts whose lines differ only at literal
characters it finds the same, place by place and kind by kind, exactly if on each line that branches
and has no comment above it the mark of a comment stands on both sides or on neither. -/
theorem review_of_literals_iff (c : Context) (text : List Char)
    (h : List.Forall₂ (fun a b => Line.DifferOnly (Line.fitsLiteralText a) a b) c.lines
      (Text.lines text)) :
    (Practice.review c).map Improvement.outline
        = (Practice.review { c with text }).map Improvement.outline
      ↔ ∀ number,
        Practice.hangsOnMark (some (c.line (number - 1))) (c.line number) = true →
          Practice.hasCommentMark (c.line number)
            = Practice.hasCommentMark (Context.line { c with text } number) := by
  have hread : List.Forall₂ (Line.ReadAlike id) c.lines (Text.lines text) :=
    h.imp fun a b hab =>
      Line.readAlike_of_fitsLiteral (hab.mono fun _ _ => Line.fitsLiteral_of_fitsLiteralText)
  rw [Practice.review_outline_iff Text.isView_id hread, Practice.sameMarks_iff hread.length_eq]
  refine Iff.trans ?_ Nat.and_forall_add_one
  -- there is no line zero, and the line with number `i + 1` has `i` lines before it
  have hzero : Practice.hangsOnMark (some (c.line (0 - 1))) (c.line 0) ≠ true :=
    Bool.false_ne_true
  rw [and_iff_right fun hhangs => absurd hhangs hzero]
  refine forall_congr' fun i => ?_
  cases i with
  | zero => rfl
  | succ j => rw [Nat.add_sub_cancel, Context.line, Practice.hangsOnMark_getD]; rfl

/-- Half a mark inside a literal changes nothing, also on a line that branches. -/
theorem review_of_literals_iff_half_mark :
    ∃ (c : Context) (text : List Char), c.text = "think switch(%0,1,\"ab\",2)".toList
      ∧ text = "think switch(%0,1,\"@b\",2)".toList
      ∧ List.Forall₂ (fun a b => Line.DifferOnly (Line.fitsLiteralText a) a b) c.lines
        (Text.lines text)
      ∧ Practice.hangsOnMark (some (c.line 0)) (c.line 1) = true
      ∧ (Practice.review c).map Improvement.outline
        = (Practice.review { c with text }).map Improvement.outline := by
  have h : List.Forall₂ (fun a b => Line.DifferOnly (Line.fitsLiteralText a) a b)
      (Context.lines { text := "think switch(%0,1,\"ab\",2)".toList })
      (Text.lines "think switch(%0,1,\"@b\",2)".toList) := .cons (by decide) .nil
  refine ⟨{ text := _ }, _, rfl, rfl, h, by decide, (review_of_literals_iff _ _ h).mpr ?_⟩
  rintro (- | - | number) -
  · decide
  · decide
  · change Practice.hasCommentMark [] = Practice.hasCommentMark []
    rfl

/-- A mark of a comment inside a literal silences the advice to comment on the branch. -/
theorem review_differs_on_literals :
    ∃ (c : Context) (text : List Char), c.text = "think switch(%0,1,\"ab\",2)".toList
      ∧ text = "think switch(%0,1,\"@@\",2)".toList
      ∧ List.Forall₂ (fun a b => Line.DifferOnly (Line.fitsLiteralText a) a b) c.lines
        (Text.lines text)
      ∧ (Practice.review c).map Improvement.outline
        = [(1, 7, .bestPractice, "style", .info)]
      ∧ Practice.review { c with text } = [] := by
  exact ⟨{ text := _ }, _, rfl, rfl, .cons (by decide) .nil, by decide, by decide⟩

end Softcode
