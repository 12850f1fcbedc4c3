import Softcode.Analysis
import Softcode.Proofs.AlikeLines

/-!
# Scripts that read alike

The passes over a script take its lines one by one. On two lines that read alike (`Line.ReadAlike`)
each of them finds the same, but for the code that a piece of advice quotes. The exception is the
advice to comment on a branch: a mark of a comment anywhere on the line silences it, also inside a
literal, so the advice agrees exactly if the marks do where they matter (`review_outline_iff`).
-/

namespace Softcode

open Text

variable {view : Char → Char}

/-! ## Names that look the same -/

/-- A view forgets no more than the case of letters, which names do not have. -/
theorem Text.lower_viewed (hview : IsView view) (s : String) :
    lower (viewed view s).toList = lower s.toList := by
  have hchar : ∀ c, (view c).toLower = c.toLower := hview
  simp [viewed, lower, hchar]

/-- A table finds a name in every view. -/
theorem Practice.isOneOf_viewed (hview : IsView view) (name : String) (table : List String) :
    isOneOf (viewed view name) table = isOneOf name table := by
  simp only [isOneOf, sameName, lower_viewed hview]

/-- So does a dialect. -/
theorem Dialect.function?_viewed (hview : IsView view) (d : Dialect) (name : String) :
    d.function? (viewed view name) = d.function? name := by
  simp only [function?, sameName, lower_viewed hview]

section Observations

variable {α β : Type} {v : α → α} {l l' : List α}

/-- Lists that look the same give the same answer to a question that does not see more. -/
theorem eq_of_map_eq (h : l.map v = l'.map v) (ask : List α → β)
    (hask : ∀ m, ask (m.map v) = ask m) : ask l = ask l' := by
  rw [← hask l, h, hask l']

/-- They have the same places that pass a test, if neither the test nor the place sees more. -/
theorem map_filter_of_map_eq (h : l.map v = l'.map v) (p : α → Bool) (hp : ∀ a, p (v a) = p a)
    (f : α → β) (hf : ∀ a, f (v a) = f a) : (l.filter p).map f = (l'.filter p).map f := by
  refine eq_of_map_eq h (fun m => (m.filter p).map f) fun m => ?_
  simp [List.filter_map, Function.comp_def, hp, hf]

/-- What is found does not depend on what a view hides. -/
theorem map_find?_of_map_eq (h : l.map v = l'.map v) (p : α → Bool) (hp : ∀ a, p (v a) = p a)
    (f : α → β) (hf : ∀ a, f (v a) = f a) : (l.find? p).map f = (l'.find? p).map f := by
  rw [← List.head?_filter, ← List.head?_filter, ← List.head?_map, ← List.head?_map,
    map_filter_of_map_eq h p hp f hf]

/-- Nor does how many there are. -/
theorem countP_of_map_eq (h : l.map v = l'.map v) (p : α → Bool) (hp : ∀ a, p (v a) = p a) :
    l.countP p = l'.countP p := by
  refine eq_of_map_eq h (List.countP p) fun m => ?_
  simp [List.countP_map, Function.comp_def, hp]

/-- Nor does whether there is one. -/
theorem any_of_map_eq (h : l.map v = l'.map v) (p : α → Bool) (hp : ∀ a, p (v a) = p a) :
    l.any p = l'.any p := by
  refine eq_of_map_eq h (List.any · p) fun m => ?_
  simp [Function.comp_def, hp]

/-- Nor does what is made of those that are kept. -/
theorem filterMap_of_map_eq (h : l.map v = l'.map v) (f : α → Option β)
    (hf : ∀ a, f (v a) = f a) : l.filterMap f = l'.filterMap f := by
  refine eq_of_map_eq h (List.filterMap f) fun m => ?_
  simp [hf]

/-- Nor does what is made of each. -/
theorem flatMap_of_map_eq (h : l.map v = l'.map v) (f : α → List β)
    (hf : ∀ a, f (v a) = f a) : l.flatMap f = l'.flatMap f := by
  refine eq_of_map_eq h (List.flatMap f) fun m => ?_
  simp [List.flatMap_map, hf]

end Observations

/-! ## Advice on lines that read alike -/

/-- The tip without the code it quotes. -/
def Tip.unquoted (tip : Tip) : Tip := { tip with before := [], after := [] }

namespace Practice

variable {gs hs : List Glyph}

/-- Lines that show the same have the same control markers. -/
theorem controlMarkers_of_alike (hview : IsView view) (h : Alike view false gs hs) :
    controlMarkers gs = controlMarkers hs := by
  have hcalls : (Line.calls gs).countP isControlCall = (Line.calls hs).countP isControlCall := by
    refine countP_of_map_eq (h.calls hview) _ fun call => ?_
    simp only [isControlCall, Call.viewed, isOneOf_viewed hview]
  have hcommands : (Line.commands gs).countP isControlCommand
      = (Line.commands hs).countP isControlCommand := by
    refine countP_of_map_eq (h.commands hview) _ fun command => ?_
    simp only [isControlCommand, Command.viewed, isOneOf_viewed hview, sameName,
      lower_viewed hview]
  rw [controlMarkers, controlMarkers, hcalls, hcommands]

/-- They use a function or command first at the same column. -/
theorem firstColumn?_of_alike (hview : IsView view) (h : Alike view false gs hs)
    (functions commands : List String) :
    firstColumn? functions commands gs = firstColumn? functions commands hs := by
  have hcalls := map_find?_of_map_eq (h.calls hview) (fun call => isOneOf call.name functions)
    (fun call => isOneOf_viewed hview call.name functions) Call.column fun _ => rfl
  have hcommands := map_find?_of_map_eq (h.commands hview)
    (fun command => isOneOf command.name commands)
    (fun command => isOneOf_viewed hview command.name commands) Command.column fun _ => rfl
  rw [firstColumn?, firstColumn?, hcalls, hcommands]

/-- They have the same iterations. -/
theorem iterations_of_alike (hview : IsView view) (h : Alike view false gs hs) :
    iterations gs = iterations hs := by
  simp only [iterations, h.length_eq, Line.matchingParen_congr (h.sameBrackets hview)]
  congr 1
  · exact map_filter_of_map_eq (h.calls hview) _
      (fun call => isOneOf_viewed hview call.name _) _ fun _ => rfl
  · refine map_filter_of_map_eq (h.commands hview) _ (fun command => ?_) _ fun _ => rfl
    simp only [Command.viewed, sameName, lower_viewed hview]

/-- What is said about functions called more than once hangs on the columns of the calls alone. -/
theorem repeatedCalls_unquoted (line : List Char) :
    (repeatedCalls line).map Tip.unquoted
      = expensiveFunctions.flatMap fun marker =>
        match ((Line.calls (Line.glyphs line)).filter
            fun call => sameName call.name marker).map Call.column with
        | _ :: second :: more => [⟨second, .repeatedCall marker (more.length + 2), [], []⟩]
        | _ => [] := by
  rw [repeatedCalls, List.map_flatMap]
  congr 1
  funext marker
  generalize (Line.calls (Line.glyphs line)).filter (fun call => sameName call.name marker) = found
  match found with
  | [] => rfl
  | [_] => rfl
  | first :: second :: more =>
      simp only [List.map_cons, List.map_nil, Tip.unquoted, List.length_cons, List.length_map]

variable {a b : List Char}

/-- They get the same tips on performance, quotations aside. -/
theorem performance_of_alike (hview : IsView view)
    (h : Alike view false (Line.glyphs a) (Line.glyphs b)) :
    (performance a).map Tip.unquoted = (performance b).map Tip.unquoted := by
  have hrepeated : (repeatedCalls a).map Tip.unquoted = (repeatedCalls b).map Tip.unquoted := by
    have hcolumns : ∀ marker : String,
        ((Line.calls (Line.glyphs a)).filter fun call => sameName call.name marker).map Call.column
          = ((Line.calls (Line.glyphs b)).filter
              fun call => sameName call.name marker).map Call.column := by
      intro marker
      refine map_filter_of_map_eq (h.calls hview) _ (fun call => ?_) _ fun _ => rfl
      simp only [Call.viewed, sameName, lower_viewed hview]
    simp only [repeatedCalls_unquoted, hcolumns]
  have hnested : (nestedIteration a).toList.map Tip.unquoted
      = (nestedIteration b).toList.map Tip.unquoted := by
    simp only [nestedIteration, iterations_of_alike hview h, ← Option.toList_map, Option.map_map]
    rfl
  rw [performance, performance, List.map_append, List.map_append, hrepeated, hnested]

@[simp] theorem bindsNumeral_toLower (c : Char) : bindsNumeral c.toLower = bindsNumeral c := by
  simp [bindsNumeral, toLower_beq]

/-- Numerals are the same. -/
theorem numeralsFrom_of_alike (hview : IsView view) {inside : Bool} (h : Alike view inside gs hs)
    (column : Nat) (before before' : Option Char)
    (hbefore : inside = false → before.map view = before'.map view) :
    numeralsFrom column before gs = numeralsFrom column before' hs := by
  induction h generalizing column before before' with
  | nil => rfl
  | @shown inside next g h gs hs head code rest ih =>
      have hmore := ih (column + 1) (some g.char) (some h.char) fun _ => congrArg some head.char
      have hdigits := (Alike.shown head code rest).digits hview
      have hbinds : g.isCode = true → before.any bindsNumeral = before'.any bindsNumeral :=
        fun hcode => hview.any_eq bindsNumeral_toLower (hbefore (code hcode).1)
      simp only [numeralsFrom, hmore, hdigits, ← head.isCodeDigit hview]
      cases hdigit : g.isCodeDigit with
      | false => rfl
      | true => rw [hbinds (Bool.and_eq_true_iff.mp hdigit).1]
  | @hidden g h gs hs role code rest ih =>
      simp only [numeralsFrom, Glyph.isCodeDigit, code, Alike.isCode_of_hidden role code,
        Bool.false_and]
      -- what comes next is inside the literal still, where the character before is not asked for
      exact ih (column + 1) _ _ (by simp)

/-- Objects referred to by number are the same. -/
theorem objectNumbersFrom_of_alike (hview : IsView view) {inside : Bool}
    (h : Alike view inside gs hs) (column : Nat) (before before' : Option Char)
    (hbefore : inside = false → before.map view = before'.map view) :
    objectNumbersFrom column before gs = objectNumbersFrom column before' hs := by
  induction h generalizing column before before' with
  | nil => rfl
  | @shown inside next g h gs hs head code rest ih =>
      have hmore := ih (column + 1) (some g.char) (some h.char) fun _ => congrArg some head.char
      have hpercent : g.isCode = true → (before != some '%') = (before' != some '%') := by
        intro hcode
        have hany := hview.any_eq (f := (· == '%')) (toLower_beq (by decide))
          (hbefore (code hcode).1)
        cases before <;> cases before' <;> simp_all [bne]
      simp only [objectNumbersFrom, hmore, rest.digits hview,
        ← head.isCodeChar hview (k := '#') (by decide)]
      cases hhash : g.isCodeChar '#' with
      | false => rfl
      | true => rw [hpercent (Bool.and_eq_true_iff.mp hhash).1]
  | @hidden g h gs hs role code rest ih =>
      simp only [objectNumbersFrom, Glyph.isCodeChar_eq_false code,
        Glyph.isCodeChar_eq_false (Alike.isCode_of_hidden role code), Bool.false_and]
      exact ih (column + 1) _ _ (by simp)

/-- They get the same tips on maintainability, quotations aside. -/
theorem maintainability_of_alike (hview : IsView view)
    (h : Alike view false (Line.glyphs a) (Line.glyphs b)) :
    (maintainability a).map Tip.unquoted = (maintainability b).map Tip.unquoted := by
  have hnumbers : magicNumbers a = magicNumbers b := by
    rw [magicNumbers, magicNumbers, numeralsFrom_of_alike hview h 1 none none fun _ => rfl]
  have hreferences : hardcodedReferences a = hardcodedReferences b := by
    rw [hardcodedReferences, hardcodedReferences,
      objectNumbersFrom_of_alike hview h 1 none none fun _ => rfl]
  have hparameters : parameters (Line.glyphs a) = parameters (Line.glyphs b) := by
    rw [parameters, parameters, filterMap_of_map_eq (h.substitutions hview)]
    rintro ⟨column, reference⟩
    cases reference <;> rfl
  have hmany : (manyParameters a).toList.map Tip.unquoted
      = (manyParameters b).toList.map Tip.unquoted := by
    simp only [manyParameters, hparameters]
    split <;> rfl
  simp only [maintainability, List.map_append, hnumbers, hreferences, hmany]

/-- They get the same tips on readability, quotations aside. -/
theorem readability_of_alike (hview : IsView view)
    (h : Alike view false (Line.glyphs a) (Line.glyphs b)) (limit : Nat) :
    (readability limit a).map Tip.unquoted = (readability limit b).map Tip.unquoted := by
  have hcomplexity : lineComplexity (Line.glyphs a) = lineComplexity (Line.glyphs b) := by
    rw [lineComplexity, lineComplexity, controlMarkers_of_alike hview h, Line.maxDepth,
      Line.maxDepth, Line.maxDepthFrom_congr (h.sameBrackets hview)]
  have hregisters : shortRegisters (Line.glyphs a) = shortRegisters (Line.glyphs b) := by
    rw [shortRegisters, shortRegisters, filterMap_of_map_eq (h.substitutions hview)]
    rintro ⟨column, reference⟩
    cases reference <;> rfl
  have hcomplex : (complexExpression limit a).toList.map Tip.unquoted
      = (complexExpression limit b).toList.map Tip.unquoted := by
    simp only [complexExpression, hcomplexity]
    split <;> rfl
  have hnaming : (unclearNaming a).toList.map Tip.unquoted
      = (unclearNaming b).toList.map Tip.unquoted := by
    simp only [unclearNaming, hregisters]
    split <;> rfl
  rw [readability, readability, List.map_append, List.map_append, hcomplex, hnaming]

/-- They get the same tip on hygiene, quotations aside. -/
theorem hygiene_of_alike (hview : IsView view)
    (h : Alike view false (Line.glyphs a) (Line.glyphs b)) :
    (hygiene a).toList.map Tip.unquoted = (hygiene b).toList.map Tip.unquoted := by
  have hpositional : usesPositional (Line.glyphs a) = usesPositional (Line.glyphs b) := by
    refine any_of_map_eq (h.substitutions hview) _ ?_
    rintro ⟨column, reference⟩
    cases reference <;> rfl
  have hsanitized : isSanitized (Line.glyphs a) = isSanitized (Line.glyphs b) :=
    any_of_map_eq (h.calls hview) _ fun call => isOneOf_viewed hview call.name _
  simp only [hygiene, firstColumn?_of_alike hview h, hpositional, hsanitized]
  split
  · rfl
  · split <;> rfl

end Practice

/-! ## Scripts line by line -/

/-- Two lines that no pass can tell apart but by the code it quotes, or by a mark of a comment on
the line itself. -/
structure Line.ReadAlike (view : Char → Char) (a b : List Char) : Prop where
  glyphs : Alike view false (Line.glyphs a) (Line.glyphs b)
  isComment : Line.isComment a = Line.isComment b
  isCode : Line.isCode a = Line.isCode b
  indentation : ∀ unit,
    (Practice.indentation unit a).map Tip.unquoted = (Practice.indentation unit b).map Tip.unquoted

/-- Numbered lines that read alike, at the same numbers. -/
def NumberedAlike (view : Char → Char) (lines lines' : List (Nat × List Char)) : Prop :=
  List.Forall₂ (fun x y => x.1 = y.1 ∧ Line.ReadAlike view x.2 y.2) lines lines'

namespace NumberedAlike

variable {lines lines' : List (Nat × List Char)}

/-- Folds over lines that read alike agree when each step does. -/
theorem foldl_eq {β : Type} (h : NumberedAlike view lines lines') {f : β → Nat × List Char → β}
    (hf : ∀ s n a b, Line.ReadAlike view a b → f s (n, a) = f s (n, b)) (s : β) :
    lines.foldl f s = lines'.foldl f s := by
  induction h generalizing s with
  | nil => rfl
  | @cons x y _ _ hline _ ih =>
      obtain ⟨n, a⟩ := x
      obtain ⟨_, b⟩ := y
      obtain ⟨rfl, hread⟩ := hline
      rw [List.foldl_cons, List.foldl_cons, hf s n a b hread, ih]

/-- Passes over lines that read alike agree when each line does. -/
theorem flatMap_eq {β : Type} (h : NumberedAlike view lines lines') {f : Nat × List Char → List β}
    (hf : ∀ n a b, Line.ReadAlike view a b → f (n, a) = f (n, b)) :
    lines.flatMap f = lines'.flatMap f := by
  induction h with
  | nil => rfl
  | @cons x y _ _ hline _ ih =>
      obtain ⟨n, a⟩ := x
      obtain ⟨_, b⟩ := y
      obtain ⟨rfl, hread⟩ := hline
      rw [List.flatMap_cons, List.flatMap_cons, hf n a b hread, ih]

end NumberedAlike

/-- The code lines of lists of lines that read alike. -/
theorem numberedAlike_codeLines {ls ls' : List (List Char)}
    (h : List.Forall₂ (Line.ReadAlike view) ls ls') (first : Nat) :
    NumberedAlike view ((numberedFrom first ls).filter fun line => Line.isCode line.2)
      ((numberedFrom first ls').filter fun line => Line.isCode line.2) := by
  induction h generalizing first with
  | nil => exact .nil
  | @cons a b _ _ hline _ ih =>
      simp only [numberedFrom, List.filter_cons, ← hline.isCode]
      split
      · exact .cons ⟨rfl, hline⟩ (ih (first + 1))
      · exact ih (first + 1)

/-- Where an improvement stands and what kind it is. -/
def Improvement.outline (f : Improvement) : Nat × Nat × Aspect × String × Level :=
  (f.line, f.column, f.aspect, f.category, f.level)

/-- The improvement without the code it quotes. -/
def Improvement.unquoted (f : Improvement) : Improvement := { f with before := "", after := "" }

/-- Tips that agree give improvements that agree, quotations aside. -/
theorem map_unquoted_improvement {tips tips' : List Tip}
    (h : tips.map Tip.unquoted = tips'.map Tip.unquoted) (line : Nat) :
    (tips.map (Tip.improvement line)).map Improvement.unquoted
      = (tips'.map (Tip.improvement line)).map Improvement.unquoted := by
  refine eq_of_map_eq h (fun ts => (ts.map (Tip.improvement line)).map Improvement.unquoted) ?_
  intro ts
  simp only [List.map_map]
  rfl

namespace Practice

variable {c : Context} {text : List Char}

/-- A pass over the code lines gives the same advice on lines that read alike. -/
theorem pass_of_readAlike (h : List.Forall₂ (Line.ReadAlike view) c.lines (Text.lines text))
    {tips : List Char → List Tip}
    (htips : ∀ a b, Line.ReadAlike view a b →
      (tips a).map Tip.unquoted = (tips b).map Tip.unquoted) :
    (pass c tips).map Improvement.unquoted
      = (pass { c with text } tips).map Improvement.unquoted := by
  rw [pass, pass, List.map_flatMap, List.map_flatMap]
  exact (numberedAlike_codeLines h 1).flatMap_eq fun n a b hread =>
    map_unquoted_improvement (htips a b hread) n

/-- Whether a branch on the line gets advice hangs on the mark of a comment on the line itself: it
has a branch, and no comment above it. -/
def hangsOnMark (above : Option (List Char)) (line : List Char) : Bool :=
  Line.isCode line
    && (firstColumn? conditionalFunctions conditionalCommands (Line.glyphs line)).isSome
    && !above.any Line.isComment

/-- On lines where it matters, both sides have the mark of a comment or neither has. -/
def SameMarks (above : Option (List Char)) : List (List Char) → List (List Char) → Prop
  | line :: rest, line' :: rest' =>
    (hangsOnMark above line = true → hasCommentMark line = hasCommentMark line')
      ∧ SameMarks (some line) rest rest'
  | _, _ => True

/-- Advice on a branch is given unless the line has the mark of a comment, or a comment above. -/
theorem branchComment_unquoted (above : Option (List Char)) (line : List Char) :
    (branchComment above line).map Tip.unquoted
      = (firstColumn? conditionalFunctions conditionalCommands (Line.glyphs line)).bind
        fun column =>
          if hasCommentMark line || above.any Line.isComment then none
          else some ⟨column, .uncommentedBranch, [], []⟩ := by
  rw [branchComment]
  cases firstColumn? conditionalFunctions conditionalCommands (Line.glyphs line) with
  | none => rfl
  | some column =>
      simp only [Option.bind_some]
      split <;> rfl

/-- The style advice of a line is on its indentation and on its branch. -/
theorem map_unquoted_style (unit : Nat) (above : Option (List Char)) (line : List Char) :
    (style unit above line).map Tip.unquoted
      = ((indentation unit line).map Tip.unquoted).toList
        ++ ((branchComment above line).map Tip.unquoted).toList := by
  rw [style, List.map_append, Option.toList_map, Option.toList_map]

section Style

variable {above above' : Option (List Char)} {a b : List Char}

/-- Lines that read alike get the same advice on style if both have the mark of a comment or neither
has, as far as that matters. -/
theorem style_of_sameMark (hview : IsView view) (h : Line.ReadAlike view a b)
    (habove : above.any Line.isComment = above'.any Line.isComment) (unit : Nat)
    (hcode : Line.isCode a = true)
    (hmark : hangsOnMark above a = true → hasCommentMark a = hasCommentMark b) :
    (style unit above a).map Tip.unquoted = (style unit above' b).map Tip.unquoted := by
  rw [map_unquoted_style, map_unquoted_style, h.indentation unit, branchComment_unquoted,
    branchComment_unquoted, firstColumn?_of_alike hview h.glyphs, ← habove]
  cases hcolumn : firstColumn? conditionalFunctions conditionalCommands (Line.glyphs b) with
  | none => rfl
  | some column =>
      cases hcomment : above.any Line.isComment with
      | true => simp only [Bool.or_true]
      | false =>
          have hhangs : hangsOnMark above a = true := by
            simp [hangsOnMark, hcode, firstColumn?_of_alike hview h.glyphs, hcolumn, hcomment]
          rw [hmark hhangs]

/-- Where the mark matters, as many pieces of advice mean that both lines have it or neither has. -/
theorem sameMark_of_length_style (hview : IsView view) (h : Line.ReadAlike view a b)
    (habove : above.any Line.isComment = above'.any Line.isComment) {unit : Nat}
    (hlength : (style unit above a).length = (style unit above' b).length)
    (hhangs : hangsOnMark above a = true) : hasCommentMark a = hasCommentMark b := by
  simp only [hangsOnMark, firstColumn?_of_alike hview h.glyphs, Bool.and_eq_true,
    Bool.not_eq_true', Option.isSome_iff_exists] at hhangs
  obtain ⟨⟨-, column, hcolumn⟩, hcomment⟩ := hhangs
  have htips : ((style unit above a).map Tip.unquoted).length
      = ((style unit above' b).map Tip.unquoted).length := by
    rw [List.length_map, List.length_map, hlength]
  rw [map_unquoted_style, map_unquoted_style, h.indentation unit, branchComment_unquoted,
    branchComment_unquoted, firstColumn?_of_alike hview h.glyphs, hcolumn, ← habove, hcomment,
    List.length_append, List.length_append, Nat.add_left_cancel_iff] at htips
  cases ha : hasCommentMark a <;> cases hb : hasCommentMark b <;> simp [ha, hb] at htips ⊢

end Style

/-- Style advice from a line on stands on that line or after it. -/
theorem line_of_mem_styleFrom {unit number : Nat} {above : Option (List Char)}
    {ls : List (List Char)} {f : Improvement} (h : f ∈ styleFrom unit number above ls) :
    number ≤ f.line := by
  induction ls generalizing number above with
  | nil => exact absurd h List.not_mem_nil
  | cons line rest ih =>
      rw [styleFrom, List.mem_append] at h
      rcases h with hhere | hlater
      · split at hhere
        · obtain ⟨tip, -, rfl⟩ := List.mem_map.mp hhere
          exact le_rfl
        · exact absurd hhere List.not_mem_nil
      · exact Nat.le_of_succ_le (ih hlater)

/-- As many improvements of a script's style stand on its first line as that line gets tips. -/
theorem countP_line_styleFrom (unit number : Nat) (above : Option (List Char)) (line : List Char)
    (rest : List (List Char)) :
    (styleFrom unit number above (line :: rest)).countP (·.line == number)
      = if Line.isCode line then (style unit above line).length else 0 := by
  have hlater : (styleFrom unit (number + 1) (some line) rest).countP (·.line == number) = 0 := by
    refine List.countP_eq_zero.mpr fun f hf hline => ?_
    have hle := line_of_mem_styleFrom hf
    rw [beq_iff_eq] at hline
    omega
  rw [styleFrom, List.countP_append, hlater, Nat.add_zero]
  split
  · rw [List.countP_map, List.countP_eq_length]
    intro tip _
    exact beq_self_eq_true number
  · rfl

/-- Style advice on lines that read alike, if the marks of comments agree where they matter. -/
theorem styleFrom_of_sameMarks (hview : IsView view) {ls ls' : List (List Char)}
    (h : List.Forall₂ (Line.ReadAlike view) ls ls') (above above' : Option (List Char))
    (habove : above.any Line.isComment = above'.any Line.isComment) (unit number : Nat)
    (hmarks : SameMarks above ls ls') :
    (styleFrom unit number above ls).map Improvement.unquoted
      = (styleFrom unit number above' ls').map Improvement.unquoted := by
  induction h generalizing above above' number with
  | nil => rfl
  | @cons a b rest rest' hline _ ih =>
      obtain ⟨hmark, hrest⟩ := hmarks
      have hlater := ih (some a) (some b) hline.isComment (number + 1) hrest
      simp only [styleFrom, List.map_append, hlater, ← hline.isCode]
      split
      · rename_i hcode
        rw [map_unquoted_improvement (style_of_sameMark hview hline habove unit hcode hmark)]
      · rfl

/-- Style advice at the same places means that the marks of comments agree where they matter. The
advice is cut off line by line, by its line numbers. -/
theorem sameMarks_of_styleFrom (hview : IsView view) {ls ls' : List (List Char)}
    (h : List.Forall₂ (Line.ReadAlike view) ls ls') (above above' : Option (List Char))
    (habove : above.any Line.isComment = above'.any Line.isComment) (unit number : Nat)
    (hstyle : (styleFrom unit number above ls).map Improvement.outline
      = (styleFrom unit number above' ls').map Improvement.outline) :
    SameMarks above ls ls' := by
  induction h generalizing above above' number with
  | nil => trivial
  | @cons a b rest rest' hline _ ih =>
      have hcount : ∀ fs : List Improvement, (fs.map Improvement.outline).countP (·.1 == number)
          = fs.countP (·.line == number) := fun fs => List.countP_map
      have hhere := congrArg (List.countP (·.1 == number)) hstyle
      rw [hcount, hcount, countP_line_styleFrom, countP_line_styleFrom, ← hline.isCode] at hhere
      simp only [styleFrom, List.map_append, ← hline.isCode] at hstyle
      refine ⟨fun hhangs => ?_, ?_⟩
      · have hcode : Line.isCode a = true := by
          simp only [hangsOnMark, Bool.and_eq_true] at hhangs
          exact hhangs.1.1
        rw [if_pos hcode, if_pos hcode] at hhere
        exact sameMark_of_length_style hview hline habove hhere hhangs
      · refine ih (some a) (some b) hline.isComment (number + 1) (List.append_inj hstyle ?_).2
        split
        · rename_i hcode
          rw [if_pos hcode, if_pos hcode] at hhere
          simp only [List.length_map, hhere]
        · rfl

/-- What a review says besides style. -/
def passes (c : Context) : List Improvement :=
  pass c performance ++ pass c maintainability
    ++ pass c (readability c.settings.complexityThreshold)
    ++ pass c fun line => (hygiene line).toList

/-- The review is the style advice and then the other passes. -/
theorem review_eq_style_append (c : Context) :
    review c = styleFrom c.settings.indentUnit 1 none c.lines ++ passes c := by
  simp only [review, passes, List.append_assoc]

/-- Besides style, scripts that read alike get the same advice. -/
theorem passes_of_readAlike (hview : IsView view) {c : Context} {text : List Char}
    (h : List.Forall₂ (Line.ReadAlike view) c.lines (Text.lines text)) :
    (passes c).map Improvement.unquoted = (passes { c with text }).map Improvement.unquoted := by
  have hperformance := pass_of_readAlike h fun _ _ hread => performance_of_alike hview hread.glyphs
  have hmaintainability := pass_of_readAlike h fun _ _ hread =>
    maintainability_of_alike hview hread.glyphs
  have hreadability := pass_of_readAlike h fun _ _ hread =>
    readability_of_alike hview hread.glyphs c.settings.complexityThreshold
  have hhygiene := pass_of_readAlike h fun _ _ hread => hygiene_of_alike hview hread.glyphs
  simp only [passes, List.map_append, hperformance, hmaintainability, hreadability, hhygiene]

/-- Scripts that read alike get the same advice, but for the code it quotes, if the marks of
comments agree where they matter. -/
theorem review_of_sameMarks (hview : IsView view) {c : Context} {text : List Char}
    (h : List.Forall₂ (Line.ReadAlike view) c.lines (Text.lines text))
    (hmarks : SameMarks none c.lines (Text.lines text)) :
    (review c).map Improvement.unquoted = (review { c with text }).map Improvement.unquoted := by
  rw [review_eq_style_append, review_eq_style_append, List.map_append, List.map_append,
    passes_of_readAlike hview h,
    styleFrom_of_sameMarks hview h none none rfl c.settings.indentUnit 1 hmarks]
  rfl

/-- The outline does not see the code that an improvement quotes. -/
theorem map_outline_of_map_unquoted {fs fs' : List Improvement}
    (h : fs.map Improvement.unquoted = fs'.map Improvement.unquoted) :
    fs.map Improvement.outline = fs'.map Improvement.outline :=
  eq_of_map_eq h (List.map Improvement.outline) fun _ => List.map_map

/-- The mark of a comment is the one thing that tells scripts apart that read alike: their advice
stands at the same places and is of the same kinds exactly if the marks agree where they matter. -/
theorem review_outline_iff (hview : IsView view) {c : Context} {text : List Char}
    (h : List.Forall₂ (Line.ReadAlike view) c.lines (Text.lines text)) :
    (review c).map Improvement.outline = (review { c with text }).map Improvement.outline
      ↔ SameMarks none c.lines (Text.lines text) := by
  constructor
  · intro hreview
    rw [review_eq_style_append, review_eq_style_append, List.map_append, List.map_append,
      map_outline_of_map_unquoted (passes_of_readAlike hview h),
      List.append_cancel_right_eq] at hreview
    exact sameMarks_of_styleFrom hview h none none rfl _ 1 hreview
  · intro hmarks
    exact map_outline_of_map_unquoted (review_of_sameMarks hview h hmarks)

end Practice

/-! ## Brackets, measures and notes -/

section Scripts

variable {c : Context} {text : List Char}

/-- Scripts that read alike have the same profile of brackets. -/
theorem BracketProfile.build_of_readAlike (hview : IsView view)
    (h : List.Forall₂ (Line.ReadAlike view) c.lines (Text.lines text)) :
    build c.codeLines = build (Context.codeLines { c with text }) := by
  refine (numberedAlike_codeLines h 1).foldl_eq (fun p n a b hread => ?_) ({} : BracketProfile)
  rw [addLine, addLine, foldl_addGlyph_congr (hread.glyphs.sameBrackets hview)]

/-- A count on the glyphs of lines adds up to the same on lines that read alike. -/
theorem Score.sumOver_of_readAlike
    (h : List.Forall₂ (Line.ReadAlike view) c.lines (Text.lines text)) {count : List Glyph → Nat}
    (hcount : ∀ gs hs, Alike view false gs hs → count gs = count hs) :
    sumOver c.codeLines count = sumOver (Context.codeLines { c with text }) count := by
  refine (numberedAlike_codeLines h 1).foldl_eq (fun n _ a b hread => ?_) 0
  rw [hcount _ _ hread.glyphs]

/-- Lines that read alike have as many comments. -/
theorem countP_isComment_of_readAlike {ls ls' : List (List Char)}
    (h : List.Forall₂ (Line.ReadAlike view) ls ls') :
    ls.countP Line.isComment = ls'.countP Line.isComment := by
  induction h with
  | nil => rfl
  | cons hline _ ih => rw [List.countP_cons, List.countP_cons, ih, hline.isComment]

/-- Scripts that read alike have the same measures. -/
theorem Score.measures_of_readAlike (hview : IsView view)
    (h : List.Forall₂ (Line.ReadAlike view) c.lines (Text.lines text)) :
    measures c = measures { c with text } := by
  have htotal : c.totalLines = Context.totalLines { c with text } := h.length_eq
  have hcode : c.codeLines.length = (Context.codeLines { c with text }).length :=
    (numberedAlike_codeLines h 1).length_eq
  have hcomments : c.commentLines = Context.commentLines { c with text } :=
    countP_isComment_of_readAlike h
  have hmarkers : sumOver c.codeLines Practice.controlMarkers
      = sumOver (Context.codeLines { c with text }) Practice.controlMarkers :=
    sumOver_of_readAlike h fun _ _ hread => Practice.controlMarkers_of_alike hview hread
  have hcalls : sumOver c.codeLines (fun gs => (Line.calls gs).length)
      = sumOver (Context.codeLines { c with text }) fun gs => (Line.calls gs).length := by
    refine sumOver_of_readAlike h fun gs hs hread => ?_
    simpa using congrArg List.length (hread.calls hview)
  simp only [measures, htotal, hcode, hcomments, hmarkers, hcalls,
    BracketProfile.build_of_readAlike hview h]

/-- First uses are found up to case. -/
theorem Deprecation.firstUses_viewed (hview : IsView view) (seen : List (List Char))
    (names : List String) :
    firstUses seen (names.map (viewed view)) = (firstUses seen names).map (viewed view) := by
  induction names generalizing seen with
  | nil => rfl
  | cons name rest ih =>
      simp only [List.map_cons, firstUses, lower_viewed hview, ih]
      split
      · rfl
      · rw [List.map_cons]

/-- Notes are on functions of the dialect, which are looked up without regard to case. -/
theorem Deprecation.flatMap_notesOn_viewed (hview : IsView view) (d : Dialect)
    (names : List String) :
    (firstUses [] (names.map (viewed view))).flatMap (notesOn d)
      = (firstUses [] names).flatMap (notesOn d) := by
  have hname : ∀ name, notesOn d (viewed view name) = notesOn d name := by
    intro name
    rw [notesOn, notesOn, Dialect.function?_viewed hview]
  simp only [firstUses_viewed hview, List.flatMap_map, hname]

/-- Scripts that read alike get the same notes on deprecated functions. -/
theorem Deprecation.notes_of_readAlike (hview : IsView view)
    (h : List.Forall₂ (Line.ReadAlike view) c.lines (Text.lines text)) :
    notes c = notes { c with text } := by
  have hcalls : (scriptCalls c).map (Call.viewed view)
      = (scriptCalls { c with text }).map (Call.viewed view) := by
    rw [scriptCalls, scriptCalls, List.map_flatMap, List.map_flatMap]
    exact (numberedAlike_codeLines h 1).flatMap_eq fun _ _ _ hread => hread.glyphs.calls hview
  have hnames : ((scriptCalls c).map Call.name).map (viewed view)
      = ((scriptCalls { c with text }).map Call.name).map (viewed view) := by
    have hmapped := congrArg (List.map Call.name) hcalls
    rwa [List.map_map, List.map_map] at hmapped ⊢
  rw [notes, notes]
  cases c.dialect with
  | none => rfl
  | some d =>
      simp only
      rw [← flatMap_notesOn_viewed hview, hnames, flatMap_notesOn_viewed hview]
      rfl

end Scripts

end Softcode
