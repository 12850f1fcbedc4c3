import Softcode.Syntax.LineCheck

/-!
# Well-nested lines

The structural brackets of a line form a word over the openers and closers of the three kinds.
`WellNested` is the grammar of the words that nest, and `pending` the stack automaton that accepts
exactly these (`wellNested_iff_pending`). The walk that reports the bracket flaws of a line agrees
with the automaton on every stack, so a line is free of bracket flaws exactly when its word nests
(`brackets_eq_nil_iff`). The walk keeps going after a flaw and the automaton does not: they agree on
whether there is a flaw, not on what is open after one.
-/

namespace Softcode

/-- A bracket in the word of a line. -/
inductive Mark where
  | opening (kind : Bracket)
  | closing (kind : Bracket)
  deriving DecidableEq, Repr

/-- What a glyph contributes to the word of its line: only structural brackets do. -/
def Glyph.mark? (g : Glyph) : Option Mark :=
  match g.opens with
  | some kind => some (.opening kind)
  | none => g.closes.map .closing

/-- The word that the structural brackets of a line form. -/
def Line.marks (gs : List Glyph) : List Mark := gs.filterMap Glyph.mark?

/-- The words that nest: nothing, or a bracket with a nested word inside and one after it. -/
inductive WellNested : List Mark → Prop where
  | nil : WellNested []
  | wrap (kind : Bracket) {inner rest : List Mark} :
      WellNested inner → WellNested rest →
        WellNested (.opening kind :: (inner ++ .closing kind :: rest))

/-! ## What a glyph does to a walk

Both bracket walks ask a glyph first what it opens and then what it closes. No glyph does both, so
its mark decides the step.
-/

namespace Glyph

/-- A character that opens a kind of bracket closes none. -/
theorem closes_eq_none_of_opens {g : Glyph} {kind : Bracket} (h : g.opens = some kind) :
    g.closes = none := by
  simp only [opens, closes] at h ⊢
  split at h
  · rename_i hcode
    rw [if_pos hcode]
    have hchar : kind.openChar = g.char := by
      have := List.find?_some h
      simpa using this
    rw [← hchar]
    cases kind <;> decide
  · exact absurd h (by simp)

/-- The glyph marks an opening exactly where it opens. -/
theorem mark?_eq_opening_iff (g : Glyph) (kind : Bracket) :
    g.mark? = some (.opening kind) ↔ g.opens = some kind := by
  rw [mark?]
  cases g.opens with
  | none => cases g.closes <;> simp
  | some other => simp

/-- The glyph marks a closing exactly where it closes. -/
theorem mark?_eq_closing_iff (g : Glyph) (kind : Bracket) :
    g.mark? = some (.closing kind) ↔ g.closes = some kind := by
  rw [mark?]
  cases h : g.opens with
  | none => simp
  | some other => simp [closes_eq_none_of_opens h]

/-- A glyph that marks a closing opens nothing. -/
theorem opens_eq_none_of_mark? {g : Glyph} {kind : Bracket} (h : g.mark? = some (.closing kind)) :
    g.opens = none := by
  cases hopens : g.opens with
  | none => rfl
  | some other =>
      rw [(g.mark?_eq_opening_iff other).mpr hopens] at h
      exact absurd h (by simp)

/-- An unmarked glyph neither opens nor closes. -/
theorem mark?_eq_none_iff (g : Glyph) : g.mark? = none ↔ g.opens = none ∧ g.closes = none := by
  rw [mark?]
  cases g.opens <;> simp

/-- The three cases of a step: nothing, an opener or a closer. -/
@[elab_as_elim]
theorem mark_cases {motive : Glyph → Prop} (g : Glyph) (none : g.mark? = none → motive g)
    (opening : ∀ kind, g.mark? = some (.opening kind) → motive g)
    (closing : ∀ kind, g.mark? = some (.closing kind) → motive g) : motive g := by
  cases hmark : g.mark? with
  | none => exact none hmark
  | some mark =>
      cases mark with
      | opening kind => exact opening kind hmark
      | closing kind => exact closing kind hmark

end Glyph

namespace Line

theorem marks_cons_of_none {g : Glyph} (h : g.mark? = none) (gs : List Glyph) :
    marks (g :: gs) = marks gs := by
  rw [marks, List.filterMap_cons_none h, marks]

theorem marks_cons_of_some {g : Glyph} {m : Mark} (h : g.mark? = some m) (gs : List Glyph) :
    marks (g :: gs) = m :: marks gs := by
  rw [marks, List.filterMap_cons_some h, marks]

end Line

namespace LineCheck

/-- A glyph that is no bracket leaves the walk where it is. -/
theorem bracketsFrom_cons_of_none {g : Glyph} (h : g.mark? = none) (column : Nat)
    (stack : List Opener) (gs : List Glyph) :
    bracketsFrom column stack (g :: gs) = bracketsFrom (column + 1) stack gs := by
  obtain ⟨hopens, hcloses⟩ := g.mark?_eq_none_iff.mp h
  simp only [bracketsFrom, hopens, hcloses]

/-- An opener goes on the stack. -/
theorem bracketsFrom_cons_of_opening {g : Glyph} {kind : Bracket}
    (h : g.mark? = some (.opening kind)) (column : Nat) (stack : List Opener) (gs : List Glyph) :
    bracketsFrom column stack (g :: gs)
      = bracketsFrom (column + 1) ((kind, column) :: stack) gs := by
  simp only [bracketsFrom, (g.mark?_eq_opening_iff kind).mp h]

/-- A closer is settled by `closeBracket`. -/
theorem bracketsFrom_cons_of_closing {g : Glyph} {kind : Bracket}
    (h : g.mark? = some (.closing kind)) (column : Nat) (stack : List Opener) (gs : List Glyph) :
    bracketsFrom column stack (g :: gs)
      = (closeBracket kind column stack).1
        ++ bracketsFrom (column + 1) (closeBracket kind column stack).2 gs := by
  simp only [bracketsFrom, g.opens_eq_none_of_mark? h, (g.mark?_eq_closing_iff kind).mp h]

end LineCheck

/-! ## The stack automaton of well-nested words -/

/-- The kinds that are open after a word, innermost first, when `stack` was open before it. There
is no answer once a closer meets anything but the innermost opener. -/
def pending (stack : List Bracket) : List Mark → Option (List Bracket)
  | [] => some stack
  | .opening kind :: rest => pending (kind :: stack) rest
  | .closing kind :: rest =>
    match stack with
    | [] => none
    | top :: below => if top = kind then pending below rest else none

/-- A nested word in front changes nothing. -/
theorem WellNested.pending_append {word : List Mark} (h : WellNested word)
    (stack : List Bracket) (rest : List Mark) :
    pending stack (word ++ rest) = pending stack rest := by
  induction h generalizing stack rest with
  | nil => rfl
  | @wrap kind inner after _ _ ihInner ihAfter =>
      calc pending stack (.opening kind :: (inner ++ .closing kind :: after) ++ rest)
          = pending (kind :: stack) (inner ++ .closing kind :: (after ++ rest)) := by
            simp only [List.cons_append, List.append_assoc, pending]
        _ = pending (kind :: stack) (.closing kind :: (after ++ rest)) := ihInner _ _
        _ = pending stack (after ++ rest) := by simp only [pending, if_true]
        _ = pending stack rest := ihAfter _ _

/-- What is left to do before a stack is empty: nothing, or a nested word up to the closer of the
innermost opener and then the same for the rest of the stack. -/
def Finishes : List Bracket → List Mark → Prop
  | [], word => WellNested word
  | top :: below, word =>
    ∃ inner rest, word = inner ++ .closing top :: rest ∧ WellNested inner ∧ Finishes below rest

/-- An opener in front of a word that closes it joins the nested word that follows. -/
theorem Finishes.opening {kind : Bracket} {stack : List Bracket} {word : List Mark}
    (h : Finishes (kind :: stack) word) : Finishes stack (.opening kind :: word) := by
  obtain ⟨inner, rest, rfl, hinner, hrest⟩ := h
  cases stack with
  | nil => exact .wrap kind hinner hrest
  | cons top below =>
      obtain ⟨inner', rest', rfl, hinner', hrest'⟩ := hrest
      exact ⟨.opening kind :: (inner ++ .closing kind :: inner'), rest', by simp,
        .wrap kind hinner hinner', hrest'⟩

/-- A word that empties the automaton's stack finishes it in the sense of the grammar. -/
theorem finishes_of_pending {stack : List Bracket} {word : List Mark}
    (h : pending stack word = some []) : Finishes stack word := by
  -- on the word, for all stacks: an opener moves from the word to the stack and back
  induction word generalizing stack with
  | nil =>
      rw [pending, Option.some.injEq] at h
      rw [h]
      exact .nil
  | cons m rest ih =>
      cases m with
      | opening kind => exact (ih h).opening
      | closing kind =>
          cases stack with
          | nil => simp only [pending] at h; exact absurd h (by simp)
          | cons top below =>
              simp only [pending] at h
              split at h
              · rename_i htop
                subst htop
                exact ⟨[], rest, rfl, .nil, ih h⟩
              · exact absurd h (by simp)

/-- The automaton accepts exactly the well-nested words. -/
theorem wellNested_iff_pending (word : List Mark) :
    WellNested word ↔ pending [] word = some [] := by
  constructor
  · intro h
    have := h.pending_append [] []
    rwa [List.append_nil] at this
  · exact finishes_of_pending

instance : DecidablePred WellNested := fun word =>
  decidable_of_iff _ (wellNested_iff_pending word).symm

example : WellNested [.opening .square, .opening .paren, .closing .paren, .closing .square] := by
  decide

example : ¬ WellNested [.opening .square, .opening .paren, .closing .square, .closing .paren] := by
  decide

/-! ## The bracket check accepts exactly the well-nested lines -/

namespace LineCheck

/-- Closing the innermost opener is silent and takes just that opener. -/
theorem closeBracket_cons_self (kind : Bracket) (column : Nat) (opener : Nat)
    (stack : List Opener) : closeBracket kind column ((kind, opener) :: stack) = ([], stack) := by
  simp [closeBracket]

/-- Closing an empty stack is a flaw. -/
theorem closeBracket_nil (kind : Bracket) (column : Nat) :
    closeBracket kind column [] = ([⟨column, .unmatchedCloser kind⟩], []) := rfl

/-- Closing under an opener of another kind is a flaw. -/
theorem closeBracket_cons_ne {kind top : Bracket} (h : top ≠ kind) (column opener : Nat)
    (stack : List Opener) : (closeBracket kind column ((top, opener) :: stack)).1 ≠ [] := by
  simp only [closeBracket]
  split
  · simp
  · simp_all
  · simp_all

/-- From any stack, the walk reports nothing exactly when the automaton ends with nothing open. -/
theorem bracketsFrom_eq_nil_iff (column : Nat) (stack : List Opener) (gs : List Glyph) :
    bracketsFrom column stack gs = []
      ↔ pending (stack.map Prod.fst) (Line.marks gs) = some [] := by
  induction gs generalizing column stack with
  | nil => simp [bracketsFrom, Line.marks, pending]
  | cons g rest ih =>
      cases g using Glyph.mark_cases with
      | none hmark => rw [bracketsFrom_cons_of_none hmark, Line.marks_cons_of_none hmark, ih]
      | opening kind hmark =>
          rw [bracketsFrom_cons_of_opening hmark, Line.marks_cons_of_some hmark, ih]
          rfl
      | closing kind hmark =>
          rw [bracketsFrom_cons_of_closing hmark, Line.marks_cons_of_some hmark,
            List.append_eq_nil_iff]
          cases stack with
          | nil => simp [closeBracket_nil, pending]
          | cons top below =>
              obtain ⟨topKind, opener⟩ := top
              by_cases htop : topKind = kind
              · subst htop
                rw [closeBracket_cons_self, ih]
                simp [pending]
              · -- the automaton stops here; the walk goes on, but has reported its flaw
                have hflaw := closeBracket_cons_ne htop column opener below
                simp [hflaw, htop, pending]

/-- A line has no bracket flaw exactly when its word is well nested. -/
theorem brackets_eq_nil_iff (gs : List Glyph) :
    brackets gs = [] ↔ WellNested (Line.marks gs) := by
  rw [brackets, bracketsFrom_eq_nil_iff, wellNested_iff_pending]
  rfl

end LineCheck

end Softcode
