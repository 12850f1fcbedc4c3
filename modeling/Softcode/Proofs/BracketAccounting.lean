import Mathlib.Algebra.GroupWithZero.Nat
import Mathlib.Data.List.TakeWhile
import Softcode.Line.Profile
import Softcode.Proofs.Nesting

/-!
# Accounting for brackets

Two walks look at the brackets of a line. `LineCheck.brackets` keeps a stack of openers with their
columns and reports flaws; `BracketProfile.build` keeps a stack of kinds and adds up counts over
many lines. Here they are shown to keep the same books.

`LineCheck.settlements` writes down what the first walk does with every bracket: a closer takes an
opener and drops those above it, or takes none; an opener that is never taken or dropped is left at
the end. The flaws of the check can be read off this list (`brackets_eq_filterMap_flaw?`), each
bracket of the line occurs in it exactly once (`opener_account`, `closer_account`), and the stack
that is left at the end is the one the second walk ends with (`foldl_addGlyph_stack`).
-/

namespace Softcode.LineCheck

/-- What the walk over a line does with its brackets. Openers and closers are given by kind and
column. -/
inductive Settlement where
  /-- a closer takes the nearest opener of its kind; the openers above it are dropped -/
  | closed (kind : Bracket) (opener closer : Nat) (dropped : List Opener)
  /-- a closer finds no opener of its kind -/
  | unmatched (kind : Bracket) (closer : Nat)
  /-- an opener is still there where the line ends -/
  | unclosed (kind : Bracket) (opener : Nat)
  deriving DecidableEq, Repr

namespace Settlement

/-- The flaw that reports a settlement. Closing is reported only if it drops openers. -/
def flaw? : Settlement → Option Flaw
  | closed _ _ _ [] => none
  | closed kind _ closer (top :: _) => some ⟨closer, .mismatchedCloser kind top.1 top.2⟩
  | unmatched kind closer => some ⟨closer, .unmatchedCloser kind⟩
  | unclosed kind opener => some ⟨opener, .unclosedOpener kind⟩

/-- The opener that a closer takes. -/
def matchedOpener? : Settlement → Option Opener
  | closed kind opener _ _ => some (kind, opener)
  | _ => none

/-- The closer that takes an opener. -/
def matchedCloser? : Settlement → Option (Bracket × Nat)
  | closed kind _ closer _ => some (kind, closer)
  | _ => none

/-- The openers that are dropped. -/
def dropped : Settlement → List Opener
  | closed _ _ _ openers => openers
  | _ => []

end Settlement

/-- What becomes of a closer that meets a stack of openers, innermost first. -/
def settle (kind : Bracket) (column : Nat) (stack : List Opener) : Settlement :=
  match stack.dropWhile (·.1 != kind) with
  | [] => .unmatched kind column
  | opener :: _ => .closed kind opener.2 column (stack.takeWhile (·.1 != kind))

/-- The openers on the stack of the check after a glyph at `column`. -/
def stackAfter (column : Nat) (stack : List Opener) (g : Glyph) : List Opener :=
  match g.mark? with
  | none => stack
  | some (.opening kind) => (kind, column) :: stack
  | some (.closing kind) => (closeBracket kind column stack).2

/-- The openers on the stack of the check after glyphs that start at `column`. -/
def stackFrom (column : Nat) (stack : List Opener) : List Glyph → List Opener
  | [] => stack
  | g :: rest => stackFrom (column + 1) (stackAfter column stack g) rest

/-- What a glyph at `column` settles: a closer settles itself and takes openers with it. -/
def settleGlyph (column : Nat) (stack : List Opener) (g : Glyph) : Option Settlement :=
  match g.mark? with
  | some (.closing kind) => some (settle kind column stack)
  | _ => none

/-- What the walk settles from `column` on, with the given openers open. -/
def settlementsFrom (column : Nat) (stack : List Opener) : List Glyph → List Settlement
  | [] => stack.reverse.map fun opener => .unclosed opener.1 opener.2
  | g :: rest =>
    (settleGlyph column stack g).toList
      ++ settlementsFrom (column + 1) (stackAfter column stack g) rest

/-- What the walk over a line settles. -/
def settlements (gs : List Glyph) : List Settlement := settlementsFrom 1 [] gs

/-- The openers of a line that a closer takes. -/
def matchedOpeners (gs : List Glyph) : List Opener :=
  (settlements gs).filterMap Settlement.matchedOpener?

/-- The closers of a line that take an opener. -/
def matchedClosers (gs : List Glyph) : List (Bracket × Nat) :=
  (settlements gs).filterMap Settlement.matchedCloser?

/-- The openers of a line that are dropped. -/
def droppedOpeners (gs : List Glyph) : List Opener := (settlements gs).flatMap Settlement.dropped

/-! ## The flaws can be read off the settlements -/

/-- All that closing a bracket can do: find no opener of the kind and leave the stack alone, or cut
the stack below the nearest one. -/
theorem closeBracket_cases (kind : Bracket) (column : Nat) (stack : List Opener) :
    ((∀ opener ∈ stack, opener.1 ≠ kind) ∧ settle kind column stack = .unmatched kind column
      ∧ (closeBracket kind column stack).2 = stack)
    ∨ ∃ dropped opener below, stack = dropped ++ (kind, opener) :: below
      ∧ (∀ other ∈ dropped, other.1 ≠ kind)
      ∧ settle kind column stack = .closed kind opener column dropped
      ∧ (closeBracket kind column stack).2 = below := by
  have hsplit : stack.takeWhile (·.1 != kind) ++ stack.dropWhile (·.1 != kind) = stack :=
    List.takeWhile_append_dropWhile
  have habove : ∀ other ∈ stack.takeWhile (·.1 != kind), other.1 ≠ kind := by
    intro other hother
    simpa using List.mem_takeWhile_imp hother
  cases hdrop : stack.dropWhile (·.1 != kind) with
  | nil =>
      rw [hdrop, List.append_nil] at hsplit
      rw [hsplit] at habove
      exact Or.inl ⟨habove, by simp only [settle, hdrop], by simp only [closeBracket, hdrop]⟩
  | cons first below =>
      obtain ⟨found, opener⟩ := first
      -- the first opener that is not skipped has the kind asked for
      have hfound : found = kind := by
        have hhead := List.head?_dropWhile_not (fun o : Opener => o.1 != kind) stack
        rw [hdrop] at hhead
        simpa using hhead
      subst hfound
      refine Or.inr ⟨_, opener, below, by rw [← hdrop]; exact hsplit.symm, habove,
        by simp only [settle, hdrop], ?_⟩
      cases stack with
      | nil => exact absurd hdrop (by simp)
      | cons top rest =>
          simp only [closeBracket, hdrop]
          split <;> rfl

/-- Closing a bracket reports what its settlement says. -/
theorem closeBracket_flaws (kind : Bracket) (column : Nat) (stack : List Opener) :
    (closeBracket kind column stack).1 = (settle kind column stack).flaw?.toList := by
  cases hdrop : stack.dropWhile (·.1 != kind) with
  | nil => simp only [closeBracket, settle, hdrop, Settlement.flaw?, Option.toList_some]
  | cons opener below =>
      cases stack with
      | nil => exact absurd hdrop (by simp)
      | cons top rest =>
          by_cases htop : top.1 = kind
          · simp [closeBracket, settle, htop, Settlement.flaw?]
          · simp [closeBracket, settle, hdrop, htop, Settlement.flaw?]

/-- From any stack, the walk reports exactly the flaws of what it settles. -/
theorem bracketsFrom_eq_filterMap_flaw? (column : Nat) (stack : List Opener) (gs : List Glyph) :
    bracketsFrom column stack gs
      = (settlementsFrom column stack gs).filterMap Settlement.flaw? := by
  induction gs generalizing column stack with
  | nil =>
      rw [bracketsFrom, settlementsFrom, List.filterMap_map]
      exact (congrFun List.filterMap_eq_map _).symm
  | cons g rest ih =>
      cases g using Glyph.mark_cases with
      | none hmark =>
          rw [bracketsFrom_cons_of_none hmark, ih]
          simp [settlementsFrom, settleGlyph, stackAfter, hmark]
      | opening kind hmark =>
          rw [bracketsFrom_cons_of_opening hmark, ih]
          simp [settlementsFrom, settleGlyph, stackAfter, hmark]
      | closing kind hmark =>
          rw [bracketsFrom_cons_of_closing hmark, ih, closeBracket_flaws]
          simp only [settlementsFrom, settleGlyph, stackAfter, hmark, Option.toList_some,
            List.filterMap_append]
          congr 1

/-- The check reports exactly the flaws of what it settles. -/
theorem brackets_eq_filterMap_flaw? (gs : List Glyph) :
    brackets gs = (settlements gs).filterMap Settlement.flaw? :=
  bracketsFrom_eq_filterMap_flaw? 1 [] gs

example : settlements (Line.glyphs ['[', '(', ']', ')', '{'])
    = [.closed .square 1 3 [(.paren, 2)], .unmatched .paren 4, .unclosed .brace 5] := by decide

/-! ## Every bracket is settled once

The laws below count brackets by an arbitrary key on kind and column, so that they give both the
number of brackets of a kind and the fate of a single one.
-/

/-- The brackets that `read` finds in glyphs, with their columns from `column` on. -/
def occurrences (read : Glyph → Option Bracket) (column : Nat) : List Glyph → List (Bracket × Nat)
  | [] => []
  | g :: rest => ((read g).map (·, column)).toList ++ occurrences read (column + 1) rest

/-- The flaw reports an opener with this key as unclosed. -/
def reportsUnclosed (key : Opener → Bool) (flaw : Flaw) : Bool :=
  match flaw.defect with
  | .unclosedOpener kind => key (kind, flaw.column)
  | _ => false

/-- The flaw reports a closer with this key as unmatched. -/
def reportsUnmatched (key : Bracket × Nat → Bool) (flaw : Flaw) : Bool :=
  match flaw.defect with
  | .unmatchedCloser kind => key (kind, flaw.column)
  | _ => false

/-- Reporting one opener as unclosed. -/
theorem reportsUnclosed_beq (kind : Bracket) (column : Nat) :
    reportsUnclosed (· == (kind, column)) = (· == ⟨column, .unclosedOpener kind⟩) := by
  funext flaw
  obtain ⟨flawColumn, defect⟩ := flaw
  rw [Bool.eq_iff_iff]
  cases defect <;> simp [reportsUnclosed, and_comm]

/-- Reporting any opener of a kind as unclosed. -/
theorem reportsUnclosed_kind (kind : Bracket) :
    reportsUnclosed (·.1 == kind) = (·.defect == .unclosedOpener kind) := by
  funext flaw
  obtain ⟨flawColumn, defect⟩ := flaw
  rw [Bool.eq_iff_iff]
  cases defect <;> simp [reportsUnclosed]

/-- Reporting one closer as unmatched. -/
theorem reportsUnmatched_beq (kind : Bracket) (column : Nat) :
    reportsUnmatched (· == (kind, column)) = (· == ⟨column, .unmatchedCloser kind⟩) := by
  funext flaw
  obtain ⟨flawColumn, defect⟩ := flaw
  rw [Bool.eq_iff_iff]
  cases defect <;> simp [reportsUnmatched, and_comm]

/-- Reporting any closer of a kind as unmatched. -/
theorem reportsUnmatched_kind (kind : Bracket) :
    reportsUnmatched (·.1 == kind) = (·.defect == .unmatchedCloser kind) := by
  funext flaw
  obtain ⟨flawColumn, defect⟩ := flaw
  rw [Bool.eq_iff_iff]
  cases defect <;> simp [reportsUnmatched]

/-- The openers left at the end are neither matched nor dropped there. -/
theorem filterMap_unclosed_eq_nil {β : Type} (read : Settlement → Option β)
    (h : ∀ kind opener, read (.unclosed kind opener) = none) (stack : List Opener) :
    (stack.map fun o : Opener => Settlement.unclosed o.1 o.2).filterMap read = [] := by
  rw [List.filterMap_map, List.filterMap_eq_nil_iff]
  exact fun opener _ => h opener.1 opener.2

/-- One glyph moves openers from the line or the stack to the matched, the dropped or the stack, and
loses none. -/
theorem settleGlyph_opener_account (key : Opener → Bool) (column : Nat) (stack : List Opener)
    (g : Glyph) :
    ((settleGlyph column stack g).toList.filterMap Settlement.matchedOpener?).countP key
        + ((settleGlyph column stack g).toList.flatMap Settlement.dropped).countP key
        + (stackAfter column stack g).countP key
      = stack.countP key + (g.opens.map (·, column)).toList.countP key := by
  cases g using Glyph.mark_cases with
  | none hmark =>
      have hopens := (g.mark?_eq_none_iff.mp hmark).1
      simp [settleGlyph, stackAfter, hmark, hopens]
  | opening kind hmark =>
      have hopens := (g.mark?_eq_opening_iff kind).mp hmark
      simp [settleGlyph, stackAfter, hmark, hopens, List.countP_cons]
  | closing kind hmark =>
      have hopens := g.opens_eq_none_of_mark? hmark
      simp only [settleGlyph, stackAfter, hmark, hopens, Option.toList_some, Option.map_none,
        Option.toList_none, List.countP_nil, List.flatMap_cons, List.flatMap_nil, List.append_nil]
      obtain ⟨-, hsettle, hbelow⟩ | ⟨dropped, opener, below, rfl, -, hsettle, hbelow⟩ :=
        closeBracket_cases kind column stack
      · simp [hsettle, hbelow, Settlement.matchedOpener?, Settlement.dropped]
      · rw [hsettle, hbelow]
        simp only [List.filterMap_cons, List.filterMap_nil, Settlement.matchedOpener?,
          Settlement.dropped, List.countP_cons, List.countP_nil, List.countP_append]
        omega

/-- Every opener of the line is matched, dropped or on the stack at the end. -/
theorem opener_account (key : Opener → Bool) (column : Nat) (stack : List Opener)
    (gs : List Glyph) :
    ((settlementsFrom column stack gs).filterMap Settlement.matchedOpener?).countP key
        + ((settlementsFrom column stack gs).flatMap Settlement.dropped).countP key
        + (stackFrom column stack gs).countP key
      = stack.countP key + (occurrences Glyph.opens column gs).countP key := by
  induction gs generalizing column stack with
  | nil =>
      have hmatched := filterMap_unclosed_eq_nil Settlement.matchedOpener?
        (fun _ _ => rfl) stack.reverse
      have hdropped : (stack.reverse.map fun o : Opener => Settlement.unclosed o.1 o.2).flatMap
          Settlement.dropped = [] := by
        rw [List.flatMap_map, List.flatMap_eq_nil_iff]
        exact fun _ _ => rfl
      simp only [settlementsFrom, stackFrom, occurrences, hmatched, hdropped, List.countP_nil]
      omega
  | cons g rest ih =>
      have hstep := settleGlyph_opener_account key column stack g
      have hrest := ih (column + 1) (stackAfter column stack g)
      simp only [settlementsFrom, stackFrom, occurrences, List.filterMap_append,
        List.flatMap_append, List.countP_append]
      omega

/-- A closer reports no opener as unclosed. -/
theorem countP_settle_reportsUnclosed (key : Opener → Bool) (kind : Bracket) (column : Nat)
    (stack : List Opener) :
    (settle kind column stack).flaw?.toList.countP (reportsUnclosed key) = 0 := by
  obtain ⟨-, hsettle, -⟩ | ⟨dropped, opener, below, -, -, hsettle, -⟩ :=
    closeBracket_cases kind column stack
  · rw [hsettle]
    rfl
  · rw [hsettle]
    cases dropped <;> rfl

/-- The openers reported as unclosed are the ones on the stack at the end. -/
theorem countP_reportsUnclosed (key : Opener → Bool) (column : Nat) (stack : List Opener)
    (gs : List Glyph) :
    (bracketsFrom column stack gs).countP (reportsUnclosed key)
      = (stackFrom column stack gs).countP key := by
  induction gs generalizing column stack with
  | nil =>
      rw [bracketsFrom, stackFrom, List.countP_map, List.countP_reverse]
      rfl
  | cons g rest ih =>
      rw [stackFrom]
      cases g using Glyph.mark_cases with
      | none hmark =>
          rw [bracketsFrom_cons_of_none hmark, ih]
          simp only [stackAfter, hmark]
      | opening kind hmark =>
          rw [bracketsFrom_cons_of_opening hmark, ih]
          simp only [stackAfter, hmark]
      | closing kind hmark =>
          simp only [stackAfter, hmark]
          rw [bracketsFrom_cons_of_closing hmark, List.countP_append, ih, closeBracket_flaws]
          rw [countP_settle_reportsUnclosed, Nat.zero_add]

/-- A closer takes an opener or is reported as unmatched, and not both. -/
theorem settle_closer_account (key : Bracket × Nat → Bool) (kind : Bracket) (column : Nat)
    (stack : List Opener) :
    ([settle kind column stack].filterMap Settlement.matchedCloser?).countP key
        + (settle kind column stack).flaw?.toList.countP (reportsUnmatched key)
      = [(kind, column)].countP key := by
  obtain ⟨-, hsettle, -⟩ | ⟨dropped, opener, below, -, -, hsettle, -⟩ :=
    closeBracket_cases kind column stack
  · rw [hsettle]
    exact Nat.zero_add _
  · rw [hsettle]
    cases dropped <;> exact Nat.add_zero _

/-- Every closer of the line takes an opener or is reported as unmatched. -/
theorem closer_account (key : Bracket × Nat → Bool) (column : Nat) (stack : List Opener)
    (gs : List Glyph) :
    ((settlementsFrom column stack gs).filterMap Settlement.matchedCloser?).countP key
        + (bracketsFrom column stack gs).countP (reportsUnmatched key)
      = (occurrences Glyph.closes column gs).countP key := by
  induction gs generalizing column stack with
  | nil =>
      have hmatched := filterMap_unclosed_eq_nil Settlement.matchedCloser?
        (fun _ _ => rfl) stack.reverse
      have hreported : (stack.reverse.map fun o : Opener =>
          (⟨o.2, .unclosedOpener o.1⟩ : Flaw)).countP (reportsUnmatched key) = 0 := by
        simp [List.countP_eq_zero, reportsUnmatched]
      simp only [settlementsFrom, bracketsFrom, occurrences, hmatched, hreported, List.countP_nil]
  | cons g rest ih =>
      have hrest := ih (column + 1) (stackAfter column stack g)
      cases g using Glyph.mark_cases with
      | none hmark =>
          have hcloses := (g.mark?_eq_none_iff.mp hmark).2
          simp only [stackAfter, hmark] at hrest
          simpa [bracketsFrom_cons_of_none hmark, settlementsFrom, settleGlyph, stackAfter, hmark,
            occurrences, hcloses] using hrest
      | opening kind hmark =>
          have hcloses := g.closes_eq_none_of_opens ((g.mark?_eq_opening_iff kind).mp hmark)
          simp only [stackAfter, hmark] at hrest
          simpa [bracketsFrom_cons_of_opening hmark, settlementsFrom, settleGlyph, stackAfter,
            hmark, occurrences, hcloses] using hrest
      | closing kind hmark =>
          have hcloses := (g.mark?_eq_closing_iff kind).mp hmark
          simp only [stackAfter, hmark] at hrest
          rw [bracketsFrom_cons_of_closing hmark, closeBracket_flaws]
          have hstep := settle_closer_account key kind column stack
          simp only [settlementsFrom, settleGlyph, stackAfter, hmark, occurrences, hcloses,
            Option.toList_some, Option.map_some, List.filterMap_append, List.countP_append]
          omega

/-! ## The fate of one bracket -/

/-- Columns count up from the first one. -/
theorem le_of_mem_occurrences {read : Glyph → Option Bracket} {column : Nat} {gs : List Glyph}
    {b : Bracket × Nat} (h : b ∈ occurrences read column gs) : column ≤ b.2 := by
  induction gs generalizing column with
  | nil => exact absurd h List.not_mem_nil
  | cons g rest ih =>
      rw [occurrences, List.mem_append, Option.mem_toList, Option.map_eq_some_iff] at h
      rcases h with ⟨kind, -, rfl⟩ | hrest
      · exact Nat.le_refl column
      · exact Nat.le_of_succ_le (ih hrest)

/-- The bracket at an index occurs once, at its column. -/
theorem count_occurrences (read : Glyph → Option Bracket) (kind : Bracket) (column i : Nat)
    (gs : List Glyph) :
    (occurrences read column gs).count (kind, column + i)
      = if gs[i]?.bind read = some kind then 1 else 0 := by
  induction gs generalizing column i with
  | nil => rfl
  | cons g rest ih =>
      rw [occurrences, List.count_append]
      cases i with
      | zero =>
          -- the rest of the line starts one column further on
          have hrest : (occurrences read (column + 1) rest).count (kind, column + 0) = 0 := by
            rw [List.count_eq_zero]
            intro hmem
            have hle := le_of_mem_occurrences hmem
            simp only [Nat.add_zero] at hle
            omega
          rw [hrest]
          cases hread : read g with
          | none => simp [hread]
          | some other => simp [hread, List.count_cons]
      | succ i =>
          have hhead : ((read g).map (·, column)).toList.count (kind, column + (i + 1)) = 0 := by
            cases read g with
            | none => rfl
            | some other =>
                rw [List.count_eq_zero]
                simp
          have hcolumn : column + (i + 1) = column + 1 + i := by omega
          rw [hhead, hcolumn, ih, Nat.zero_add, List.getElem?_cons_succ]

/-- The number of brackets of a kind does not depend on where they stand. -/
theorem countP_kind_occurrences (read : Glyph → Option Bracket) (kind : Bracket) (column : Nat)
    (gs : List Glyph) :
    (occurrences read column gs).countP (·.1 == kind) = gs.countP (read · == some kind) := by
  induction gs generalizing column with
  | nil => rfl
  | cons g rest ih =>
      rw [occurrences, List.countP_append, ih, List.countP_cons, Nat.add_comm]
      congr 1
      cases hread : read g <;> simp [List.countP_cons]

/-- A structural opener is matched, dropped or reported as unclosed: one of these, and once. -/
theorem opener_settled_once (gs : List Glyph) (i : Nat) (kind : Bracket) :
    (matchedOpeners gs).count (kind, i + 1) + (droppedOpeners gs).count (kind, i + 1)
        + (brackets gs).count ⟨i + 1, .unclosedOpener kind⟩
      = if gs[i]?.bind Glyph.opens = some kind then 1 else 0 := by
  have hreported : (brackets gs).count ⟨i + 1, .unclosedOpener kind⟩
      = (stackFrom 1 [] gs).countP (· == (kind, i + 1)) := by
    rw [← countP_reportsUnclosed, reportsUnclosed_beq, ← brackets, List.count_eq_countP]
  have haccount := opener_account (· == (kind, i + 1)) 1 [] gs
  have hone := count_occurrences Glyph.opens kind 1 i gs
  rw [Nat.add_comm 1 i] at hone
  rw [hreported, ← hone, matchedOpeners, droppedOpeners, settlements]
  simp only [List.count_eq_countP, List.countP_nil, Nat.zero_add] at haccount ⊢
  exact haccount

/-- A structural closer is matched or reported as unmatched: one of these, and once. -/
theorem closer_settled_once (gs : List Glyph) (i : Nat) (kind : Bracket) :
    (matchedClosers gs).count (kind, i + 1) + (brackets gs).count ⟨i + 1, .unmatchedCloser kind⟩
      = if gs[i]?.bind Glyph.closes = some kind then 1 else 0 := by
  have hreported : (brackets gs).count ⟨i + 1, .unmatchedCloser kind⟩
      = (bracketsFrom 1 [] gs).countP (reportsUnmatched (· == (kind, i + 1))) := by
    rw [reportsUnmatched_beq, ← brackets, List.count_eq_countP]
  have hone := count_occurrences Glyph.closes kind 1 i gs
  rw [Nat.add_comm 1 i] at hone
  rw [hreported, ← hone]
  exact closer_account (· == (kind, i + 1)) 1 [] gs

/-! ## The balance of one kind on a line -/

/-- How many flaws of the bracket check have a cause. -/
def reported (gs : List Glyph) (defect : Defect) : Nat := (brackets gs).countP (·.defect == defect)

/-- How many openers of a kind are dropped. -/
def droppedCount (gs : List Glyph) (kind : Bracket) : Nat :=
  (droppedOpeners gs).countP (·.1 == kind)

/-- As many openers of a kind are reported as unclosed as are on the stack at the end. -/
theorem reported_unclosedOpener (gs : List Glyph) (kind : Bracket) :
    reported gs (.unclosedOpener kind) = (stackFrom 1 [] gs).countP (·.1 == kind) := by
  rw [← countP_reportsUnclosed, reportsUnclosed_kind, ← brackets, reported]

/-- Closers of a kind take openers of that kind. -/
theorem countP_kind_matched (gs : List Glyph) (kind : Bracket) :
    (matchedOpeners gs).countP (·.1 == kind) = (matchedClosers gs).countP (·.1 == kind) := by
  rw [matchedOpeners, matchedClosers, List.countP_filterMap, List.countP_filterMap]
  refine List.countP_congr fun settlement _ => ?_
  cases settlement <;> rfl

/-- What a line opens of a kind beyond what it closes is dropped or reported as unclosed, less the
closers that are reported as unmatched. -/
theorem line_balance (gs : List Glyph) (kind : Bracket) :
    gs.countP (·.opens == some kind) + reported gs (.unmatchedCloser kind)
      = gs.countP (·.closes == some kind) + droppedCount gs kind
        + reported gs (.unclosedOpener kind) := by
  have hopeners := opener_account (·.1 == kind) 1 [] gs
  have hclosers := closer_account (·.1 == kind) 1 [] gs
  have hmatched := countP_kind_matched gs kind
  have hunmatched : reported gs (.unmatchedCloser kind)
      = (bracketsFrom 1 [] gs).countP (reportsUnmatched (·.1 == kind)) := by
    rw [reportsUnmatched_kind, ← brackets, reported]
  rw [countP_kind_occurrences, List.countP_nil, Nat.zero_add] at hopeners
  rw [countP_kind_occurrences] at hclosers
  rw [hunmatched, reported_unclosedOpener, droppedCount, droppedOpeners, settlements, ← hopeners,
    ← hclosers]
  rw [matchedOpeners, matchedClosers, settlements] at hmatched
  omega

end Softcode.LineCheck

namespace Softcode

/-- Adding to one kind of a tally leaves the others alone. -/
theorem Tally.get_add (t : Tally) (kind other : Bracket) (n : Int) :
    (t.add kind n).get other = t.get other + if kind = other then n else 0 := by
  cases kind <;> cases other <;> simp [Tally.add, Tally.get]

namespace BracketProfile

open LineCheck

/-! ## The counting walk keeps the stack of the check -/

/-- Unwinding the kinds of a stack is what closing does to the stack itself. -/
theorem unwind_map (kind : Bracket) (column : Nat) (stack : List Opener) :
    unwind kind (stack.map Prod.fst) = (closeBracket kind column stack).2.map Prod.fst := by
  obtain ⟨hnone, -, hbelow⟩ | ⟨dropped, opener, below, rfl, hdropped, -, hbelow⟩ :=
    closeBracket_cases kind column stack
  · have hdrop : (stack.map Prod.fst).dropWhile (· != kind) = [] := by
      rw [List.dropWhile_eq_nil_iff]
      intro other hother
      obtain ⟨opener, hopener, rfl⟩ := List.mem_map.mp hother
      simpa using hnone opener hopener
    simp only [unwind, hdrop, hbelow]
  · have hdrop : ((dropped ++ (kind, opener) :: below).map Prod.fst).dropWhile (· != kind)
        = kind :: below.map Prod.fst := by
      rw [List.map_append, List.dropWhile_append_of_pos]
      · simp
      · intro other hother
        obtain ⟨opener, hopener, rfl⟩ := List.mem_map.mp hother
        simpa using hdropped opener hopener
    simp only [unwind, hdrop, hbelow]

/-- After a glyph the counting walk has the kinds of the check's stack. -/
theorem addGlyph_stack (number column : Nat) (p : BracketProfile) (stack : List Opener)
    (g : Glyph) :
    (addGlyph number (p, stack.map Prod.fst) g).2 = (stackAfter column stack g).map Prod.fst := by
  cases g using Glyph.mark_cases with
  | none hmark =>
      obtain ⟨hopens, hcloses⟩ := g.mark?_eq_none_iff.mp hmark
      simp [addGlyph, stackAfter, hmark, hopens, hcloses]
  | opening kind hmark =>
      simp [addGlyph, stackAfter, hmark, (g.mark?_eq_opening_iff kind).mp hmark]
  | closing kind hmark =>
      simp [addGlyph, stackAfter, hmark, g.opens_eq_none_of_mark? hmark,
        (g.mark?_eq_closing_iff kind).mp hmark, unwind_map kind column]

/-- A glyph counts for what it opens and against what it closes. -/
theorem addGlyph_net (number : Nat) (p : BracketProfile) (stack : List Bracket) (g : Glyph)
    (kind : Bracket) :
    (addGlyph number (p, stack) g).1.net.get kind
      = p.net.get kind + (if g.opens = some kind then 1 else 0)
        - (if g.closes = some kind then 1 else 0) := by
  cases g using Glyph.mark_cases with
  | none hmark =>
      obtain ⟨hopens, hcloses⟩ := g.mark?_eq_none_iff.mp hmark
      simp [addGlyph, hopens, hcloses]
  | opening other hmark =>
      have hopens := (g.mark?_eq_opening_iff other).mp hmark
      simp only [addGlyph, hopens, g.closes_eq_none_of_opens hopens]
      split <;> simp [Tally.get_add]
  | closing other hmark =>
      have hcloses := (g.mark?_eq_closing_iff other).mp hmark
      simp only [addGlyph, g.opens_eq_none_of_mark? hmark, hcloses, Tally.get_add]
      by_cases hkind : other = kind
      · subst hkind
        simp only [if_true, reduceCtorEq, if_false]
        omega
      · simp [hkind]

/-- A glyph does not touch the count of openers left at line ends. -/
theorem addGlyph_lineOpen (number : Nat) (state : BracketProfile × List Bracket) (g : Glyph) :
    (addGlyph number state g).1.lineOpen = state.1.lineOpen := by
  simp only [addGlyph]
  split
  · split <;> rfl
  · split <;> rfl

/-- Over a whole line the two walks keep the same stack. -/
theorem foldl_addGlyph_stack (number column : Nat) (p : BracketProfile) (stack : List Opener)
    (gs : List Glyph) :
    (gs.foldl (addGlyph number) (p, stack.map Prod.fst)).2
      = (stackFrom column stack gs).map Prod.fst := by
  induction gs generalizing column p stack with
  | nil => rfl
  | cons g rest ih =>
      -- put the state after the glyph in the form the hypothesis speaks about
      have hstep := addGlyph_stack number column p stack g
      have hstate : addGlyph number (p, stack.map Prod.fst) g
          = ((addGlyph number (p, stack.map Prod.fst) g).1,
              (stackAfter column stack g).map Prod.fst) := by rw [← hstep]
      rw [List.foldl_cons, hstate, stackFrom]
      exact ih (column + 1) _ _

/-- Over a whole line the net count moves by openers minus closers. -/
theorem foldl_addGlyph_net (number : Nat) (state : BracketProfile × List Bracket)
    (gs : List Glyph) (kind : Bracket) :
    (gs.foldl (addGlyph number) state).1.net.get kind
      = state.1.net.get kind + gs.countP (·.opens == some kind)
        - gs.countP (·.closes == some kind) := by
  induction gs generalizing state with
  | nil => simp
  | cons g rest ih =>
      obtain ⟨p, stack⟩ := state
      rw [List.foldl_cons, ih, addGlyph_net, List.countP_cons, List.countP_cons]
      simp only [beq_iff_eq]
      split <;> split <;> push_cast <;> omega

theorem foldl_addGlyph_lineOpen (number : Nat) (state : BracketProfile × List Bracket)
    (gs : List Glyph) :
    (gs.foldl (addGlyph number) state).1.lineOpen = state.1.lineOpen := by
  induction gs generalizing state with
  | nil => rfl
  | cons g rest ih => rw [List.foldl_cons, ih, addGlyph_lineOpen]

/-! ## Sums over lines -/

/-- Adding one for each kind of a list adds the number of times a kind is in it. -/
theorem foldl_add_get (kinds : List Bracket) (t : Tally) (kind : Bracket) :
    (kinds.foldl (fun t other => t.add other 1) t).get kind = t.get kind + kinds.count kind := by
  induction kinds generalizing t with
  | nil => simp
  | cons other rest ih =>
      rw [List.foldl_cons, ih, Tally.get_add, List.count_cons]
      simp only [beq_iff_eq]
      split <;> push_cast <;> omega

/-- A line adds its openers and takes away its closers. -/
theorem addLine_netOpen (p : BracketProfile) (line : Nat × List Char) (kind : Bracket) :
    (p.addLine line).netOpen kind
      = p.netOpen kind + (Line.glyphs line.2).countP (·.opens == some kind)
        - (Line.glyphs line.2).countP (·.closes == some kind) :=
  foldl_addGlyph_net line.1 (p, []) (Line.glyphs line.2) kind

/-- The openers left at the end of a line are those that the check reports as unclosed. -/
theorem addLine_lineOpen (p : BracketProfile) (line : Nat × List Char) (kind : Bracket) :
    (p.addLine line).lineOpen.get kind
      = p.lineOpen.get kind + reported (Line.glyphs line.2) (.unclosedOpener kind) := by
  have hstack := foldl_addGlyph_stack line.1 1 p [] (Line.glyphs line.2)
  have hkept := foldl_addGlyph_lineOpen line.1 (p, []) (Line.glyphs line.2)
  rw [List.map_nil] at hstack
  simp only [addLine, foldl_add_get, hstack, hkept, reported_unclosedOpener]
  rw [List.count_eq_countP, List.countP_map]
  rfl

/-- A line adds the openers it drops to the unreported ones and takes away its unmatched closers. -/
theorem addLine_unreportedOpen (p : BracketProfile) (line : Nat × List Char) (kind : Bracket) :
    (p.addLine line).unreportedOpen kind
      = p.unreportedOpen kind + droppedCount (Line.glyphs line.2) kind
        - reported (Line.glyphs line.2) (.unmatchedCloser kind) := by
  have hnet := addLine_netOpen p line kind
  have hopen := addLine_lineOpen p line kind
  have hbalance := line_balance (Line.glyphs line.2) kind
  simp only [netOpen] at hnet
  simp only [unreportedOpen]
  omega

/-- The line-end count of a profile is the number of openers reported as unclosed. -/
theorem foldl_addLine_lineOpen (p : BracketProfile) (lines : List (Nat × List Char))
    (kind : Bracket) :
    (lines.foldl addLine p).lineOpen.get kind
      = p.lineOpen.get kind
        + (lines.map fun line => reported (Line.glyphs line.2) (.unclosedOpener kind)).sum := by
  induction lines generalizing p with
  | nil => simp
  | cons line rest ih =>
      rw [List.foldl_cons, ih, addLine_lineOpen, List.map_cons, List.sum_cons]
      omega

/-- The unreported count of a profile is what its lines drop less what they cannot match. -/
theorem foldl_addLine_unreportedOpen (p : BracketProfile) (lines : List (Nat × List Char))
    (kind : Bracket) :
    (lines.foldl addLine p).unreportedOpen kind
      = p.unreportedOpen kind
        + (lines.map fun line => droppedCount (Line.glyphs line.2) kind).sum
        - (lines.map fun line => reported (Line.glyphs line.2) (.unmatchedCloser kind)).sum := by
  induction lines generalizing p with
  | nil => simp
  | cons line rest ih =>
      rw [List.foldl_cons, ih, addLine_unreportedOpen, List.map_cons, List.sum_cons,
        List.map_cons, List.sum_cons]
      omega

/-- The unreported count over a script. -/
theorem unreportedOpen_build (lines : List (Nat × List Char)) (kind : Bracket) :
    (build lines).unreportedOpen kind
      = (lines.map fun line => droppedCount (Line.glyphs line.2) kind).sum
        - (lines.map fun line => reported (Line.glyphs line.2) (.unmatchedCloser kind)).sum := by
  have h := foldl_addLine_unreportedOpen {} lines kind
  have hzero : ({} : BracketProfile).unreportedOpen kind = 0 := by cases kind <;> rfl
  rw [hzero] at h
  rw [build]
  omega

/-- **The two walks agree.** Over any lines, the net count of a kind less its unreported count is
the number of openers that the line checks report as unclosed, and the unreported count is the
number of openers that mismatches drop less the number of closers reported as unmatched.

On every line the flaws are those of the settlements, where closing is a mismatch exactly if it
drops openers from above the one it takes. The structural opener at an index is matched, dropped or
reported as unclosed, the structural closer matched or reported as unmatched: one of these, once. -/
theorem build_accounts_for_every_bracket (lines : List (Nat × List Char)) (kind : Bracket) :
    (build lines).netOpen kind - (build lines).unreportedOpen kind
        = (lines.map fun line => reported (Line.glyphs line.2) (.unclosedOpener kind)).sum
    ∧ (build lines).unreportedOpen kind
        = (lines.map fun line => droppedCount (Line.glyphs line.2) kind).sum
          - (lines.map fun line => reported (Line.glyphs line.2) (.unmatchedCloser kind)).sum
    ∧ ∀ line : List Char,
        brackets (Line.glyphs line)
            = (settlements (Line.glyphs line)).filterMap Settlement.flaw?
        ∧ ∀ i : Nat,
          (matchedOpeners (Line.glyphs line)).count (kind, i + 1)
              + (droppedOpeners (Line.glyphs line)).count (kind, i + 1)
              + (brackets (Line.glyphs line)).count ⟨i + 1, .unclosedOpener kind⟩
            = (if (Line.glyphs line)[i]?.bind Glyph.opens = some kind then 1 else 0)
          ∧ (matchedClosers (Line.glyphs line)).count (kind, i + 1)
              + (brackets (Line.glyphs line)).count ⟨i + 1, .unmatchedCloser kind⟩
            = (if (Line.glyphs line)[i]?.bind Glyph.closes = some kind then 1 else 0) := by
  refine ⟨?_, unreportedOpen_build lines kind, fun line =>
    ⟨brackets_eq_filterMap_flaw? _, fun i =>
      ⟨opener_settled_once _ i kind, closer_settled_once _ i kind⟩⟩⟩
  have hopen := foldl_addLine_lineOpen {} lines kind
  have hzero : ({} : BracketProfile).lineOpen.get kind = 0 := by cases kind <;> rfl
  rw [hzero, Int.zero_add, ← build] at hopen
  rw [← hopen, netOpen, unreportedOpen]
  omega

end BracketProfile

end Softcode
