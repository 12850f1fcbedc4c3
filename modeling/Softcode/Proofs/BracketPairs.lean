import Softcode.Proofs.BracketAccounting

/-!
# Pairs of brackets

An opener and a closer of its kind are a pair if what stands between them nests (`Line.Pair`). This
says nothing about the walk that checks brackets, and holds or fails on broken lines too. On a line
without bracket flaws the two views agree: at every index the stack of the walk holds exactly the
openers of the pairs around it (`mem_stackAt_iff`).

`Line.matchingParen` counts parentheses alone and looks at no other kind. Its spans are disjoint or
nested on every line, and on a line without bracket flaws they are the pairs
(`matchingParen_laminar_and_exact`).
-/

namespace Softcode

theorem Line.drop_eq_cons {gs : List Glyph} {n : Nat} {g : Glyph} (h : gs[n]? = some g) :
    gs.drop n = g :: gs.drop (n + 1) := by
  rw [List.drop_eq_getElem?_toList_append, h, Option.toList_some, List.singleton_append]

theorem Line.marks_append (a b : List Glyph) : marks (a ++ b) = marks a ++ marks b :=
  List.filterMap_append

/-- The automaton reads one word after the other. -/
theorem pending_append (stack : List Bracket) (a b : List Mark) :
    pending stack (a ++ b) = (pending stack a).bind (pending · b) := by
  induction a generalizing stack with
  | nil => rfl
  | cons m a ih =>
      cases m with
      | opening kind => exact ih (kind :: stack)
      | closing kind =>
          cases stack with
          | nil => rfl
          | cons top below =>
              simp only [List.cons_append, pending]
              split
              · exact ih below
              · rfl

/-! ## Stretches that the walk passes in silence

While the automaton has an answer, every closer meets an opener of its kind on top. The walk then
reports nothing and touches nothing below the openers it started with.
-/

namespace LineCheck

theorem stackFrom_append (column : Nat) (stack : List Opener) (a b : List Glyph) :
    stackFrom column stack (a ++ b)
      = stackFrom (column + a.length) (stackFrom column stack a) b := by
  induction a generalizing column stack with
  | nil => rfl
  | cons g a ih =>
      rw [List.cons_append, stackFrom, ih, stackFrom, List.length_cons, Nat.add_assoc,
        Nat.add_comm 1]

/-- Where the automaton can pop, so can the walk. -/
theorem exists_top_of_pending {kind : Bracket} {stack : List Opener} {word : List Mark}
    {kinds : List Bracket}
    (h : pending (stack.map Prod.fst) (.closing kind :: word) = some kinds) :
    ∃ opener below, stack = (kind, opener) :: below
      ∧ pending (below.map Prod.fst) word = some kinds := by
  obtain - | ⟨⟨top, opener⟩, below⟩ := stack
  · exact absurd h (by simp [pending])
  · simp only [List.map_cons, pending] at h
    split at h
    · rename_i htop
      subst htop
      exact ⟨opener, below, rfl, h⟩
    · exact absurd h (by simp)

/-- The walk keeps the kinds that the automaton keeps, on top of whatever lies below. -/
theorem stackFrom_of_pending (stack : List Opener) {gs : List Glyph} {kinds : List Bracket}
    (h : pending (stack.map Prod.fst) (Line.marks gs) = some kinds) (column : Nat)
    (below : List Opener) :
    (stackFrom column stack gs).map Prod.fst = kinds
      ∧ stackFrom column (stack ++ below) gs = stackFrom column stack gs ++ below := by
  induction gs generalizing column stack with
  | nil => exact ⟨Option.some.inj h, rfl⟩
  | cons g gs ih =>
      cases g using Glyph.mark_cases with
      | none hmark =>
          rw [Line.marks_cons_of_none hmark] at h
          simpa only [stackFrom, stackAfter, hmark] using ih stack h (column + 1)
      | opening kind hmark =>
          rw [Line.marks_cons_of_some hmark] at h
          simpa only [stackFrom, stackAfter, hmark, List.cons_append]
            using ih ((kind, column) :: stack) h (column + 1)
      | closing kind hmark =>
          rw [Line.marks_cons_of_some hmark] at h
          obtain ⟨opener, rest, rfl, hrest⟩ := exists_top_of_pending h
          simpa only [stackFrom, stackAfter, hmark, List.cons_append, closeBracket_cons_self]
            using ih rest hrest (column + 1)

/-- The walk reports nothing as long as the automaton has an answer. -/
theorem bracketsFrom_append_of_pending (stack : List Opener) {gs : List Glyph}
    {kinds : List Bracket} (h : pending (stack.map Prod.fst) (Line.marks gs) = some kinds)
    (column : Nat) (below : List Opener) (rest : List Glyph) :
    bracketsFrom column (stack ++ below) (gs ++ rest)
      = bracketsFrom (column + gs.length) (stackFrom column stack gs ++ below) rest := by
  induction gs generalizing column stack with
  | nil => rfl
  | cons g gs ih =>
      have hlength : column + (g :: gs).length = column + 1 + gs.length := by
        rw [List.length_cons]
        omega
      rw [List.cons_append, hlength, stackFrom]
      cases g using Glyph.mark_cases with
      | none hmark =>
          rw [Line.marks_cons_of_none hmark] at h
          rw [bracketsFrom_cons_of_none hmark, ih stack h]
          simp only [stackAfter, hmark]
      | opening kind hmark =>
          rw [Line.marks_cons_of_some hmark] at h
          rw [bracketsFrom_cons_of_opening hmark, ← List.cons_append,
            ih ((kind, column) :: stack) h]
          simp only [stackAfter, hmark]
      | closing kind hmark =>
          rw [Line.marks_cons_of_some hmark] at h
          obtain ⟨opener, stack, rfl, hrest⟩ := exists_top_of_pending h
          rw [bracketsFrom_cons_of_closing hmark, List.cons_append, closeBracket_cons_self,
            List.nil_append, ih stack hrest]
          simp only [stackAfter, hmark, closeBracket_cons_self]

/-- A nested stretch leaves the stack as it was. -/
theorem stackFrom_of_wellNested {gs : List Glyph} (h : WellNested (Line.marks gs)) (column : Nat)
    (stack : List Opener) : stackFrom column stack gs = stack := by
  have hquiet := stackFrom_of_pending [] ((wellNested_iff_pending _).mp h) column stack
  rw [List.map_eq_nil_iff] at hquiet
  rw [← List.nil_append stack, hquiet.2, hquiet.1]

/-- A nested stretch has no part in what the walk reports. -/
theorem bracketsFrom_append_of_wellNested {gs : List Glyph} (h : WellNested (Line.marks gs))
    (column : Nat) (stack : List Opener) (rest : List Glyph) :
    bracketsFrom column stack (gs ++ rest) = bracketsFrom (column + gs.length) stack rest := by
  have hquiet := bracketsFrom_append_of_pending [] ((wellNested_iff_pending _).mp h)
    column stack rest
  rwa [stackFrom_of_wellNested h] at hquiet

end LineCheck

/-- A word that empties a stack runs, between nested words, through a closer for the innermost
opener. -/
theorem exists_closing_of_pending {kind : Bracket} {kinds : List Bracket} {gs : List Glyph}
    (h : pending (kind :: kinds) (Line.marks gs) = some []) :
    ∃ inner g rest, gs = inner ++ g :: rest ∧ WellNested (Line.marks inner)
      ∧ g.mark? = some (.closing kind) ∧ pending kinds (Line.marks rest) = some [] := by
  obtain ⟨innerWord, restWord, hword, hinner, -⟩ := finishes_of_pending h
  obtain ⟨inner, tail, rfl, hmarks, htail⟩ := List.filterMap_eq_append_iff.mp hword
  rw [← hmarks, ← Line.marks] at hinner
  obtain ⟨blank, g, rest, rfl, hblank, hmark, rfl⟩ := List.filterMap_eq_cons_iff.mp htail
  -- the glyphs before the closer that are no brackets belong to the nested stretch
  have hstretch : Line.marks (inner ++ blank) = Line.marks inner := by
    rw [Line.marks_append, Line.marks, Line.marks, List.filterMap_eq_nil_iff.mpr hblank,
      List.append_nil]
  refine ⟨inner ++ blank, g, rest, by simp, hstretch ▸ hinner, hmark, ?_⟩
  rw [← List.append_assoc, Line.marks_append, hstretch, Line.marks_cons_of_some hmark] at h
  rw [hinner.pending_append] at h
  simpa only [pending, if_true] using h

/-! ## The stack at an index -/

namespace LineCheck

/-- The openers on the stack of the check before the glyph at an index. -/
def stackAt (gs : List Glyph) (n : Nat) : List Opener := stackFrom 1 [] (gs.take n)

theorem stackAt_succ {gs : List Glyph} {n : Nat} {g : Glyph} (h : gs[n]? = some g) :
    stackAt gs (n + 1) = stackAfter (n + 1) (stackAt gs n) g := by
  obtain ⟨hn, -⟩ := List.getElem?_eq_some_iff.mp h
  rw [stackAt, List.take_add_one, h, stackFrom_append, List.length_take_of_le (Nat.le_of_lt hn),
    Nat.add_comm 1 n]
  rfl

theorem stackAt_succ_of_opens {gs : List Glyph} {n : Nat} {kind : Bracket}
    (h : gs[n]?.bind Glyph.opens = some kind) :
    stackAt gs (n + 1) = (kind, n + 1) :: stackAt gs n := by
  obtain ⟨g, hg, hopens⟩ := Option.bind_eq_some_iff.mp h
  simp only [stackAt_succ hg, stackAfter, (g.mark?_eq_opening_iff kind).mpr hopens]

theorem stackAt_succ_of_closes {gs : List Glyph} {n opener : Nat} {kind : Bracket}
    {below : List Opener} (h : gs[n]?.bind Glyph.closes = some kind)
    (htop : stackAt gs n = (kind, opener) :: below) : stackAt gs (n + 1) = below := by
  obtain ⟨g, hg, hcloses⟩ := Option.bind_eq_some_iff.mp h
  simp only [stackAt_succ hg, stackAfter, (g.mark?_eq_closing_iff kind).mpr hcloses, htop,
    closeBracket_cons_self]

/-- From an index on, the stack changes by what the walk meets there. -/
theorem stackAt_add {gs : List Glyph} {n : Nat} (h : n ≤ gs.length) (m : Nat) :
    stackAt gs (n + m) = stackFrom (n + 1) (stackAt gs n) ((gs.drop n).take m) := by
  rw [stackAt, List.take_add, stackFrom_append, List.length_take_of_le h, Nat.add_comm 1 n,
    ← stackAt]

/-- All that one glyph can do to the stack: push itself, or leave a part of the stack. -/
theorem stackAt_step_cases (gs : List Glyph) (n : Nat) :
    (∃ kind, gs[n]?.bind Glyph.opens = some kind
      ∧ stackAt gs (n + 1) = (kind, n + 1) :: stackAt gs n)
    ∨ (stackAt gs (n + 1)).Sublist (stackAt gs n) := by
  cases hg : gs[n]? with
  | none =>
      have hsame : stackAt gs (n + 1) = stackAt gs n := by
        rw [stackAt, List.take_add_one, hg, Option.toList_none, List.append_nil, ← stackAt]
      exact Or.inr (hsame ▸ List.Sublist.refl _)
  | some g =>
      rw [stackAt_succ hg, stackAfter]
      cases g using Glyph.mark_cases with
      | none hmark =>
          simp only [hmark]
          exact Or.inr (List.Sublist.refl _)
      | opening kind hmark =>
          simp only [hmark]
          exact Or.inl ⟨kind, (g.mark?_eq_opening_iff kind).mp hmark, rfl⟩
      | closing kind hmark =>
          simp only [hmark]
          right
          obtain ⟨-, -, hbelow⟩ | ⟨dropped, opener, below, hstack, -, -, hbelow⟩ :=
            closeBracket_cases kind (n + 1) (stackAt gs n)
          · simp [hbelow]
          · rw [hbelow, hstack]
            exact (List.sublist_cons_self _ _).trans (List.sublist_append_right _ _)

/-- What is on the stack was opened before. -/
theorem opened_of_mem_stackAt {gs : List Glyph} {n : Nat} {opener : Opener}
    (h : opener ∈ stackAt gs n) :
    ∃ i < n, opener.2 = i + 1 ∧ gs[i]?.bind Glyph.opens = some opener.1 := by
  induction n with
  | zero => exact absurd h List.not_mem_nil
  | succ n ih =>
      have hbefore : opener ∈ stackAt gs n →
          ∃ i < n + 1, opener.2 = i + 1 ∧ gs[i]?.bind Glyph.opens = some opener.1 := by
        intro hmem
        obtain ⟨i, hi, hopened⟩ := ih hmem
        exact ⟨i, Nat.lt_succ_of_lt hi, hopened⟩
      rcases stackAt_step_cases gs n with ⟨kind, hopens, hstack⟩ | hsub
      · rw [hstack, List.mem_cons] at h
        rcases h with rfl | hmem
        · exact ⟨n, Nat.lt_succ_self n, rfl, hopens⟩
        · exact hbefore hmem
      · exact hbefore (hsub.subset h)

theorem column_le_of_mem_stackAt {gs : List Glyph} {n : Nat} {opener : Opener}
    (h : opener ∈ stackAt gs n) : opener.2 ≤ n := by
  obtain ⟨i, hi, hcolumn, -⟩ := opened_of_mem_stackAt h
  omega

/-- Further in means further right. -/
theorem pairwise_stackAt (gs : List Glyph) (n : Nat) :
    (stackAt gs n).Pairwise fun inner outer => outer.2 < inner.2 := by
  induction n with
  | zero => exact List.Pairwise.nil
  | succ n ih =>
      rcases stackAt_step_cases gs n with ⟨kind, -, hstack⟩ | hsub
      · rw [hstack, List.pairwise_cons]
        exact ⟨fun opener hopener => Nat.lt_succ_of_le (column_le_of_mem_stackAt hopener), ih⟩
      · exact ih.sublist hsub

/-- An opener that is on the stack has been there since it was opened. -/
theorem mem_stackAt_of_le {gs : List Glyph} {n m : Nat} {opener : Opener} (hn : n ≤ m)
    (hcolumn : opener.2 ≤ n) (h : opener ∈ stackAt gs m) : opener ∈ stackAt gs n := by
  induction m, hn using Nat.le_induction with
  | base => exact h
  | succ m hm ih =>
      rcases stackAt_step_cases gs m with ⟨kind, -, hstack⟩ | hsub
      · rw [hstack, List.mem_cons] at h
        rcases h with rfl | hbefore
        · exact absurd hcolumn (by simp only; omega)
        · exact ih hbefore
      · exact ih (hsub.subset h)

theorem mem_settlementsFrom_append {s : Settlement} {column : Nat} {stack : List Opener}
    {a b : List Glyph} (h : s ∈ settlementsFrom (column + a.length) (stackFrom column stack a) b) :
    s ∈ settlementsFrom column stack (a ++ b) := by
  induction a generalizing column stack with
  | nil => exact h
  | cons g a ih =>
      rw [List.cons_append, settlementsFrom, List.mem_append]
      refine Or.inr (ih ?_)
      rwa [Nat.add_assoc, Nat.add_comm 1]

/-- What a closer settles is among the settlements of the line. -/
theorem mem_settlements {gs : List Glyph} {n : Nat} {g : Glyph} {s : Settlement}
    (hg : gs[n]? = some g) (hs : settleGlyph (n + 1) (stackAt gs n) g = some s) :
    s ∈ settlements gs := by
  obtain ⟨hn, -⟩ := List.getElem?_eq_some_iff.mp hg
  rw [settlements, ← List.take_append_drop n gs]
  apply mem_settlementsFrom_append
  rw [List.length_take_of_le (Nat.le_of_lt hn), Nat.add_comm 1 n, ← stackAt, Line.drop_eq_cons hg,
    settlementsFrom, hs]
  exact List.mem_append_left _ (List.mem_singleton.mpr rfl)

end LineCheck

/-! ## Pairs -/

/-- The opener at index `i` and the closer at index `j` are a pair: they are of one kind, and the
brackets between them nest. -/
structure Line.Pair (gs : List Glyph) (kind : Bracket) (i j : Nat) : Prop where
  opens : gs[i]?.bind Glyph.opens = some kind
  closes : gs[j]?.bind Glyph.closes = some kind
  lt : i < j
  nested : WellNested (Line.marks ((gs.drop (i + 1)).take (j - (i + 1))))

/-- A pair, of this kind and from `a` to `b`, is around the places from `i` to `j`. -/
def Line.PairAround (gs : List Glyph) (i j : Nat) (kind : Bracket) (a b : Nat) : Prop :=
  Line.Pair gs kind a b ∧ a < i ∧ j < b

namespace Line.Pair

open LineCheck

variable {gs : List Glyph} {kind : Bracket} {i j : Nat}

theorem closer_lt_length (h : Pair gs kind i j) : j < gs.length := by
  obtain ⟨g, hg, -⟩ := Option.bind_eq_some_iff.mp h.closes
  exact (List.getElem?_eq_some_iff.mp hg).1

/-- Inside a pair its opener is on the stack, on top of what was there before. -/
theorem stackAt_inside (h : Pair gs kind i j) {n : Nat} (hi : i < n) (hj : n ≤ j) :
    ∃ opened, stackAt gs n = opened ++ (kind, i + 1) :: stackAt gs i := by
  obtain ⟨m, rfl⟩ := Nat.exists_eq_add_of_le (Nat.succ_le_of_lt hi)
  have hlength := h.closer_lt_length
  -- up to `n` the walk reads the front of a nested stretch, which the automaton accepts
  have hfront : ∃ kinds, pending [] (marks ((gs.drop (i + 1)).take m)) = some kinds := by
    have hnested := (wellNested_iff_pending _).mp h.nested
    rw [← List.take_append_drop m (List.take _ _), List.take_take,
      Nat.min_eq_left (by omega), marks_append, pending_append] at hnested
    obtain ⟨kinds, hkinds, -⟩ := Option.bind_eq_some_iff.mp hnested
    exact ⟨kinds, hkinds⟩
  obtain ⟨kinds, hkinds⟩ := hfront
  refine ⟨stackFrom (i + 1 + 1) [] ((gs.drop (i + 1)).take m), ?_⟩
  rw [Nat.succ_eq_add_one, stackAt_add (by omega), stackAt_succ_of_opens h.opens]
  exact (stackFrom_of_pending [] hkinds _ _).2

/-- Where a pair closes, its opener is on top. -/
theorem stackAt_closer (h : Pair gs kind i j) :
    stackAt gs j = (kind, i + 1) :: stackAt gs i := by
  have hlt := h.lt
  have hlength := h.closer_lt_length
  obtain ⟨m, rfl⟩ := Nat.exists_eq_add_of_le (Nat.succ_le_of_lt hlt)
  have hnested := h.nested
  rw [Nat.succ_eq_add_one, Nat.add_sub_cancel_left] at hnested
  rw [Nat.succ_eq_add_one, stackAt_add (by omega), stackFrom_of_wellNested hnested,
    stackAt_succ_of_opens h.opens]

/-- After a pair the stack is the one before it. -/
theorem stackAt_after (h : Pair gs kind i j) : stackAt gs (j + 1) = stackAt gs i :=
  stackAt_succ_of_closes h.closes h.stackAt_closer

/-- The opener of a pair is gone from the stack once the pair is closed. -/
theorem not_mem_stackAt_of_lt (h : Pair gs kind i j) {n : Nat} (hn : j < n) (other : Bracket) :
    (other, i + 1) ∉ stackAt gs n := by
  intro hmem
  have hlt := h.lt
  have hafter := mem_stackAt_of_le (Nat.succ_le_of_lt hn) (by simp only; omega) hmem
  rw [Nat.succ_eq_add_one, h.stackAt_after] at hafter
  have hcolumn := column_le_of_mem_stackAt hafter
  simp only at hcolumn
  omega

/-- The closer of a pair takes its opener and drops nothing. -/
theorem mem_settlements (h : Pair gs kind i j) :
    .closed kind (i + 1) (j + 1) [] ∈ settlements gs := by
  obtain ⟨g, hg, hcloses⟩ := Option.bind_eq_some_iff.mp h.closes
  refine LineCheck.mem_settlements hg ?_
  simp [settleGlyph, (g.mark?_eq_closing_iff kind).mpr hcloses, h.stackAt_closer, settle]

end Line.Pair

/-! ## Lines without bracket flaws -/

namespace LineCheck

open Line (Pair)

variable {gs : List Glyph}

/-- The automaton agrees with the walk on what is open at an index, and on that it gets closed. -/
theorem pending_at (hclean : brackets gs = []) (n : Nat) :
    pending [] (Line.marks (gs.take n)) = some ((stackAt gs n).map Prod.fst)
      ∧ pending ((stackAt gs n).map Prod.fst) (Line.marks (gs.drop n)) = some [] := by
  have haccepted := (bracketsFrom_eq_nil_iff 1 [] gs).mp hclean
  rw [← List.take_append_drop n gs, Line.marks_append, pending_append] at haccepted
  obtain ⟨kinds, hfront, hback⟩ := Option.bind_eq_some_iff.mp haccepted
  rw [stackAt, (stackFrom_of_pending [] hfront 1 []).1]
  exact ⟨hfront, hback⟩

/-- Every opener has its closer. -/
theorem exists_pair_of_opens (hclean : brackets gs = []) {i : Nat} {kind : Bracket}
    (h : gs[i]?.bind Glyph.opens = some kind) : ∃ j, Pair gs kind i j := by
  have hafter := (pending_at hclean (i + 1)).2
  rw [stackAt_succ_of_opens h, List.map_cons] at hafter
  obtain ⟨inner, g, rest, hsplit, hinner, hmark, -⟩ := exists_closing_of_pending hafter
  refine ⟨i + 1 + inner.length, h, ?_, by omega, ?_⟩
  · rw [← List.getElem?_drop, hsplit, List.getElem?_append_right (Nat.le_refl _), Nat.sub_self,
      List.getElem?_cons_zero]
    exact (g.mark?_eq_closing_iff kind).mp hmark
  · rw [Nat.add_sub_cancel_left, hsplit, List.take_left]
    exact hinner

/-- An opener is on the stack at an index exactly if its pair is around that index. -/
theorem mem_stackAt_iff (hclean : brackets gs = []) {kind : Bracket} {i n : Nat} :
    (kind, i + 1) ∈ stackAt gs n ↔ ∃ j, Pair gs kind i j ∧ i < n ∧ n ≤ j := by
  constructor
  · intro h
    obtain ⟨i', hi, hcolumn, hopens⟩ := opened_of_mem_stackAt h
    obtain rfl := Nat.succ_injective hcolumn
    obtain ⟨j, hpair⟩ := exists_pair_of_opens hclean hopens
    refine ⟨j, hpair, hi, Nat.le_of_not_lt fun hj => ?_⟩
    exact hpair.not_mem_stackAt_of_lt hj kind h
  · rintro ⟨j, hpair, hi, hj⟩
    obtain ⟨opened, hstack⟩ := hpair.stackAt_inside hi hj
    rw [hstack]
    exact List.mem_append_right _ List.mem_cons_self

/-- A closer and the opener on top of the stack before it are a pair. -/
theorem pair_of_stackAt (hclean : brackets gs = []) {i j : Nat} {kind : Bracket}
    {below : List Opener} (hcloses : gs[j]?.bind Glyph.closes = some kind)
    (htop : stackAt gs j = (kind, i + 1) :: below) : Pair gs kind i j := by
  have hmem : (kind, i + 1) ∈ stackAt gs j := htop ▸ List.mem_cons_self
  obtain ⟨j', hpair, hi, hj⟩ := (mem_stackAt_iff hclean).mp hmem
  obtain rfl | hlt := Nat.eq_or_lt_of_le hj
  · exact hpair
  · -- otherwise the opener would still be there after the closer that pops it
    have hlater := (mem_stackAt_iff hclean).mpr ⟨j', hpair, Nat.lt_succ_of_lt hi, hlt⟩
    rw [Nat.succ_eq_add_one, stackAt_succ_of_closes hcloses htop] at hlater
    have hsorted := pairwise_stackAt gs j
    rw [htop, List.pairwise_cons] at hsorted
    exact absurd (hsorted.1 _ hlater) (Nat.lt_irrefl _)

/-- Every closer has its opener. -/
theorem exists_pair_of_closes (hclean : brackets gs = []) {j : Nat} {kind : Bracket}
    (h : gs[j]?.bind Glyph.closes = some kind) : ∃ i, Pair gs kind i j := by
  obtain ⟨g, hg, hcloses⟩ := Option.bind_eq_some_iff.mp h
  have hbefore := (pending_at hclean j).2
  rw [Line.drop_eq_cons hg, Line.marks_cons_of_some ((g.mark?_eq_closing_iff kind).mpr hcloses)]
    at hbefore
  obtain ⟨opener, below, hstack, -⟩ := exists_top_of_pending hbefore
  have hmem : (kind, opener) ∈ stackAt gs j := hstack ▸ List.mem_cons_self
  obtain ⟨i, -, hcolumn, -⟩ := opened_of_mem_stackAt hmem
  simp only at hcolumn
  subst hcolumn
  exact ⟨i, pair_of_stackAt hclean h hstack⟩

end LineCheck

/-! ## The partner of a parenthesis -/

namespace Line

/-- A stretch that the automaton passes moves the count of open parentheses as it moves the stack,
and never back to zero. -/
theorem closingFrom_append_of_pending (kinds : List Bracket) {kinds' : List Bracket}
    {gs : List Glyph} (h : pending kinds (marks gs) = some kinds') (index : Nat)
    (rest : List Glyph) :
    closingFrom index (kinds.count .paren + 1) (gs ++ rest)
      = closingFrom (index + gs.length) (kinds'.count .paren + 1) rest := by
  induction gs generalizing index kinds with
  | nil => rw [Option.some.inj h]; rfl
  | cons g gs ih =>
      have hlength : index + (g :: gs).length = index + 1 + gs.length := by
        rw [List.length_cons]
        omega
      rw [hlength, List.cons_append, closingFrom]
      cases g using Glyph.mark_cases with
      | none hmark =>
          obtain ⟨hopens, hcloses⟩ := g.mark?_eq_none_iff.mp hmark
          rw [marks_cons_of_none hmark] at h
          simpa [hopens, hcloses] using ih kinds h (index + 1)
      | opening kind hmark =>
          have hopens := (g.mark?_eq_opening_iff kind).mp hmark
          rw [marks_cons_of_some hmark] at h
          have hrest := ih (kind :: kinds) h (index + 1)
          rw [List.count_cons] at hrest
          by_cases hkind : kind = .paren
          · simpa [hopens, hkind] using hrest
          · simpa [hopens, g.closes_eq_none_of_opens hopens, hkind] using hrest
      | closing kind hmark =>
          have hopens := g.opens_eq_none_of_mark? hmark
          have hcloses := (g.mark?_eq_closing_iff kind).mp hmark
          rw [marks_cons_of_some hmark] at h
          obtain - | ⟨top, below⟩ := kinds
          · exact absurd h (by simp [pending])
          simp only [pending] at h
          split at h
          · rename_i htop
            subst htop
            have hrest := ih below h (index + 1)
            rw [List.count_cons]
            by_cases hkind : top = .paren
            · simpa [hopens, hcloses, hkind] using hrest
            · simpa [hopens, hcloses, hkind] using hrest
          · exact absurd h (by simp)

/-- From an opener on, one parenthesis is open. -/
theorem matchingParen_of_opens {gs : List Glyph} {i : Nat}
    (h : gs[i]?.bind Glyph.opens = some .paren) :
    matchingParen gs i = closingFrom (i + 1) 1 (gs.drop (i + 1)) := by
  obtain ⟨g, hg, hopens⟩ := Option.bind_eq_some_iff.mp h
  rw [matchingParen, drop_eq_cons hg, closingFrom]
  simp [hopens]

/-- The closer of a pair of parentheses is the partner of its opener, on every line. -/
theorem Pair.matchingParen {gs : List Glyph} {i j : Nat} (h : Pair gs .paren i j) :
    matchingParen gs i = some j := by
  obtain ⟨g, hg, hcloses⟩ := Option.bind_eq_some_iff.mp h.closes
  have hlt := h.lt
  have hlength := h.closer_lt_length
  have hquiet := closingFrom_append_of_pending [] ((wellNested_iff_pending _).mp h.nested) (i + 1)
    ((gs.drop (i + 1)).drop (j - (i + 1)))
  have hend : i + 1 + (j - (i + 1)) = j := by omega
  have hinside : j - (i + 1) ≤ (gs.drop (i + 1)).length := by
    rw [List.length_drop]
    omega
  rw [List.take_append_drop, List.drop_drop, hend, List.length_take_of_le hinside, hend,
    List.count_nil, Nat.zero_add, drop_eq_cons hg, closingFrom] at hquiet
  rw [matchingParen_of_opens h.opens, hquiet]
  have hopens := g.opens_eq_none_of_mark? ((g.mark?_eq_closing_iff .paren).mpr hcloses)
  simp [hopens, hcloses]

/-- What the count finds is a closing parenthesis further on. -/
theorem closes_of_closingFrom {index pending m : Nat} {gs : List Glyph}
    (h : closingFrom index pending gs = some m) :
    ∃ k, m = index + k ∧ gs[k]?.bind Glyph.closes = some .paren := by
  fun_induction closingFrom index pending gs with
  | case1 => exact absurd h (by simp)
  | case2 index pending g rest _ ih | case5 index pending g rest _ _ ih =>
      obtain ⟨k, rfl, hk⟩ := ih h
      exact ⟨k + 1, by omega, hk⟩
  | case3 index pending g rest _ hcloses _ =>
      obtain rfl := Option.some.inj h
      exact ⟨0, rfl, by simpa using hcloses⟩
  | case4 index pending g rest _ _ _ ih =>
      obtain ⟨k, rfl, hk⟩ := ih h
      exact ⟨k + 1, by omega, hk⟩

/-- With fewer parentheses open the count comes to its end earlier. -/
theorem exists_closingFrom_lt {index fewer more m : Nat} {gs : List Glyph} (hfewer : 0 < fewer)
    (hlt : fewer < more) (h : closingFrom index more gs = some m) :
    ∃ m' < m, closingFrom index fewer gs = some m' := by
  fun_induction closingFrom index more gs generalizing fewer with
  | case1 => exact absurd h (by simp)
  | case2 index more g rest hopens ih =>
      simpa only [closingFrom, hopens, if_true] using ih (Nat.succ_pos fewer) (by omega) h
  | case3 => omega
  | case4 index more g rest hopens hcloses hmore ih =>
      simp only [closingFrom, hopens, hcloses, if_true, Bool.false_eq_true, if_false]
      split
      · obtain ⟨k, rfl, -⟩ := closes_of_closingFrom h
        exact ⟨index, by omega, rfl⟩
      · exact ih (by omega) (by omega) h
  | case5 index more g rest hopens hcloses ih =>
      simpa only [closingFrom, hopens, hcloses, Bool.false_eq_true, if_false]
        using ih hfewer hlt h

/-- A count that ends past some glyphs has parentheses open after them. -/
theorem exists_closingFrom_of_append {index pending m : Nat} {a b : List Glyph}
    (hpending : 0 < pending) (h : closingFrom index pending (a ++ b) = some m)
    (hm : index + a.length ≤ m) :
    ∃ pending', 0 < pending' ∧ closingFrom (index + a.length) pending' b = some m := by
  induction a generalizing index pending with
  | nil => exact ⟨pending, hpending, h⟩
  | cons g a ih =>
      rw [List.length_cons, ← Nat.add_assoc, Nat.add_right_comm] at hm ⊢
      rw [List.cons_append, closingFrom] at h
      split at h
      · exact ih (Nat.succ_pos pending) h hm
      · split at h
        · split at h
          · obtain rfl := Option.some.inj h
            omega
          · exact ih (by omega) h hm
        · exact ih hpending h hm

/-- The spans of two parentheses are disjoint, or the later one lies inside the earlier. -/
theorem matchingParen_laminar {gs : List Glyph} {i j m : Nat}
    (hi : gs[i]?.bind Glyph.opens = some .paren) (hj : gs[j]?.bind Glyph.opens = some .paren)
    (hij : i < j) (h : matchingParen gs i = some m) :
    m < j ∨ ∃ m', matchingParen gs j = some m' ∧ j < m' ∧ m' < m := by
  obtain hlt | hle := Nat.lt_or_ge m j
  · exact Or.inl hlt
  right
  obtain ⟨g, hg, hopens⟩ := Option.bind_eq_some_iff.mp hj
  obtain ⟨hlength, -⟩ := List.getElem?_eq_some_iff.mp hg
  have hend : i + 1 + (j - (i + 1)) = j := by omega
  -- at `j` the count for `i` has at least one open, so after it at least two
  rw [matchingParen_of_opens hi, ← List.take_append_drop (j - (i + 1)) (gs.drop (i + 1))] at h
  have hreach := exists_closingFrom_of_append Nat.one_pos h
  rw [List.length_take_of_le (by rw [List.length_drop]; omega), List.drop_drop, hend] at hreach
  obtain ⟨open', hopen', hcount⟩ := hreach hle
  rw [drop_eq_cons hg, closingFrom] at hcount
  simp only [hopens, beq_self_eq_true, if_true] at hcount
  obtain ⟨m', hlt, hm'⟩ := exists_closingFrom_lt Nat.one_pos (by omega) hcount
  obtain ⟨k, rfl, -⟩ := closes_of_closingFrom hm'
  exact ⟨_, by rw [matchingParen_of_opens hj, hm'], by omega, hlt⟩

theorem closes_of_matchingParen {gs : List Glyph} {i m : Nat}
    (hi : gs[i]?.bind Glyph.opens = some .paren) (h : matchingParen gs i = some m) :
    i < m ∧ gs[m]?.bind Glyph.closes = some .paren := by
  rw [matchingParen_of_opens hi] at h
  obtain ⟨k, rfl, hcloses⟩ := closes_of_closingFrom h
  rw [List.getElem?_drop] at hcloses
  exact ⟨by omega, hcloses⟩

end Line

/-- **Partners of parentheses.** On every line the partner of an opening parenthesis is a closing
one after it, and of two opening parentheses the later one either comes after the partner of the
earlier, or has its own partner strictly inside. On a line without bracket flaws every opening
parenthesis has a partner, which is the closer that takes it off the stack of the check without
dropping anything, and the brackets between the two nest. -/
theorem matchingParen_laminar_and_exact (line : List Char) :
    (∀ i m, (Line.glyphs line)[i]?.bind Glyph.opens = some .paren →
      Line.matchingParen (Line.glyphs line) i = some m →
        i < m ∧ (Line.glyphs line)[m]?.bind Glyph.closes = some .paren
        ∧ ∀ j, i < j → (Line.glyphs line)[j]?.bind Glyph.opens = some .paren →
          m < j ∨ ∃ m', Line.matchingParen (Line.glyphs line) j = some m' ∧ j < m' ∧ m' < m)
    ∧ (LineCheck.brackets (Line.glyphs line) = [] →
        ∀ i, (Line.glyphs line)[i]?.bind Glyph.opens = some .paren →
          ∃ m, Line.matchingParen (Line.glyphs line) i = some m
            ∧ .closed .paren (i + 1) (m + 1) [] ∈ LineCheck.settlements (Line.glyphs line)
            ∧ WellNested
                (Line.marks (((Line.glyphs line).drop (i + 1)).take (m - (i + 1))))) := by
  refine ⟨fun i m hi hm => ?_, fun hclean i hi => ?_⟩
  · obtain ⟨hlt, hcloses⟩ := Line.closes_of_matchingParen hi hm
    exact ⟨hlt, hcloses, fun j hij hj => Line.matchingParen_laminar hi hj hij hm⟩
  · obtain ⟨m, hpair⟩ := LineCheck.exists_pair_of_opens hclean hi
    exact ⟨m, hpair.matchingParen, hpair.mem_settlements, hpair.nested⟩

/-- Nested calls on a line where a bracket never closes, and on one where all do. -/
theorem matchingParen_laminar_and_exact_nested_calls :
    (∃ gs, gs = Line.glyphs "f([g(ab),c)".toList ∧ LineCheck.brackets gs ≠ []
      ∧ gs[1]?.bind Glyph.opens = some .paren ∧ gs[4]?.bind Glyph.opens = some .paren
      ∧ Line.matchingParen gs 1 = some 10
      ∧ ∃ m', Line.matchingParen gs 4 = some m' ∧ 4 < m' ∧ m' < 10)
    ∧ ∃ gs, gs = Line.glyphs "f([g(a)],b)".toList ∧ LineCheck.brackets gs = []
      ∧ gs[4]?.bind Glyph.opens = some .paren
      ∧ ∃ m, Line.matchingParen gs 4 = some m
        ∧ .closed .paren 5 (m + 1) [] ∈ LineCheck.settlements gs := by
  constructor
  · have hlaminar := (matchingParen_laminar_and_exact "f([g(ab),c)".toList).1 1 10 rfl (by decide)
    refine ⟨_, rfl, by decide, rfl, rfl, by decide, ?_⟩
    exact (hlaminar.2.2 4 (by decide) rfl).resolve_left (by decide)
  · obtain ⟨m, hm, hsettled, -⟩ :=
      (matchingParen_laminar_and_exact "f([g(a)],b)".toList).2 (by decide) 4 rfl
    exact ⟨_, rfl, by decide, rfl, m, hm, hsettled⟩

end Softcode
