import Softcode.Practice.Maintainability
import Softcode.Proofs.CallSites
import Softcode.Proofs.Columns
import Softcode.Proofs.SubstitutionGrammar

/-!
# Magic numbers

Which numerals of a line the maintainability check reports, and where that is not what its rule
says.

A numeral is a longest run of structural digits. The rule leaves out those that stand in what the
search for substitutions takes for itself (`Line.stretches`). The check does not ask the search; it
looks at the character before a numeral, and takes a `%` there for the start of a substitution. So
it reports numerals in the name of a register, and misses those behind an escaped `%` or a pair
`%%`; it also misses those that do not fit a word of 64 bits. These are all numerals the two are at
odds about, and the check does what the rule says on a line exactly if each of them comes after a
numeral with the same value that both agree on (`magic_numbers_exact`).
-/

namespace Softcode

namespace Line

/-! ## What the search for substitutions takes -/

/-- What the search for substitutions takes in one step: a structural `%` and what belongs to it.
Without a reference this is a pair, or a `%` with nothing structural behind it. -/
structure Stretch where
  column : Nat
  length : Nat
  reference : Option Reference
  deriving DecidableEq, Repr

namespace Stretch

/-- The column after the last character of a stretch. -/
def stop (s : Stretch) : Nat := s.column + s.length

/-- The substitution that a stretch is reported as. -/
def substitution? (s : Stretch) : Option Substitution := s.reference.map (Substitution.mk s.column)

end Stretch

/-- The stretches among glyphs that start at `column`; the first `skip` glyphs belong to one already
taken. -/
def stretchesFrom (column skip : Nat) : List Glyph → List Stretch
  | [] => []
  | g :: rest =>
    match skip with
    | n + 1 => stretchesFrom (column + 1) n rest
    | 0 =>
      if g.isCodeChar '%' then
        let found := referenceAt rest
        ⟨column, 1 + found.2, found.1⟩ :: stretchesFrom (column + 1) found.2 rest
      else stretchesFrom (column + 1) 0 rest

/-- The stretches of a line, from left to right. -/
def stretches (gs : List Glyph) : List Stretch := stretchesFrom 1 0 gs

/-- The substitutions are the stretches with a reference. -/
theorem filterMap_stretchesFrom (column skip : Nat) (gs : List Glyph) :
    (stretchesFrom column skip gs).filterMap Stretch.substitution?
      = substitutionsFrom column skip gs := by
  induction gs generalizing column skip with
  | nil => rfl
  | cons g rest ih =>
      cases skip with
      | succ n => exact ih (column + 1) n
      | zero =>
          rw [stretchesFrom, substitutionsFrom]
          split
          · simp only [List.filterMap_cons, ih, Stretch.substitution?]
            cases (referenceAt rest).1 <;> rfl
          · exact ih (column + 1) 0

/-- The glyph in a column, counted from one. -/
def GlyphAt (gs : List Glyph) (column : Nat) (g : Glyph) : Prop :=
  1 ≤ column ∧ gs[column - 1]? = some g

/-- One glyph stands at a column. -/
theorem GlyphAt.unique {gs : List Glyph} {column : Nat} {g h : Glyph} (hg : GlyphAt gs column g)
    (hh : GlyphAt gs column h) : g = h :=
  Option.some.inj (hg.2.symm.trans hh.2)

/-- The last glyph in front stands at the column that counts the glyphs in front. -/
theorem glyphAt_of_mem_getLast? {front : List Glyph} {g : Glyph} (hg : g ∈ front.getLast?)
    (rest : List Glyph) : GlyphAt (front ++ rest) front.length g := by
  obtain ⟨init, rfl⟩ := List.getLast?_eq_some_iff.mp hg
  exact ⟨by simp, by simp⟩

/-- The columns behind a front part count on from it. -/
theorem glyphAt_append {before rest : List Glyph} {j : Nat} {g : Glyph} :
    GlyphAt (before ++ rest) (before.length + 1 + j) g ↔ rest[j]? = some g := by
  have hplace : before.length + 1 + j - 1 - before.length = j := by omega
  rw [GlyphAt, List.getElem?_append_right (by omega), hplace]
  exact and_iff_right (by omega)

/-- What a stretch of a given length that starts at a column consists of, and what ends it. -/
inductive Shape (gs : List Glyph) (column : Nat) : Option Reference → Nat → Prop where
  | positional {index n : Nat} : 0 < n →
      (∀ x, column < x → x ≤ column + n → ∃ g, GlyphAt gs x g ∧ g.isCodeDigit = true) →
      Shape gs column (some (.positional index)) (1 + n)
  | closed {name : String} {n : Nat} : GlyphAt gs (column + n) ⟨'>', .code⟩ →
      Shape gs column (some (.named name true)) (1 + n)
  | unclosed {name : String} {n : Nat} :
      (∀ g, GlyphAt gs (column + 1 + n) g → g.isCode = false) →
      Shape gs column (some (.named name false)) (1 + n)
  | short {mark register c : Char} : IsRegisterMark mark → GlyphAt gs (column + 1) ⟨mark, .code⟩ →
      register.isAlphanum = true → GlyphAt gs (column + 2) ⟨register, .code⟩ →
      Shape gs column (some (.short c)) 3
  | pair {c : Char} : c.isDigit = false → GlyphAt gs (column + 1) ⟨c, .code⟩ →
      Shape gs column none 2
  | lone : (∀ g, GlyphAt gs (column + 1) g → g.isCode = false) → Shape gs column none 1

/-- A reference of the grammar has the shape of one where it stands. -/
theorem Refers.shape {body after : List Char} {reference : Reference}
    (h : Refers body reference after) (before : List Glyph) {rest : List Glyph}
    (hrest : EndsRun rest) :
    Shape (before ++ ⟨'%', .code⟩ :: (asCode (body ++ after) ++ rest)) (before.length + 1)
      (some reference) (1 + body.length) := by
  have hat : ∀ {j : Nat} {c : Char}, body[j]? = some c →
      GlyphAt (before ++ ⟨'%', .code⟩ :: (asCode (body ++ after) ++ rest))
        (before.length + 1 + (j + 1)) ⟨c, .code⟩ := by
    intro j c hj
    have hlt : j < body.length := (List.getElem?_eq_some_iff.mp hj).1
    rw [glyphAt_append, List.getElem?_cons_succ, asCode_append, List.append_assoc,
      List.getElem?_append_left (by simpa using hlt), asCode, List.getElem?_map, hj,
      Option.map_some]
  cases h with
  | positional hne hdigits _ =>
      refine .positional (List.length_pos_iff.mpr hne) fun x hlt hle => ?_
      obtain ⟨j, rfl⟩ : ∃ j, x = before.length + 1 + (j + 1) :=
        ⟨x - (before.length + 2), by omega⟩
      have hj : body[j]? = some body[j] := List.getElem?_eq_getElem (by omega)
      exact ⟨_, hat hj, hdigits _ (List.mem_of_getElem? hj)⟩
  | @closed mark name _ _ _ =>
      have hend : (mark :: '<' :: (name ++ ['>']))[name.length + 2]? = some '>' := by simp
      refine .closed ?_
      rw [List.length_cons, List.length_cons, List.length_append]
      exact hat hend
  | @unclosed mark name _ _ =>
      refine .unclosed fun g hg => ?_
      rw [Nat.add_assoc, glyphAt_append, Nat.add_comm 1, List.getElem?_cons_succ, List.append_nil,
        List.getElem?_append_right (by simp), length_asCode, Nat.sub_self,
        ← List.head?_eq_getElem?] at hg
      exact hrest g hg
  | @short mark register _ hmark hregister =>
      exact .short hmark (@hat 0 mark rfl) hregister (@hat 1 register rfl)

/-- What is taken behind a percent sign has a shape, when a run of code characters follows. -/
theorem shape_of_endsRun (before : List Glyph) (run : List Char) {rest : List Glyph}
    (hrest : EndsRun rest) :
    Shape (before ++ ⟨'%', .code⟩ :: (asCode run ++ rest)) (before.length + 1)
      (referenceAt (asCode run ++ rest)).1 (1 + (referenceAt (asCode run ++ rest)).2) := by
  cases run with
  | nil =>
      rw [asCode, List.map_nil, List.nil_append, referenceAt_of_endsRun hrest]
      refine .lone fun g hg => ?_
      rw [glyphAt_append, List.getElem?_cons_succ, ← List.head?_eq_getElem?] at hg
      exact hrest g hg
  | cons c run =>
      obtain ⟨body, reference, after, hrefers, hrun⟩ | hnone := exists_refers_or hrest c run
      · rw [hrun, referenceAt_of_refers hrest hrefers]
        exact hrefers.shape before hrest
      · rw [hnone]
        refine .pair (eq_false_of_ne_true ?_) (glyphAt_append.mpr rfl)
        -- with a digit the search would have found a positional argument
        intro hdigit
        rw [asCode_cons, List.cons_append, referenceAt_cons, hdigit] at hnone
        exact absurd (congrArg Prod.fst hnone) (by simp [Glyph.isCode])

/-- What is taken behind a percent sign has a shape, whatever follows. -/
theorem shape_referenceAt (before rest : List Glyph) :
    Shape (before ++ ⟨'%', .code⟩ :: rest) (before.length + 1) (referenceAt rest).1
      (1 + (referenceAt rest).2) := by
  induction rest using run_induction with
  | last run =>
      have hshape := shape_of_endsRun before run endsRun_nil
      rwa [List.append_nil] at hshape
  | split run g rest hg _ => exact shape_of_endsRun before run (endsRun_cons hg rest)

/-- A stretch starts at a structural `%` and has a shape. -/
theorem shape_of_mem_stretchesFrom {past gs : List Glyph} {skip : Nat} {s : Stretch}
    (h : s ∈ stretchesFrom (past.length + 1) skip gs) :
    GlyphAt (past ++ gs) s.column ⟨'%', .code⟩
      ∧ Shape (past ++ gs) s.column s.reference s.length := by
  induction gs generalizing past skip with
  | nil => exact absurd h List.not_mem_nil
  | cons g gs ih =>
      have hlater : ∀ skip, s ∈ stretchesFrom (past.length + 1 + 1) skip gs →
          GlyphAt (past ++ g :: gs) s.column ⟨'%', .code⟩
            ∧ Shape (past ++ g :: gs) s.column s.reference s.length := by
        intro skip hs
        have hlength : past.length + 1 = (past ++ [g]).length := by simp
        rw [hlength] at hs
        rw [List.append_cons]
        exact ih hs
      cases skip with
      | succ n => exact hlater n h
      | zero =>
          rw [stretchesFrom] at h
          split at h
          · rename_i hpercent
            rcases List.mem_cons.mp h with rfl | hs
            · rw [Glyph.isCodeChar_iff.mp hpercent]
              exact ⟨(@glyphAt_append past _ 0 _).mpr rfl, shape_referenceAt past gs⟩
            · exact hlater _ hs
          · exact hlater 0 h

/-- Each stretch starts at a percent sign of the code and has a shape. -/
theorem shape_of_mem_stretches {gs : List Glyph} {s : Stretch} (h : s ∈ stretches gs) :
    GlyphAt gs s.column ⟨'%', .code⟩ ∧ Shape gs s.column s.reference s.length :=
  @shape_of_mem_stretchesFrom [] gs 0 s h

/-- Every structural `%` is part of a stretch. -/
theorem exists_stretch_of_percent {column skip i : Nat} {gs : List Glyph}
    (hskip : skip ≤ i) (hi : gs[i]? = some ⟨'%', .code⟩) :
    ∃ s ∈ stretchesFrom column skip gs, s.column ≤ column + i ∧ column + i < s.stop := by
  induction gs generalizing column skip i with
  | nil => exact absurd hi (by simp)
  | cons g gs ih =>
      cases skip with
      | succ n =>
          obtain ⟨j, rfl⟩ : ∃ j, i = j + 1 := Nat.exists_eq_succ_of_ne_zero (by omega)
          obtain ⟨s, hs, hle, hlt⟩ := @ih (column + 1) _ _ (Nat.le_of_succ_le_succ hskip) hi
          exact ⟨s, hs, by omega, by omega⟩
      | zero =>
          rw [stretchesFrom]
          cases i with
          | zero =>
              rw [List.getElem?_cons_zero, Option.some.injEq] at hi
              rw [hi, if_pos (by decide)]
              exact ⟨_, List.mem_cons_self, Nat.le_refl _, by simp [Stretch.stop]⟩
          | succ j =>
              rw [List.getElem?_cons_succ] at hi
              split
              · by_cases htaken : j < (referenceAt gs).2
                · refine ⟨_, List.mem_cons_self, Nat.le_add_right _ _, ?_⟩
                  simp only [Stretch.stop]
                  omega
                · obtain ⟨s, hs, hle, hlt⟩ := @ih (column + 1) _ _ (Nat.le_of_not_lt htaken) hi
                  exact ⟨s, List.mem_cons_of_mem _ hs, by omega, by omega⟩
              · obtain ⟨s, hs, hle, hlt⟩ := @ih (column + 1) _ _ (Nat.zero_le j) hi
                exact ⟨s, hs, by omega, by omega⟩

end Line

namespace Practice

open Line

/-! ## Numerals of a line -/

namespace Numeral

/-- The number that a numeral stands for. -/
def value (n : Numeral) : Nat := Text.decimalValue n.digits

/-- The column after the last digit. -/
def stop (n : Numeral) : Nat := n.column + n.digits.length

/-- Some column belongs to the numeral and to the stretch. -/
def Overlaps (n : Numeral) (s : Stretch) : Prop := s.column < n.stop ∧ n.column < s.stop

end Numeral

/-- The numeral is a longest run of structural digits among the glyphs, and the character before it,
if there is one, meets a condition. -/
def NumeralBehind (gs : List Glyph) (before : Char → Prop) (n : Numeral) : Prop :=
  ∃ front run back, gs = front ++ run ++ back ∧ IsRun Glyph.isCodeDigit front run back
    ∧ n = ⟨front.length + 1, chars run⟩ ∧ ∀ g ∈ front.getLast?, before g.char

/-- What the rule asks for: a number above ten in two digits or more, apart from all that the search
for substitutions takes, and not part of a name, of an object number or of a fraction. -/
structure Specified (gs : List Glyph) (n : Numeral) : Prop where
  numeral : NumeralBehind gs (fun c => Text.isWordChar c = false ∧ c ≠ '#' ∧ c ≠ '.') n
  two_le : 2 ≤ n.digits.length
  large : 10 < n.value
  apart : ∀ s ∈ stretches gs, ¬ n.Overlaps s

/-- What the check takes: it asks for a number that fits a word, and for another character than `%`
before it. -/
structure Taken (gs : List Glyph) (n : Numeral) : Prop where
  numeral : NumeralBehind gs
    (fun c => Text.isWordChar c = false ∧ c ≠ '#' ∧ c ≠ '.' ∧ c ≠ '%') n
  two_le : 2 ≤ n.digits.length
  large : 10 < n.value
  fits : n.value < 2 ^ 64

/-- No numeral of the kind with the same value comes before this one. -/
def IsFirst (kind : Numeral → Prop) (n : Numeral) : Prop :=
  kind n ∧ ∀ m, kind m → m.value = n.value → n.column ≤ m.column

/-- The numerals of a kind, each value once, where it comes first, from left to right. -/
structure ListsFirst (kind : Numeral → Prop) (numerals : List Numeral) : Prop where
  ordered : numerals.Pairwise fun m n => m.column < n.column
  mem_iff : ∀ n, n ∈ numerals ↔ IsFirst kind n

/-! ## The walk over a line -/

/-- The characters behind which a numeral can start. -/
theorem bindsNumeral_eq_false_iff {c : Char} :
    bindsNumeral c = false ↔ Text.isWordChar c = false ∧ c ≠ '#' ∧ c ≠ '.' ∧ c ≠ '%' := by
  simp only [bindsNumeral, Bool.or_eq_false_iff, beq_eq_false_iff_ne]
  tauto

/-- A digit is none of them. -/
theorem isCodeDigit_of_bindsNumeral {g : Glyph} (h : bindsNumeral g.char = false) :
    g.isCodeDigit = false := by
  have hword := (bindsNumeral_eq_false_iff.mp h).1
  simp only [Text.isWordChar, Char.isAlphanum, Bool.or_eq_false_iff] at hword
  rw [Glyph.isCodeDigit, hword.1.2, Bool.and_false]

/-- The numerals of a walk start at its first glyph or behind it. -/
theorem mem_numeralsFrom_cons {column : Nat} {before : Option Char} {g : Glyph}
    {rest : List Glyph} {n : Numeral} :
    n ∈ numeralsFrom column before (g :: rest)
      ↔ (g.isCodeDigit = true ∧ (∀ c ∈ before, bindsNumeral c = false)
          ∧ n = ⟨column, chars ((g :: rest).takeWhile Glyph.isCodeDigit)⟩)
        ∨ n ∈ numeralsFrom (column + 1) (some g.char) rest := by
  have hbefore : (!before.any bindsNumeral) = true ↔ ∀ c ∈ before, bindsNumeral c = false := by
    cases before <;> simp
  rw [numeralsFrom, ← hbefore]
  split
  · rename_i hstarts
    rw [Bool.and_eq_true] at hstarts
    simp [hstarts.1, hstarts.2]
  · rename_i hstarts
    rw [Bool.and_eq_true] at hstarts
    constructor
    · exact Or.inr
    · rintro (⟨hdigit, hfree, -⟩ | hlater)
      · exact absurd ⟨hdigit, hfree⟩ hstarts
      · exact hlater

/-- The induction is on the glyphs still to come; `past` holds those the walk has passed. -/
theorem mem_numeralsFrom_iff {past rest : List Glyph} {n : Numeral} :
    n ∈ numeralsFrom (past.length + 1) (past.getLast?.map Glyph.char) rest
      ↔ ∃ skipped run back, rest = skipped ++ run ++ back
          ∧ IsRun Glyph.isCodeDigit (past ++ skipped) run back
          ∧ n = ⟨(past ++ skipped).length + 1, chars run⟩
          ∧ ∀ g ∈ (past ++ skipped).getLast?, bindsNumeral g.char = false := by
  induction rest generalizing past with
  | nil =>
      constructor
      · intro h
        exact absurd h List.not_mem_nil
      · rintro ⟨skipped, run, back, hrest, hrun, -⟩
        rw [List.nil_eq, List.append_eq_nil_iff, List.append_eq_nil_iff] at hrest
        exact absurd hrest.1.2 hrun.ne_nil
  | cons g rest ih =>
      have hlater : n ∈ numeralsFrom (past.length + 1 + 1) (some g.char) rest
          ↔ n ∈ numeralsFrom ((past ++ [g]).length + 1) ((past ++ [g]).getLast?.map Glyph.char)
              rest := by
        rw [List.length_append, List.getLast?_concat]
        rfl
      rw [mem_numeralsFrom_cons, hlater, ih]
      constructor
      · rintro (⟨hdigit, hfree, rfl⟩ | ⟨skipped, run, back, rfl, hrun, rfl, hfree⟩)
        · have hbefore : ∀ h ∈ past.getLast?, bindsNumeral h.char = false := by
            intro h hh
            exact hfree h.char (by simp [Option.mem_def.mp hh])
          refine ⟨[], (g :: rest).takeWhile Glyph.isCodeDigit,
            (g :: rest).dropWhile Glyph.isCodeDigit, List.takeWhile_append_dropWhile.symm,
            ?_, ?_, ?_⟩
          · rw [List.append_nil]
            exact ⟨by simp [hdigit], fun h => List.mem_takeWhile_imp,
              fun h hh => isCodeDigit_of_bindsNumeral (hbefore h hh), head?_dropWhile _⟩
          · rw [List.append_nil]
          · rwa [List.append_nil]
        · exact ⟨g :: skipped, run, back, rfl, by simpa using hrun, by simp, by simpa using hfree⟩
      · rintro ⟨- | ⟨first, skipped⟩, run, back, hrest, hrun, rfl, hfree⟩
        · left
          rw [List.append_nil] at hrun hfree
          rw [List.nil_append] at hrest
          obtain ⟨d, digits, rfl⟩ := List.exists_cons_of_ne_nil hrun.ne_nil
          obtain ⟨rfl, -⟩ := List.cons.inj hrest
          refine ⟨hrun.all g List.mem_cons_self, ?_, ?_⟩
          · rintro c hc
            obtain ⟨h, hh, rfl⟩ := Option.map_eq_some_iff.mp hc
            exact hfree h hh
          · rw [hrest, takeWhile_append_of_head? hrun.all hrun.back_not, List.append_nil]
        · right
          obtain ⟨rfl, rfl⟩ := List.cons.inj hrest
          exact ⟨skipped, run, back, rfl, by simpa using hrun, by simp, by simpa using hfree⟩

/-- The numerals of a line are the runs of digits behind such a character. -/
theorem mem_numerals_iff {gs : List Glyph} {n : Numeral} :
    n ∈ numeralsFrom 1 none gs
      ↔ NumeralBehind gs (fun c => Text.isWordChar c = false ∧ c ≠ '#' ∧ c ≠ '.' ∧ c ≠ '%') n := by
  have hwalk := @mem_numeralsFrom_iff [] gs n
  simp only [List.nil_append, bindsNumeral_eq_false_iff] at hwalk
  exact hwalk

/-- The numerals of a walk come in the order of their columns. -/
theorem pairwise_numeralsFrom (column : Nat) (before : Option Char) (gs : List Glyph) :
    (numeralsFrom column before gs).Pairwise fun m n => m.column < n.column := by
  induction gs generalizing column before with
  | nil => exact .nil
  | cons g rest ih =>
      rw [numeralsFrom]
      split
      · refine List.pairwise_cons.mpr ⟨?_, ih _ _⟩
        intro n hn
        exact (onGlyphs_of_mem_numeralsFrom hn).1
      · exact ih _ _

/-! ## The first numeral of each value -/

theorem firstOfValue_cons (seen : List Nat) (first : Numeral) (rest : List Numeral) :
    firstOfValue seen (first :: rest)
      = if seen.contains first.value then firstOfValue seen rest
        else first :: firstOfValue (first.value :: seen) rest := rfl

/-- Of ordered numerals, those stay that are new in value and the first with it. -/
theorem mem_firstOfValue_iff {seen : List Nat} {numerals : List Numeral} {n : Numeral}
    (hordered : numerals.Pairwise fun m n => m.column < n.column) :
    n ∈ firstOfValue seen numerals
      ↔ n ∈ numerals ∧ n.value ∉ seen
        ∧ ∀ m ∈ numerals, m.value = n.value → n.column ≤ m.column := by
  induction numerals generalizing seen with
  | nil => simp [firstOfValue]
  | cons first rest ih =>
      obtain ⟨hfirst, hrest⟩ := List.pairwise_cons.mp hordered
      rw [firstOfValue_cons]
      split
      · rename_i hseen
        rw [List.contains_iff_mem] at hseen
        rw [ih hrest]
        constructor
        · rintro ⟨hn, hnew, hleast⟩
          refine ⟨List.mem_cons_of_mem _ hn, hnew, ?_⟩
          intro m hm hvalue
          rcases List.mem_cons.mp hm with rfl | hm
          · exact absurd (hvalue ▸ hseen) hnew
          · exact hleast m hm hvalue
        · rintro ⟨hn, hnew, hleast⟩
          refine ⟨?_, hnew, fun m hm => hleast m (List.mem_cons_of_mem _ hm)⟩
          rcases List.mem_cons.mp hn with rfl | hn
          · exact absurd hseen hnew
          · exact hn
      · rename_i hnew
        rw [List.contains_iff_mem] at hnew
        rw [List.mem_cons, ih hrest]
        constructor
        · rintro (rfl | ⟨hn, hother, hleast⟩)
          · refine ⟨List.mem_cons_self, hnew, ?_⟩
            intro m hm _
            rcases List.mem_cons.mp hm with rfl | hm
            · exact Nat.le_refl _
            · exact (hfirst m hm).le
          · obtain ⟨hvalue, hn'⟩ := not_or.mp (mt List.mem_cons.mpr hother)
            refine ⟨List.mem_cons_of_mem _ hn, hn', ?_⟩
            intro m hm hsame
            rcases List.mem_cons.mp hm with rfl | hm
            · exact absurd hsame.symm hvalue
            · exact hleast m hm hsame
        · rintro ⟨hn, hother, hleast⟩
          rcases List.mem_cons.mp hn with rfl | hn
          · exact Or.inl rfl
          · refine Or.inr ⟨hn, ?_, fun m hm => hleast m (List.mem_cons_of_mem _ hm)⟩
            -- the first numeral comes before `n`, so it has another value
            intro hmem
            rcases List.mem_cons.mp hmem with hsame | hmem
            · have hle := hleast first List.mem_cons_self hsame.symm
              exact absurd (hfirst n hn) (Nat.not_lt.mpr hle)
            · exact hother hmem

/-- A numeral is magic when it has two digits or more, is above ten and fits a machine word. -/
theorem isMagic_iff {n : Numeral} :
    isMagic n = true ↔ 2 ≤ n.digits.length ∧ 10 < n.value ∧ n.value < 2 ^ 64 := by
  simp only [isMagic, Bool.and_eq_true, decide_eq_true_eq]
  simp only [magicNumberFloor, Text.wordMax, UInt64.size, Numeral.value]
  omega

/-- The numerals that the check reports on a line. -/
def reportedNumerals (gs : List Glyph) : List Numeral :=
  firstOfValue [] ((numeralsFrom 1 none gs).filter isMagic)

/-- The magic numerals of a line are those taken by the rule. -/
theorem mem_filter_isMagic_iff {gs : List Glyph} {n : Numeral} :
    n ∈ (numeralsFrom 1 none gs).filter isMagic ↔ Taken gs n := by
  rw [List.mem_filter, mem_numerals_iff, isMagic_iff]
  exact ⟨fun ⟨hn, htwo, hlarge, hfits⟩ => ⟨hn, htwo, hlarge, hfits⟩,
    fun ⟨hn, htwo, hlarge, hfits⟩ => ⟨hn, htwo, hlarge, hfits⟩⟩

/-- A line reports the first of the taken numerals for each value. -/
theorem listsFirst_reportedNumerals (gs : List Glyph) :
    ListsFirst (Taken gs) (reportedNumerals gs) := by
  have hordered := (pairwise_numeralsFrom 1 none gs).filter isMagic
  refine ⟨hordered.sublist (firstOfValue_sublist _ _), fun n => ?_⟩
  simp only [reportedNumerals, mem_firstOfValue_iff hordered, mem_filter_isMagic_iff,
    List.not_mem_nil, not_false_eq_true, true_and, IsFirst]

/-- What the check writes about a numeral. -/
def numeralTip (n : Numeral) : Tip where
  column := n.column
  advice := .magicNumber n.value
  before := n.digits
  after := "v(LIMIT_".toList ++ (toString n.value).toList ++ [')']

/-- The tips on magic numbers are those of the reported numerals. -/
theorem filter_category_maintainability (line : List Char) :
    (maintainability line).filter (·.advice.category == "magic_number")
      = (reportedNumerals (glyphs line)).map numeralTip := by
  have hnumbers : (magicNumbers line).filter (·.advice.category == "magic_number")
      = (reportedNumerals (glyphs line)).map numeralTip := by
    refine List.filter_eq_self.mpr ?_
    rw [magicNumbers, List.forall_mem_map]
    intro n _
    rfl
  have hmany : (manyParameters line).toList.filter (·.advice.category == "magic_number") = [] := by
    rw [manyParameters]
    split
    · rfl
    · rfl
  have hreferences : (hardcodedReferences line).filter (·.advice.category == "magic_number")
      = [] := by
    rw [hardcodedReferences, List.filter_eq_nil_iff, List.forall_mem_map]
    intro n _
    exact Bool.false_ne_true
  rw [maintainability, List.filter_append, List.filter_append, hnumbers, hmany, hreferences,
    List.append_nil, List.append_nil]

/-! ## Two kinds of numerals -/

/-- Every numeral of a kind has a first one of its value. -/
theorem exists_isFirst {kind : Numeral → Prop} {n : Numeral} (h : kind n) :
    ∃ m, IsFirst kind m ∧ m.value = n.value ∧ m.column ≤ n.column := by
  induction hcolumn : n.column using Nat.strong_induction_on generalizing n with
  | _ column ih =>
      subst hcolumn
      by_cases hearlier : ∃ m, kind m ∧ m.value = n.value ∧ m.column < n.column
      · obtain ⟨m, hm, hvalue, hlt⟩ := hearlier
        obtain ⟨first, hfirst, hsame, hle⟩ := ih m.column hlt hm rfl
        exact ⟨first, hfirst, hsame.trans hvalue, hle.trans hlt.le⟩
      · refine ⟨n, ⟨h, ?_⟩, rfl, Nat.le_refl _⟩
        intro m hm hvalue
        exact Nat.le_of_not_lt fun hlt => hearlier ⟨m, hm, hvalue, hlt⟩

section TwoKinds

variable {p q : Numeral → Prop}

/-- Where the kinds are at odds about a numeral, an earlier one of both kinds has the same value. -/
def OddsSettled (p q : Numeral → Prop) : Prop :=
  ∀ n, Xor (p n) (q n) → ∃ m, p m ∧ q m ∧ m.value = n.value ∧ m.column < n.column

/-- Settled odds are settled the other way round. -/
theorem OddsSettled.symm (h : OddsSettled p q) : OddsSettled q p := by
  intro n hn
  obtain ⟨m, hp, hq, hm⟩ := h n (Or.symm hn)
  exact ⟨m, hq, hp, hm⟩

/-- Where the odds are settled, the first numeral of one kind is the first of the other. -/
theorem OddsSettled.isFirst (h : OddsSettled p q) {n : Numeral} (hn : IsFirst p n) :
    IsFirst q n := by
  obtain ⟨hp, hleast⟩ := hn
  constructor
  · by_contra hq
    obtain ⟨m, hm, -, hvalue, hlt⟩ := h n (Or.inl ⟨hp, hq⟩)
    exact absurd (hleast m hm hvalue) (Nat.not_le.mpr hlt)
  · intro m hq hvalue
    by_cases hm : p m
    · exact hleast m hm hvalue
    · obtain ⟨k, hk, -, hsame, hlt⟩ := h m (Or.inr ⟨hq, hm⟩)
      exact (hleast k hk (hsame.trans hvalue)).trans hlt.le

/-- Numerals of the kind are told apart by their columns. -/
def ToldByColumn (p : Numeral → Prop) : Prop := ∀ m n, p m → p n → m.column = n.column → m = n

/-- When the first numerals of a kind have a property, one that lacks it has an earlier one of its
value that has it. -/
theorem exists_earlier (htold : ToldByColumn p) (h : ∀ n, IsFirst p n → q n) {n : Numeral}
    (hp : p n) (hq : ¬ q n) : ∃ m, p m ∧ q m ∧ m.value = n.value ∧ m.column < n.column := by
  obtain ⟨m, hm, hvalue, hle⟩ := exists_isFirst hp
  refine ⟨m, hm.1, h m hm, hvalue, Nat.lt_of_le_of_ne hle ?_⟩
  intro hcolumn
  rw [← htold m n hm.1 hp hcolumn] at hq
  exact hq (h m hm)

/-- A list of the first numerals of one kind lists those of another exactly if the kinds settle
their odds. -/
theorem listsFirst_iff_oddsSettled (hp : ToldByColumn p) (hq : ToldByColumn q)
    {numerals : List Numeral} (h : ListsFirst p numerals) :
    ListsFirst q numerals ↔ OddsSettled p q := by
  constructor
  · intro h'
    have hfirst : ∀ n, IsFirst p n ↔ IsFirst q n := fun n => (h.mem_iff n).symm.trans (h'.mem_iff n)
    rintro n (⟨hn, hnot⟩ | ⟨hn, hnot⟩)
    · exact exists_earlier hp (fun m hm => ((hfirst m).mp hm).1) hn hnot
    · obtain ⟨m, hmq, hmp, hm⟩ :=
        exists_earlier hq (fun m hm => ((hfirst m).mpr hm).1) hn hnot
      exact ⟨m, hmp, hmq, hm⟩
  · intro hsettled
    exact ⟨h.ordered, fun n => (h.mem_iff n).trans ⟨hsettled.isFirst, hsettled.symm.isFirst⟩⟩

end TwoKinds

/-- A numeral is told by the column it starts at. -/
theorem NumeralBehind.eq_of_column {gs : List Glyph} {before before' : Char → Prop} {m n : Numeral}
    (hm : NumeralBehind gs before m) (hn : NumeralBehind gs before' n)
    (hcolumn : m.column = n.column) : m = n := by
  obtain ⟨front, run, back, rfl, hrun, rfl, -⟩ := hm
  obtain ⟨front', run', back', hgs, hrun', rfl, -⟩ := hn
  rw [List.append_assoc, List.append_assoc] at hgs
  obtain ⟨rfl, hrest⟩ := List.append_inj hgs (Nat.succ.inj hcolumn)
  have hdigits := takeWhile_append_of_head? hrun.all hrun.back_not
  rw [hrest, takeWhile_append_of_head? hrun'.all hrun'.back_not] at hdigits
  rw [hdigits]

/-- Taken numerals are told by their columns. -/
theorem toldByColumn_taken (gs : List Glyph) : ToldByColumn (Taken gs) :=
  fun _ _ hm hn => hm.numeral.eq_of_column hn.numeral

/-- Specified numerals are told by their columns. -/
theorem toldByColumn_specified (gs : List Glyph) : ToldByColumn (Specified gs) :=
  fun _ _ hm hn => hm.numeral.eq_of_column hn.numeral

/-! ## Numerals at odds with the rule -/

/-- The numeral stands in the name of a register. -/
def InRegisterName (gs : List Glyph) (n : Numeral) : Prop :=
  ∃ s ∈ stretches gs, (∃ name closed, s.reference = some (.named name closed))
    ∧ s.column < n.column ∧ n.stop ≤ s.stop

/-- Directly before the numeral stands a `%` that starts no substitution: it is not structural, or
it ends a pair. -/
def BehindIdlePercent (gs : List Glyph) (n : Numeral) : Prop :=
  ∃ column g, column + 1 = n.column ∧ GlyphAt gs column g ∧ g.char = '%'
    ∧ (g.isCode = false
      ∨ ∃ s ∈ stretches gs, s.reference = none ∧ s.length = 2 ∧ s.stop = n.column)

namespace NumeralBehind

variable {gs : List Glyph} {before : Char → Prop} {n : Numeral} {column : Nat} {g : Glyph}

/-- A numeral has at least one digit. -/
theorem column_lt_stop (h : NumeralBehind gs before n) : n.column < n.stop := by
  obtain ⟨front, run, back, -, hrun, rfl, -⟩ := h
  have hpos := List.length_pos_iff.mpr hrun.ne_nil
  simp only [Numeral.stop, chars, List.length_map]
  omega

/-- What is no digit stands before the numeral or behind it. -/
theorem outside (h : NumeralBehind gs before n) (hat : GlyphAt gs column g)
    (hg : g.isCodeDigit = false) : column < n.column ∨ n.stop ≤ column := by
  obtain ⟨front, run, back, rfl, hrun, rfl, -⟩ := h
  obtain ⟨hpos, hat⟩ := hat
  have houtside := hrun.outside hat hg
  simp only [Numeral.stop, chars, List.length_map, List.length_append] at houtside ⊢
  omega

/-- What stands directly before the numeral is no digit and meets the condition. -/
theorem of_glyphAt (h : NumeralBehind gs before n) (hat : GlyphAt gs column g)
    (hcolumn : column + 1 = n.column) : g.isCodeDigit = false ∧ before g.char := by
  obtain ⟨front, run, back, rfl, hrun, rfl, hbefore⟩ := h
  obtain ⟨hpos, hat⟩ := hat
  rw [List.append_assoc] at hat
  have hlast := mem_getLast?_of_getElem? hat (by simp only at hcolumn; omega)
  exact ⟨hrun.front_not g hlast, hbefore g hlast⟩

/-- From its column on, the numeral consists of structural digits. -/
theorem exists_glyphAt (h : NumeralBehind gs before n) (hle : n.column ≤ column)
    (hlt : column < n.stop) : ∃ g, GlyphAt gs column g ∧ g.isCodeDigit = true := by
  obtain ⟨front, run, back, rfl, hrun, rfl, -⟩ := h
  simp only [Numeral.stop, chars, List.length_map] at hle hlt
  obtain ⟨j, rfl⟩ := Nat.exists_eq_add_of_le hle
  have hj : run[j]? = some run[j] := List.getElem?_eq_getElem (by omega)
  refine ⟨run[j], ?_, hrun.all _ (List.mem_of_getElem? hj)⟩
  rw [List.append_assoc, glyphAt_append, List.getElem?_append_left (by omega), hj]

end NumeralBehind

/-- A register's letter stands in words. -/
theorem isWordChar_of_isRegisterMark {c : Char} (h : IsRegisterMark c) :
    Text.isWordChar c = true := by
  rcases h with rfl | rfl <;> decide

/-- A register's letter is no digit. -/
theorem isCodeDigit_of_isRegisterMark {c : Char} (h : IsRegisterMark c) :
    (⟨c, .code⟩ : Glyph).isCodeDigit = false := by
  rcases h with rfl | rfl <;> decide

/-- A numeral that the check takes meets a stretch only in the name of a register, and then it is
all inside. -/
theorem Taken.inRegisterName {gs : List Glyph} {n : Numeral} (h : Taken gs n) {s : Stretch}
    (hs : s ∈ stretches gs) (hoverlaps : n.Overlaps s) : InRegisterName gs n := by
  obtain ⟨hpercent, hshape⟩ := shape_of_mem_stretches hs
  obtain ⟨hstart, hstop⟩ := hoverlaps
  have hbehind : s.column < n.column :=
    (h.numeral.outside hpercent (by decide)).resolve_right (Nat.not_le.mpr hstart)
  have hpos := h.numeral.column_lt_stop
  refine ⟨s, hs, ?_⟩
  obtain ⟨column, length, reference⟩ := s
  simp only [Stretch.stop] at *
  cases hshape with
  | @positional index k _ hdigits =>
      exfalso
      by_cases hedge : column + 1 = n.column
      · exact (h.numeral.of_glyphAt hpercent hedge).2.2.2.2 rfl
      · -- the numeral would start inside the digits of the argument
        obtain ⟨g, hg, hdigit⟩ := hdigits (n.column - 1) (by omega) (by omega)
        have hnot := (h.numeral.of_glyphAt hg (by omega)).1
        exact Bool.false_ne_true (hnot.symm.trans hdigit)
  | closed hend =>
      have := h.numeral.outside hend (by decide)
      exact ⟨⟨_, _, rfl⟩, hbehind, by omega⟩
  | unclosed hend =>
      refine ⟨⟨_, _, rfl⟩, hbehind, ?_⟩
      by_contra hbeyond
      obtain ⟨g, hg, hdigit⟩ := h.numeral.exists_glyphAt hstop.le (Nat.not_le.mp hbeyond)
      have hcode := hend g (by rwa [← Nat.add_assoc] at hg)
      simp [Glyph.isCodeDigit, hcode] at hdigit
  | short hmark hat _ _ =>
      exfalso
      have houtside := h.numeral.outside hat (isCodeDigit_of_isRegisterMark hmark)
      have hword := (h.numeral.of_glyphAt hat (by omega)).2.1
      exact Bool.false_ne_true (hword.symm.trans (isWordChar_of_isRegisterMark hmark))
  | pair hdigit hat =>
      exfalso
      have := h.numeral.outside hat (by simp [Glyph.isCodeDigit, hdigit])
      omega
  | lone _ =>
      exfalso
      omega

/-- A taken numeral is against the rule when it stands in the name of a register. -/
theorem Taken.not_specified_iff {gs : List Glyph} {n : Numeral} (h : Taken gs n) :
    ¬ Specified gs n ↔ InRegisterName gs n := by
  constructor
  · intro hnot
    by_contra hname
    refine hnot ⟨?_, h.two_le, h.large, fun s hs hoverlaps => hname (h.inRegisterName hs hoverlaps)⟩
    obtain ⟨front, run, back, hgs, hrun, hn, hbefore⟩ := h.numeral
    refine ⟨front, run, back, hgs, hrun, hn, fun g hg => ?_⟩
    obtain ⟨hword, hnumber, hpoint, -⟩ := hbefore g hg
    exact ⟨hword, hnumber, hpoint⟩
  · rintro ⟨s, hs, -, hbehind, hinside⟩ hspecified
    have hpos := h.numeral.column_lt_stop
    exact hspecified.apart s hs ⟨by omega, by omega⟩

/-- A structural `%` before a numeral apart from all stretches ends a pair. -/
theorem Specified.exists_pair {gs : List Glyph} {n : Numeral} (h : Specified gs n) {column : Nat}
    (hpercent : GlyphAt gs column ⟨'%', .code⟩) (hcolumn : column + 1 = n.column) :
    ∃ s ∈ stretches gs, s.reference = none ∧ s.length = 2 ∧ s.stop = n.column := by
  obtain ⟨s, hs, hle, hlt⟩ := @exists_stretch_of_percent 1 0 _ gs (Nat.zero_le _) hpercent.2
  have hpos := hpercent.1
  have hnumeral := h.numeral.column_lt_stop
  have hstop : s.stop = n.column := by
    have hapart := h.apart s hs
    rw [Numeral.Overlaps] at hapart
    omega
  refine ⟨s, hs, ?_⟩
  -- the last column of the stretch has the `%`, and behind the stretch stands a digit
  have hlast : ∀ c, GlyphAt gs column ⟨c, .code⟩ → c = '%' := fun c hc =>
    congrArg Glyph.char (hc.unique hpercent)
  have hnext : ¬ ∀ g, GlyphAt gs n.column g → g.isCode = false := by
    intro hnone
    obtain ⟨g, hg, hdigit⟩ := h.numeral.exists_glyphAt (Nat.le_refl _) hnumeral
    simp [Glyph.isCodeDigit, hnone g hg] at hdigit
  obtain ⟨-, hshape⟩ := shape_of_mem_stretches hs
  obtain ⟨first, length, reference⟩ := s
  simp only [Stretch.stop] at *
  cases hshape with
  | positional hsome hdigits =>
      exfalso
      obtain ⟨g, hg, hdigit⟩ := hdigits column (by omega) (by omega)
      rw [hg.unique hpercent] at hdigit
      exact absurd hdigit (by decide)
  | @closed name k hend =>
      have hcolumn : first + k = column := by omega
      exact absurd (hlast _ (hcolumn ▸ hend)) (by decide)
  | unclosed hend =>
      rw [Nat.add_assoc, hstop] at hend
      exact absurd hend hnext
  | short _ _ hregister hat =>
      have hcolumn : first + 2 = column := by omega
      have hpercent := hlast _ (hcolumn ▸ hat)
      exact absurd (hpercent ▸ hregister) (by decide)
  | pair _ _ => exact ⟨rfl, rfl, hstop⟩
  | lone hend =>
      rw [hstop] at hend
      exact absurd hend hnext

/-- A specified numeral is missed when a percent sign without effect stands before it or it is too
large for a machine word. -/
theorem Specified.not_taken_iff {gs : List Glyph} {n : Numeral} (h : Specified gs n) :
    ¬ Taken gs n ↔ BehindIdlePercent gs n ∨ 2 ^ 64 ≤ n.value := by
  constructor
  · intro hnot
    by_contra hidle
    obtain ⟨hpercent, hfits⟩ := not_or.mp hidle
    obtain ⟨front, run, back, hgs, hrun, hn, hbefore⟩ := h.numeral
    refine hnot ⟨⟨front, run, back, hgs, hrun, hn, fun g hg => ?_⟩, h.two_le, h.large,
      Nat.not_le.mp hfits⟩
    obtain ⟨hword, hnumber, hpoint⟩ := hbefore g hg
    refine ⟨hword, hnumber, hpoint, fun hchar => hpercent ?_⟩
    have hat : GlyphAt gs front.length g := by
      rw [hgs, List.append_assoc]
      exact glyphAt_of_mem_getLast? hg _
    have hcolumn : front.length + 1 = n.column := by rw [hn]
    refine ⟨front.length, g, hcolumn, hat, hchar, ?_⟩
    by_cases hcode : g.isCode = true
    · right
      have hg : g = ⟨'%', .code⟩ :=
        Glyph.isCodeChar_iff.mp (by simp [Glyph.isCodeChar, hcode, hchar])
      exact h.exists_pair (hg ▸ hat) hcolumn
    · exact Or.inl (eq_false_of_ne_true hcode)
  · rintro (⟨column, g, hcolumn, hat, hchar, -⟩ | hlarge) htaken
    · exact (htaken.numeral.of_glyphAt hat hcolumn).2.2.2.2 hchar
    · exact absurd htaken.fits (Nat.not_lt.mpr hlarge)

/-- **Which magic numbers are reported.** The tips of a line with this category are about numerals,
each value once and where it comes first: numerals of two or more digits with a value above ten that
fits a word, and without a word character, `#`, `.` or `%` directly before them. They are the
numerals that the rule asks for exactly if every numeral that only one of the two has comes after
one that both have, with the same value. Those that only the check has stand in the names of
registers. Those that only the rule has stand behind a `%` that starts no substitution, or do not
fit a word. -/
theorem magic_numbers_exact (line : List Char) :
    (stretches (glyphs line)).filterMap Stretch.substitution? = substitutions (glyphs line)
      ∧ (∃ numerals, (maintainability line).filter (·.advice.category == "magic_number")
            = numerals.map numeralTip
          ∧ ListsFirst (Taken (glyphs line)) numerals
          ∧ (ListsFirst (Specified (glyphs line)) numerals
            ↔ OddsSettled (Taken (glyphs line)) (Specified (glyphs line))))
      ∧ (∀ n, Taken (glyphs line) n ∧ ¬ Specified (glyphs line) n
          ↔ Taken (glyphs line) n ∧ InRegisterName (glyphs line) n)
      ∧ ∀ n, Specified (glyphs line) n ∧ ¬ Taken (glyphs line) n
          ↔ Specified (glyphs line) n ∧ (BehindIdlePercent (glyphs line) n ∨ 2 ^ 64 ≤ n.value) := by
  have hfirst := listsFirst_reportedNumerals (glyphs line)
  refine ⟨filterMap_stretchesFrom 1 0 _, ⟨_, filter_category_maintainability line, hfirst, ?_⟩,
    fun n => and_congr_right Taken.not_specified_iff,
    fun n => and_congr_right Specified.not_taken_iff⟩
  exact listsFirst_iff_oddsSettled (toldByColumn_taken _) (toldByColumn_specified _) hfirst

/-- A number in the name of a register is reported, although it is part of a substitution. -/
theorem magic_number_in_register_name :
    ∃ line numerals, line = "think %q<12>".toList
      ∧ (maintainability line).filter (·.advice.category == "magic_number")
        = numerals.map numeralTip
      ∧ numerals = [⟨10, ['1', '2']⟩]
      ∧ stretches (glyphs line) = [⟨7, 6, some (.named "12" true)⟩]
      ∧ ¬ ListsFirst (Specified (glyphs line)) numerals := by
  refine ⟨_, [⟨10, ['1', '2']⟩], rfl, by decide, rfl, by decide, ?_⟩
  intro hlists
  have hspecified := ((hlists.mem_iff ⟨10, ['1', '2']⟩).mp (by decide)).1
  exact hspecified.apart ⟨7, 6, some (.named "12" true)⟩ (by decide) ⟨by decide, by decide⟩

end Practice

end Softcode
