import Softcode.Practice.Hygiene
import Softcode.Proofs.AlikeLines
import Softcode.Proofs.BracketPairs
import Softcode.Proofs.LineEdits

/-!
# The sanitizing tip

What the tip on unsanitized input writes. Every structural `%` directly before a structural digit is
wrapped with its digits. That covers the positional references of the line, but also such a `%` that
the walk over substitutions passes over, in a pair `%%` or in the name of a register
(`secured_wraps_every_percent`).

The fix does what it is for all the same. `Secures` relates the glyphs of a line to those of the
fixed one: the text written in is code, nests in itself and leaves every other glyph its role. So
the fixed line is code and calls a sanitizer, and what the line had wrong in its brackets and its
last literal it still has, no more and no less (`hygiene_fix_effective_and_safe`).
-/

namespace Softcode.Practice

open Line LineCheck

/-! ## Where a reference may start -/

/-- The glyphs start with a structural `%` directly before a structural digit. -/
def startsReference : List Glyph → Bool
  | g :: h :: _ => g.isCodeChar '%' && h.isCodeDigit
  | _ => false

/-- A reference starts at a percent sign with a digit behind it. -/
theorem startsReference_cons (g : Glyph) (rest : List Glyph) :
    startsReference (g :: rest)
      = (g.isCodeChar '%' && !(rest.takeWhile Glyph.isCodeDigit).isEmpty) := by
  cases rest with
  | nil => simp [startsReference]
  | cons h rest => cases hdigit : h.isCodeDigit <;> simp [startsReference, hdigit]

/-- A reference starts at a percent sign. -/
theorem eq_percent_of_startsReference {g : Glyph} {rest : List Glyph}
    (h : startsReference (g :: rest) = true) : g = ⟨'%', .code⟩ := by
  obtain ⟨c, role⟩ := g
  simp only [startsReference_cons, Glyph.isCodeChar, Glyph.isCode, Bool.and_eq_true,
    beq_iff_eq] at h
  simp [h.1]

/-- No reference starts at a digit. -/
theorem startsReference_of_isCodeDigit {g : Glyph} (h : g.isCodeDigit = true)
    (rest : List Glyph) : startsReference (g :: rest) = false := by
  by_contra hstarts
  rw [eq_percent_of_startsReference (eq_true_of_ne_false hstarts)] at h
  exact absurd h (by decide)

/-- The places, from `index` on, where a reference may start. -/
def percentStarts (index : Nat) : List Glyph → List Nat
  | [] => []
  | g :: rest =>
    (if startsReference (g :: rest) then [index] else []) ++ percentStarts (index + 1) rest

theorem percentStarts_of_starts {g : Glyph} {rest : List Glyph}
    (h : startsReference (g :: rest) = true) (index : Nat) :
    percentStarts index (g :: rest) = index :: percentStarts (index + 1) rest := by
  rw [percentStarts, if_pos h, List.singleton_append]

theorem percentStarts_of_not_starts {g : Glyph} {rest : List Glyph}
    (h : startsReference (g :: rest) = false) (index : Nat) :
    percentStarts index (g :: rest) = percentStarts (index + 1) rest := by
  rw [percentStarts, h, if_neg Bool.false_ne_true, List.nil_append]

/-- The places found are those where a reference may start. -/
theorem mem_percentStarts {gs : List Glyph} {index start : Nat} :
    start ∈ percentStarts index gs
      ↔ ∃ i, start = index + i ∧ startsReference (gs.drop i) = true := by
  induction gs generalizing index with
  | nil => simp [percentStarts, startsReference]
  | cons g rest ih =>
      have htail : start ∈ percentStarts (index + 1) rest
          ↔ ∃ i, start = index + (i + 1) ∧ startsReference ((g :: rest).drop (i + 1)) = true := by
        rw [ih]
        simp only [List.drop_succ_cons, Nat.add_assoc, Nat.add_comm 1]
      rw [percentStarts, List.mem_append, htail]
      constructor
      · rintro (hhead | ⟨i, hi⟩)
        · split at hhead
          · rename_i hstarts
            exact ⟨0, List.mem_singleton.mp hhead, hstarts⟩
          · exact absurd hhead List.not_mem_nil
        · exact ⟨i + 1, hi⟩
      · rintro ⟨- | i, hi, hstarts⟩
        · rw [List.drop_zero] at hstarts
          rw [if_pos hstarts, List.mem_singleton]
          exact Or.inl hi
        · exact Or.inr ⟨i, hi, hstarts⟩

theorem lt_of_mem_percentStarts {gs : List Glyph} {index start : Nat}
    (h : start ∈ percentStarts (index + 1) gs) : index < start := by
  obtain ⟨i, rfl, -⟩ := mem_percentStarts.mp h
  omega

/-- No place is found twice. -/
theorem nodup_percentStarts (index : Nat) (gs : List Glyph) : (percentStarts index gs).Nodup := by
  induction gs generalizing index with
  | nil => exact List.nodup_nil
  | cons g rest ih =>
      by_cases hstarts : startsReference (g :: rest) = true
      · rw [percentStarts_of_starts hstarts, List.nodup_cons]
        exact ⟨fun hmem => Nat.lt_irrefl _ (lt_of_mem_percentStarts hmem), ih _⟩
      · rw [percentStarts_of_not_starts (eq_false_of_ne_true hstarts)]
        exact ih _

/-! ## Wrapping at given places -/

/-- The characters of glyphs that start at `index`, with the reference at each of the places
wrapped. A reference is its `%` and the digits that follow. -/
def wrapReferences (index : Nat) : List Nat → List Glyph → List Char
  | [], gs => chars gs
  | start :: starts, gs =>
    let found := gs.drop (start - index)
    let length := 1 + (found.tail.takeWhile Glyph.isCodeDigit).length
    chars (gs.take (start - index)) ++ "[secure(".toList ++ chars (found.take length)
      ++ ")]".toList ++ wrapReferences (start + length) starts (found.drop length)

/-- A glyph before the first place is copied. -/
theorem wrapReferences_cons {index : Nat} {starts : List Nat}
    (h : ∀ start ∈ starts, index < start) (g : Glyph) (gs : List Glyph) :
    wrapReferences index starts (g :: gs) = g.char :: wrapReferences (index + 1) starts gs := by
  cases starts with
  | nil => rfl
  | cons start starts =>
      have hlt := h start List.mem_cons_self
      obtain ⟨n, rfl⟩ : ∃ n, start = index + 1 + n := ⟨start - (index + 1), by omega⟩
      have hoffset : index + 1 + n - index = n + 1 := by omega
      simp only [wrapReferences, hoffset, Nat.add_sub_cancel_left, List.drop_succ_cons,
        List.take_succ_cons, chars, List.map_cons, List.cons_append]

/-- At a given place the reference is wrapped, and the walk goes on behind it. -/
theorem wrapReferences_self (index : Nat) (starts : List Nat) (g : Glyph) (rest : List Glyph) :
    wrapReferences index (index :: starts) (g :: rest)
      = "[secure(".toList ++ g.char :: chars (rest.takeWhile Glyph.isCodeDigit) ++ ")]".toList
        ++ wrapReferences (index + 1 + (rest.takeWhile Glyph.isCodeDigit).length) starts
          (rest.drop (rest.takeWhile Glyph.isCodeDigit).length) := by
  have htake : rest.take (rest.takeWhile Glyph.isCodeDigit).length
      = rest.takeWhile Glyph.isCodeDigit :=
    (List.prefix_iff_eq_take.mp (List.takeWhile_prefix _)).symm
  simp only [wrapReferences, Nat.sub_self, List.drop_zero, List.tail_cons, List.take_zero,
    Nat.add_comm 1, List.take_succ_cons, List.drop_succ_cons, htake]
  simp only [chars, List.map_nil, List.nil_append, List.map_cons, ← Nat.add_assoc,
    Nat.add_right_comm]

/-! ## What the tip wraps -/

/-- The tip wraps a reference where one starts. -/
theorem securedFrom_of_starts {g : Glyph} {rest : List Glyph}
    (h : startsReference (g :: rest) = true) :
    securedFrom 0 (g :: rest)
      = "[secure(%".toList ++ chars (rest.takeWhile Glyph.isCodeDigit) ++ ")]".toList
        ++ securedFrom (rest.takeWhile Glyph.isCodeDigit).length rest := by
  rw [startsReference_cons] at h
  simp only [securedFrom, h, if_true]

/-- The tip copies a character elsewhere. -/
theorem securedFrom_of_not_starts {g : Glyph} {rest : List Glyph}
    (h : startsReference (g :: rest) = false) :
    securedFrom 0 (g :: rest) = g.char :: securedFrom 0 rest := by
  rw [startsReference_cons] at h
  simp only [securedFrom, h, Bool.false_eq_true, if_false]

/-- What is skipped behind a percent sign is digits. -/
theorem isCodeDigit_of_mem_take {rest : List Glyph} {g : Glyph}
    (h : g ∈ rest.take (rest.takeWhile Glyph.isCodeDigit).length) : g.isCodeDigit = true := by
  rw [← List.prefix_iff_eq_take.mp (List.takeWhile_prefix _)] at h
  exact List.mem_takeWhile_imp h

/-- The tip wraps wherever a reference may start. -/
theorem securedFrom_eq_wrapReferences (gs : List Glyph) (index skip : Nat)
    (hskip : ∀ g ∈ gs.take skip, g.isCodeDigit = true) :
    securedFrom skip gs
      = wrapReferences (index + skip) (percentStarts index gs) (gs.drop skip) := by
  induction gs generalizing index skip with
  | nil => simp [securedFrom, percentStarts, wrapReferences, chars]
  | cons g rest ih =>
      cases skip with
      | succ n =>
          rw [List.take_succ_cons, List.forall_mem_cons] at hskip
          rw [percentStarts_of_not_starts (startsReference_of_isCodeDigit hskip.1 rest),
            List.drop_succ_cons, ← Nat.add_assoc, Nat.add_right_comm]
          exact ih (index + 1) n hskip.2
      | zero =>
          by_cases hstarts : startsReference (g :: rest) = true
          · rw [securedFrom_of_starts hstarts, percentStarts_of_starts hstarts, Nat.add_zero,
              List.drop_zero, wrapReferences_self, eq_percent_of_startsReference hstarts,
              ← ih (index + 1) _ fun g => isCodeDigit_of_mem_take]
            rfl
          · replace hstarts := eq_false_of_ne_true hstarts
            rw [securedFrom_of_not_starts hstarts, percentStarts_of_not_starts hstarts,
              Nat.add_zero, List.drop_zero,
              wrapReferences_cons fun start => lt_of_mem_percentStarts,
              ih (index + 1) 0 (by simp), Nat.add_zero, List.drop_zero]

/-- Each wrapped reference makes the text ten characters longer. -/
theorem length_wrapReferences (gs : List Glyph) (index skip : Nat) (starts : List Nat)
    (hskip : ∀ g ∈ gs.take skip, g.isCodeDigit = true) (hlength : skip ≤ gs.length)
    (hstarts : starts.Sublist (percentStarts index gs)) :
    (wrapReferences (index + skip) starts (gs.drop skip)).length + skip
      = gs.length + 10 * starts.length := by
  induction gs generalizing index skip starts with
  | nil =>
      obtain rfl : starts = [] := List.sublist_nil.mp hstarts
      obtain rfl : skip = 0 := Nat.le_zero.mp hlength
      rfl
  | cons g rest ih =>
      cases skip with
      | succ n =>
          rw [List.take_succ_cons, List.forall_mem_cons] at hskip
          rw [percentStarts_of_not_starts (startsReference_of_isCodeDigit hskip.1 rest)] at hstarts
          have hrest := ih (index + 1) n starts hskip.2 (Nat.le_of_succ_le_succ hlength) hstarts
          rw [List.drop_succ_cons, List.length_cons, ← Nat.add_assoc index,
            Nat.add_right_comm index]
          omega
      | zero =>
          -- a glyph where nothing is wrapped is copied
          have hcopy : starts.Sublist (percentStarts (index + 1) rest) →
              (wrapReferences index starts (g :: rest)).length
                = (g :: rest).length + 10 * starts.length := by
            intro hsub
            have hrest := ih (index + 1) 0 starts (by simp) (Nat.zero_le _) hsub
            rw [Nat.add_zero, Nat.add_zero, List.drop_zero] at hrest
            rw [wrapReferences_cons fun start hstart =>
              lt_of_mem_percentStarts (hsub.subset hstart), List.length_cons, hrest,
              List.length_cons]
            omega
          rw [Nat.add_zero, Nat.add_zero, List.drop_zero]
          by_cases hfirst : startsReference (g :: rest) = true
          · rw [percentStarts_of_starts hfirst, List.sublist_cons_iff] at hstarts
            obtain hsub | ⟨later, rfl, hsub⟩ := hstarts
            · exact hcopy hsub
            · have hrest := ih (index + 1) _ later (fun g => isCodeDigit_of_mem_take)
                (List.takeWhile_prefix _).length_le hsub
              rw [wrapReferences_self]
              simp only [List.length_append, List.length_cons, chars, List.length_map]
              have hopen : "[secure(".toList.length = 8 := rfl
              have hclose : ")]".toList.length = 2 := rfl
              omega
          · rw [percentStarts_of_not_starts (eq_false_of_ne_true hfirst)] at hstarts
            exact hcopy hstarts

/-! ## The references among the places -/

/-- The place of a positional reference. -/
def positionalStart? (sub : Substitution) : Option Nat :=
  match sub.reference with
  | .positional _ => some (sub.column - 1)
  | _ => none

/-- The places of the positional references. -/
def positionalStarts (gs : List Glyph) : List Nat := (substitutions gs).filterMap positionalStart?

/-- What stands behind a `%` is a positional reference only if it starts with a digit. -/
theorem startsReference_of_referenceAt {g : Glyph} {rest : List Glyph} {n : Nat}
    (hpercent : g.isCodeChar '%' = true) (h : (referenceAt rest).1 = some (.positional n)) :
    startsReference (g :: rest) = true := by
  cases rest with
  | nil => exact absurd h (by simp [referenceAt])
  | cons d rest =>
      have hregister : (registerAt rest).1 ≠ some (.positional n) := by
        cases rest with
        | nil => simp [registerAt]
        | cons mark more =>
            rw [registerAt]
            split_ifs <;> simp
      rw [referenceAt_cons] at h
      split_ifs at h with hcode hdigit hmark
      · rw [startsReference, hpercent, Glyph.isCodeDigit, hdigit]
        simpa using hcode
      · exact absurd h hregister

/-- The walk over substitutions finds references only where one may start. -/
theorem substitutionsFrom_sublist (gs : List Glyph) (index skip : Nat) :
    ((substitutionsFrom (index + 1) skip gs).filterMap positionalStart?).Sublist
      (percentStarts index gs) := by
  induction gs generalizing index skip with
  | nil => exact List.nil_sublist _
  | cons g rest ih =>
      cases skip with
      | succ n => exact (ih (index + 1) n).trans (List.sublist_append_right _ _)
      | zero =>
          by_cases hpercent : g.isCodeChar '%' = true
          · simp only [substitutionsFrom, hpercent, if_true, List.filterMap_append]
            refine List.Sublist.append ?_ (ih (index + 1) _)
            cases href : (referenceAt rest).1 with
            | none => exact List.nil_sublist _
            | some reference =>
                cases reference with
                | positional n =>
                    rw [if_pos (startsReference_of_referenceAt hpercent href)]
                    exact List.Sublist.refl _
                | short register => exact List.nil_sublist _
                | named name closed => exact List.nil_sublist _
          · rw [substitutionsFrom, if_neg hpercent]
            exact (ih (index + 1) 0).trans (List.sublist_append_right _ _)

/-- The positional references are among the places where one may start. -/
theorem positionalStarts_sublist (gs : List Glyph) :
    (positionalStarts gs).Sublist (percentStarts 0 gs) := substitutionsFrom_sublist gs 0 0

/-- The tip wraps wherever a `%` stands directly before a digit. All positional references of the
line are among these places, and nothing else is wrapped exactly if every such `%` starts one. -/
theorem secured_wraps_every_percent (line : List Char) :
    let gs := glyphs line
    secured gs = wrapReferences 0 (percentStarts 0 gs) gs
    ∧ (positionalStarts gs).Sublist (percentStarts 0 gs)
    ∧ (secured gs = wrapReferences 0 (positionalStarts gs) gs
      ↔ ∀ i, startsReference (gs.drop i) = true → i ∈ positionalStarts gs) := by
  intro gs
  have hsecured : secured gs = wrapReferences 0 (percentStarts 0 gs) gs :=
    securedFrom_eq_wrapReferences gs 0 0 (by simp)
  have hsub := positionalStarts_sublist gs
  have hlength : ∀ starts, starts.Sublist (percentStarts 0 gs) →
      (wrapReferences 0 starts gs).length = gs.length + 10 * starts.length :=
    fun starts => length_wrapReferences gs 0 0 starts (by simp) (Nat.zero_le _)
  have hmem : ∀ i, i ∈ percentStarts 0 gs ↔ startsReference (gs.drop i) = true := by
    intro i
    simp [mem_percentStarts]
  refine ⟨hsecured, hsub, ?_, ?_⟩
  · -- a place left out would make the text ten characters shorter
    intro hexact i hi
    have hsame := congrArg List.length (hsecured.symm.trans hexact)
    rw [hlength _ (List.Sublist.refl _), hlength _ hsub] at hsame
    rw [hsub.eq_of_length (by omega)]
    exact (hmem i).mpr hi
  · intro hall
    have hle : (percentStarts 0 gs).length ≤ (positionalStarts gs).length :=
      ((nodup_percentStarts 0 gs).subperm fun i hi => hall i ((hmem i).mp hi)).length_le
    rw [hsecured, hsub.eq_of_length_le hle]

/-- The pair `%%` refers to nothing, but the tip wraps its second half with the digit behind it. -/
theorem secured_splits_percent_pair :
    let gs := glyphs "@force me=%0 %%1".toList
    positionalStarts gs = [10]
    ∧ wrapReferences 0 (positionalStarts gs) gs = "@force me=[secure(%0)] %%1".toList
    ∧ secured gs = "@force me=[secure(%0)] %[secure(%1)]".toList := by
  decide

/-! ## What is written for a reference -/

/-- The call that stands for the reference with the given digits. -/
def wrapped (digits : List Glyph) : List Glyph :=
  asCode "[secure(%".toList ++ digits ++ asCode ")]".toList

section Wrapped

variable {digits : List Glyph}

theorem isCode_of_isCodeDigit {g : Glyph} (h : g.isCodeDigit = true) : g.isCode = true := by
  rw [Glyph.isCodeDigit, Bool.and_eq_true] at h
  exact h.1

/-- A digit is neither a quote nor a backslash nor a bracket. -/
theorem char_ne_of_isCodeDigit {g : Glyph} (h : g.isCodeDigit = true) {c : Char}
    (hc : c.isDigit = false) : g.char ≠ c := by
  rintro rfl
  rw [Glyph.isCodeDigit, hc, Bool.and_false] at h
  exact Bool.false_ne_true h

/-- A fact about the call is a fact about the text around the digits, and about every digit. -/
theorem forall_mem_wrapped {p : Glyph → Prop} (hopen : ∀ g ∈ asCode "[secure(%".toList, p g)
    (hdigits : ∀ d ∈ digits, p d) (hclose : ∀ g ∈ asCode ")]".toList, p g) :
    ∀ g ∈ wrapped digits, p g := by
  intro g hg
  rw [wrapped, List.mem_append, List.mem_append] at hg
  obtain (hg | hg) | hg := hg
  · exact hopen g hg
  · exact hdigits g hg
  · exact hclose g hg

/-- What is written for a reference is structural. -/
theorem isCode_of_mem_wrapped (hdigits : ∀ d ∈ digits, d.isCodeDigit = true) :
    ∀ g ∈ wrapped digits, g.isCode = true :=
  forall_mem_wrapped (fun _ => isCode_of_mem_asCode)
    (fun d hd => isCode_of_isCodeDigit (hdigits d hd)) fun _ => isCode_of_mem_asCode

/-- Written into a line, the call is code and changes nothing about what follows. -/
theorem glyphs_wrapped_append (hdigits : ∀ d ∈ digits, d.isCodeDigit = true) (rest : List Char) :
    glyphs (chars (wrapped digits) ++ rest) = wrapped digits ++ glyphs rest := by
  have hplain : ∀ c ∈ chars (wrapped digits), c ≠ '\\' ∧ c ≠ '"' := by
    rw [chars, List.forall_mem_map]
    apply forall_mem_wrapped
    · decide
    · intro d hd
      exact ⟨char_ne_of_isCodeDigit (hdigits d hd) (by decide),
        char_ne_of_isCodeDigit (hdigits d hd) (by decide)⟩
    · decide
  rw [glyphs_append_of_plain hplain, asCode_chars (isCode_of_mem_wrapped hdigits)]

theorem mark?_of_isCodeDigit {g : Glyph} (h : g.isCodeDigit = true) : g.mark? = none := by
  have hne : ∀ c : Char, c.isDigit = false → (c == g.char) = false := by
    intro c hc
    rw [beq_eq_false_iff_ne]
    exact (char_ne_of_isCodeDigit h hc).symm
  rw [Glyph.mark?_eq_none_iff, Glyph.opens, Glyph.closes, isCode_of_isCodeDigit h]
  simp [Bracket.ofOpen?, Bracket.ofClose?, Bracket.all, Bracket.openChar, Bracket.closeChar, hne]

/-- Digits open and close nothing. -/
theorem marks_digits (hdigits : ∀ d ∈ digits, d.isCodeDigit = true) : marks digits = [] :=
  List.filterMap_eq_nil_iff.mpr fun d hd => mark?_of_isCodeDigit (hdigits d hd)

/-- A reference opens and closes nothing. -/
theorem wellNested_reference (hdigits : ∀ d ∈ digits, d.isCodeDigit = true) :
    WellNested (marks (⟨'%', .code⟩ :: digits)) := by
  rw [marks_cons_of_none (by decide), marks_digits hdigits]
  exact .nil

/-- The brackets of the call nest in themselves. -/
theorem wellNested_wrapped (hdigits : ∀ d ∈ digits, d.isCodeDigit = true) :
    WellNested (marks (wrapped digits)) := by
  rw [wrapped, marks_append, marks_append, marks_digits hdigits, List.append_nil]
  exact .wrap .square (.wrap .paren .nil .nil) .nil

end Wrapped

/-! ## The glyphs of the fixed line -/

/-- The glyphs of a line beside those of the line with its references wrapped. -/
inductive Secures : List Glyph → List Glyph → Prop where
  | nil : Secures [] []
  | keep {g : Glyph} {gs fixed : List Glyph} (hstarts : startsReference (g :: gs) = false)
      (rest : Secures gs fixed) : Secures (g :: gs) (g :: fixed)
  | wrap (digits : List Glyph) {gs fixed : List Glyph}
      (hdigits : ∀ d ∈ digits, d.isCodeDigit = true) (rest : Secures gs fixed) :
      Secures (⟨'%', .code⟩ :: (digits ++ gs)) (wrapped digits ++ fixed)

/-- There are glyphs that spell what the tip writes. -/
theorem exists_secures (gs : List Glyph) (skip : Nat) :
    ∃ fixed, Secures (gs.drop skip) fixed ∧ chars fixed = securedFrom skip gs := by
  induction gs generalizing skip with
  | nil => exact ⟨[], by rw [List.drop_nil]; exact .nil, rfl⟩
  | cons g rest ih =>
      cases skip with
      | succ n => exact ih n
      | zero =>
          by_cases hstarts : startsReference (g :: rest) = true
          · obtain ⟨fixed, hfixed, hchars⟩ := ih (rest.takeWhile Glyph.isCodeDigit).length
            have hwrap := hfixed.wrap (rest.takeWhile Glyph.isCodeDigit)
              fun d => List.mem_takeWhile_imp
            rw [← List.prefix_append_drop (List.takeWhile_prefix _),
              ← eq_percent_of_startsReference hstarts] at hwrap
            refine ⟨_, hwrap, ?_⟩
            rw [securedFrom_of_starts hstarts, ← hchars, wrapped]
            simp only [chars, List.map_append]
            rfl
          · replace hstarts := eq_false_of_ne_true hstarts
            obtain ⟨fixed, hfixed, hchars⟩ := ih 0
            refine ⟨g :: fixed, .keep hstarts hfixed, ?_⟩
            rw [securedFrom_of_not_starts hstarts, ← hchars]
            rfl

namespace Secures

variable {gs fixed : List Glyph}

/-- Read again from its text, the fixed line has the glyphs that were written. -/
theorem glyphsFrom_chars (h : Secures gs fixed) {q : Quoting} {text : List Char}
    (hgs : glyphsFrom q text = gs) : glyphsFrom q (chars fixed) = fixed := by
  induction h generalizing q text with
  | nil => rfl
  | keep hstarts rest ih =>
      obtain - | ⟨c, text⟩ := text
      · exact absurd hgs (by simp [glyphsFrom])
      rw [glyphsFrom, List.cons.injEq] at hgs
      obtain ⟨rfl, hgs⟩ := hgs
      exact congrArg (_ :: ·) (ih hgs)
  | @wrap digits gs fixed hdigits rest ih =>
      obtain - | ⟨c, text⟩ := text
      · exact absurd hgs (by simp [glyphsFrom])
      rw [glyphsFrom, List.cons.injEq, Glyph.mk.injEq] at hgs
      obtain ⟨⟨rfl, hcode⟩, htail⟩ := hgs
      -- a reference is code, so the walk around it is as at the start of a line
      obtain ⟨rfl, hkeeps⟩ := Quoting.step_of_code hcode
      rw [hkeeps, ← glyphs_eq_glyphsFrom] at htail
      obtain ⟨text', -, hgs⟩ :=
        exists_glyphs_of_append_code htail fun d hd => isCode_of_isCodeDigit (hdigits d hd)
      rw [glyphs_eq_glyphsFrom] at hgs
      rw [chars, List.map_append, ← chars, ← chars, ← glyphs_eq_glyphsFrom,
        glyphs_wrapped_append hdigits, glyphs_eq_glyphsFrom, ih hgs.symm]

/-- The first place where a reference may start is where the line is first changed. -/
theorem exists_first_wrapped (h : Secures gs fixed) {i : Nat}
    (hi : startsReference (gs.drop i) = true) :
    ∃ before after tail, gs = before ++ ⟨'%', .code⟩ :: after
      ∧ fixed = before ++ (asCode "[secure(".toList ++ tail) := by
  induction h generalizing i with
  | nil => exact absurd hi (by simp [startsReference])
  | @keep g gs fixed hstarts rest ih =>
      obtain - | i := i
      · rw [List.drop_zero, hstarts] at hi
        exact absurd hi Bool.false_ne_true
      · obtain ⟨before, after, tail, rfl, rfl⟩ := ih hi
        exact ⟨g :: before, after, tail, rfl, rfl⟩
  | wrap digits hdigits rest ih => exact ⟨[], _, _, rfl, rfl⟩

end Secures

/-! ## What the fix changes in the checks -/

/-- Code opens and closes no literal; the walk over it counts columns. -/
theorem openLiteralFrom_append_of_code {code : List Glyph} (hcode : ∀ g ∈ code, g.isCode = true)
    (column : Nat) (opened : Option Nat) (rest : List Glyph) :
    openLiteralFrom column opened (code ++ rest)
      = openLiteralFrom (column + code.length) opened rest := by
  induction code generalizing column with
  | nil => rfl
  | cons g code ih =>
      obtain ⟨c, role⟩ := g
      obtain rfl : role = .code := beq_iff_eq.mp (hcode _ List.mem_cons_self)
      rw [List.cons_append, openLiteralFrom, ih fun g hg => hcode g (List.mem_cons_of_mem _ hg),
        List.length_cons, Nat.add_assoc, Nat.add_comm 1]

/-- The codes of what closing reports hang on the kinds of the openers alone. -/
theorem map_code_closeBracket (kind : Bracket) (column : Nat) (stack : List Opener) :
    (closeBracket kind column stack).1.map (·.defect.code)
      = if kind ∉ stack.map Prod.fst then [.unmatchedClosingBracket]
        else if (stack.map Prod.fst).head? = some kind then [] else [.mismatchedBracket] := by
  obtain ⟨hnone, hsettle, -⟩ | ⟨dropped, opener, below, rfl, hdropped, hsettle, -⟩ :=
    closeBracket_cases kind column stack
  · have hmem : kind ∉ stack.map Prod.fst := by
      rintro hkind
      obtain ⟨opener, hopener, rfl⟩ := List.mem_map.mp hkind
      exact hnone opener hopener rfl
    rw [closeBracket_flaws, hsettle, if_pos hmem]
    rfl
  · rw [closeBracket_flaws, hsettle, if_neg (by simp)]
    cases dropped with
    | nil => simp [Settlement.flaw?]
    | cons top dropped =>
        have htop := hdropped top List.mem_cons_self
        simp [Settlement.flaw?, Defect.code, htop]

namespace Secures

variable {gs fixed : List Glyph}

/-- The fix changes no code of the bracket check, whatever openers there are in front. -/
theorem map_code_bracketsFrom (h : Secures gs fixed) (column column' : Nat)
    {stack stack' : List Opener} (hkinds : stack.map Prod.fst = stack'.map Prod.fst) :
    (bracketsFrom column stack gs).map (·.defect.code)
      = (bracketsFrom column' stack' fixed).map (·.defect.code) := by
  induction h generalizing column column' stack stack' with
  | nil =>
      have hcodes : ∀ (column : Nat) (stack : List Opener),
          (bracketsFrom column stack []).map (·.defect.code)
            = (stack.map Prod.fst).reverse.map fun _ => .unclosedBracket := by
        intro column stack
        rw [bracketsFrom, ← List.map_reverse, List.map_map, List.map_map]
        rfl
      rw [hcodes, hcodes, hkinds]
  | @keep g gs fixed hstarts rest ih =>
      cases g using Glyph.mark_cases with
      | none hmark =>
          rw [bracketsFrom_cons_of_none hmark, bracketsFrom_cons_of_none hmark]
          exact ih _ _ hkinds
      | opening kind hmark =>
          rw [bracketsFrom_cons_of_opening hmark, bracketsFrom_cons_of_opening hmark]
          exact ih _ _ (congrArg (kind :: ·) hkinds)
      | closing kind hmark =>
          rw [bracketsFrom_cons_of_closing hmark, bracketsFrom_cons_of_closing hmark,
            List.map_append, List.map_append, map_code_closeBracket, map_code_closeBracket, hkinds]
          congr 1
          apply ih
          rw [← BracketProfile.unwind_map, ← BracketProfile.unwind_map, hkinds]
  | wrap digits hdigits rest ih =>
      rw [← List.cons_append, bracketsFrom_append_of_wellNested (wellNested_reference hdigits),
        bracketsFrom_append_of_wellNested (wellNested_wrapped hdigits)]
      exact ih _ _ hkinds

/-- The fix leaves a literal open if and only if the line did. -/
theorem isSome_openLiteralFrom (h : Secures gs fixed) (column column' : Nat)
    {opened opened' : Option Nat} (hopened : opened.isSome = opened'.isSome) :
    (openLiteralFrom column opened gs).isSome = (openLiteralFrom column' opened' fixed).isSome := by
  induction h generalizing column column' opened opened' with
  | nil => exact hopened
  | @keep g gs fixed hstarts rest ih =>
      rw [openLiteralFrom, openLiteralFrom]
      apply ih
      split
      · rfl
      · rfl
      · exact hopened
  | @wrap digits gs fixed hdigits rest ih =>
      have hreference : ∀ g ∈ (⟨'%', .code⟩ : Glyph) :: digits, g.isCode = true :=
        List.forall_mem_cons.mpr ⟨rfl, fun d hd => isCode_of_isCodeDigit (hdigits d hd)⟩
      rw [← List.cons_append, openLiteralFrom_append_of_code hreference,
        openLiteralFrom_append_of_code (isCode_of_mem_wrapped hdigits)]
      exact ih _ _ hopened

end Secures

/-! ## The fixed line calls a sanitizer -/

/-- A call does not go away when more is put in front of what the pass has left. -/
theorem mem_callsFrom_append {call : Call} {past before rest : List Glyph}
    (h : call ∈ callsFrom (before.reverse ++ past) rest) :
    call ∈ callsFrom past (before ++ rest) := by
  induction before generalizing past with
  | nil => exact h
  | cons g before ih =>
      rw [List.reverse_cons, List.append_assoc, List.singleton_append] at h
      simp only [List.cons_append, callsFrom]
      split
      · exact List.mem_append_right _ (ih h)
      · exact ih h

/-- The name of the sanitizer makes a call, since it stands behind a bracket. -/
theorem exists_callAt?_secure (past rest : List Glyph) :
    ∃ call, callAt? ((asCode "[secure".toList).reverse ++ past) rest = some call
      ∧ call.name = "secure" :=
  ⟨_, rfl, rfl⟩

/-- What is written in front of a reference calls a sanitizer, whatever stands around it. -/
theorem isSanitized_of_wrapped (before rest : List Glyph) :
    isSanitized (before ++ (asCode "[secure(".toList ++ rest)) = true := by
  obtain ⟨call, hcall, hname⟩ := exists_callAt?_secure before.reverse rest
  have hmem : call ∈ callsFrom ((asCode "[secure".toList).reverse ++ before.reverse)
      (⟨'(', .code⟩ :: rest) := by
    rw [callsFrom, if_pos (by decide), hcall]
    exact List.mem_cons_self
  have hword := mem_callsFrom_append hmem
  rw [← List.append_nil before.reverse] at hword
  rw [isSanitized, List.any_eq_true]
  refine ⟨call, mem_callsFrom_append hword, ?_⟩
  rw [hname]
  decide

/-! ## The fix -/

/-- A line that refers to a positional argument has a place where a reference may start. -/
theorem exists_startsReference {gs : List Glyph} (h : usesPositional gs = true) :
    ∃ i, startsReference (gs.drop i) = true := by
  rw [usesPositional, List.any_eq_true] at h
  obtain ⟨⟨column, reference⟩, hsub, hpositional⟩ := h
  cases reference with
  | positional n =>
      have hmem : column - 1 ∈ positionalStarts gs := List.mem_filterMap.mpr ⟨_, hsub, rfl⟩
      obtain ⟨i, -, hi⟩ := mem_percentStarts.mp ((positionalStarts_sublist gs).subset hmem)
      exact ⟨i, hi⟩
  | short register => exact absurd hpositional Bool.false_ne_true
  | named name closed => exact absurd hpositional Bool.false_ne_true

/-- A tip on hygiene is given on a line with positional references and wraps them. -/
theorem hygiene_eq_some {line : List Char} {tip : Tip} (h : hygiene line = some tip) :
    usesPositional (glyphs line) = true ∧ tip.after = secured (glyphs line) := by
  simp only [hygiene] at h
  split at h
  · exact absurd h (by simp)
  · split at h
    · rename_i hneeded
      rw [Bool.and_eq_true] at hneeded
      obtain rfl := Option.some.inj h
      exact ⟨hneeded.1, rfl⟩
    · exact absurd h (by simp)

/-- A line with a sanitizer gets no tip on hygiene. -/
theorem hygiene_of_isSanitized {line : List Char} (h : isSanitized (glyphs line) = true) :
    hygiene line = none := by
  simp only [hygiene, h, Bool.not_true, Bool.and_false, Bool.false_eq_true, if_false]
  split <;> rfl

/-- **The fix is effective and safe.** On every code line with a tip on unsanitized input, the text
of the tip is code that needs no such tip, the bracket check gives it the codes it gave the line,
and it leaves a literal open if and only if the line did. -/
theorem hygiene_fix_effective_and_safe {line : List Char} {tip : Tip}
    (hcode : isCode line = true) (htip : hygiene line = some tip) :
    isCode tip.after = true
    ∧ hygiene tip.after = none
    ∧ (brackets (glyphs tip.after)).map (·.defect.code)
      = (brackets (glyphs line)).map (·.defect.code)
    ∧ ((unterminatedLiteral (glyphs tip.after)).isSome = true
      ↔ (unterminatedLiteral (glyphs line)).isSome = true) := by
  obtain ⟨huses, hafter⟩ := hygiene_eq_some htip
  obtain ⟨fixed, hfixed, hchars⟩ := exists_secures (glyphs line) 0
  rw [List.drop_zero] at hfixed
  have hglyphs : glyphs tip.after = fixed := by
    rw [hafter, secured, ← hchars, glyphs_eq_glyphsFrom]
    exact hfixed.glyphsFrom_chars (glyphs_eq_glyphsFrom line).symm
  obtain ⟨i, hi⟩ := exists_startsReference huses
  obtain ⟨before, after, tail, hline, htext⟩ := hfixed.exists_first_wrapped hi
  refine ⟨?_, hygiene_of_isSanitized ?_, ?_, ?_⟩
  · rw [← chars_glyphs line, hline, chars, List.map_append] at hcode
    rw [← chars_glyphs tip.after, hglyphs, htext, chars, List.map_append]
    exact (isCode_append_solid (by decide) (by decide) _ _ _).trans hcode
  · rw [hglyphs, htext]
    exact isSanitized_of_wrapped before tail
  · rw [hglyphs]
    exact (hfixed.map_code_bracketsFrom 1 1 rfl).symm
  · rw [hglyphs, unterminatedLiteral, unterminatedLiteral, hfixed.isSome_openLiteralFrom 1 1 rfl]

/-- A line whose brackets do not nest and whose last literal stays open. -/
theorem hygiene_fix_effective_and_safe_broken_line :
    ∃ line tip, line = "@force me=(%0])%%1 \"%2".toList ∧ isCode line = true
      ∧ hygiene line = some tip
      ∧ tip.after = "@force me=([secure(%0)]])%[secure(%1)] \"%2".toList
      ∧ isCode tip.after = true ∧ hygiene tip.after = none
      ∧ (brackets (glyphs tip.after)).map (·.defect.code) = [.unmatchedClosingBracket]
      ∧ (unterminatedLiteral (glyphs tip.after)).isSome = true := by
  have hcode : isCode "@force me=(%0])%%1 \"%2".toList = true := by decide
  have htip : hygiene "@force me=(%0])%%1 \"%2".toList
      = some ⟨1, .unsanitizedInput, "@force me=(%0])%%1 \"%2".toList,
        "@force me=([secure(%0)]])%[secure(%1)] \"%2".toList⟩ := by rfl
  obtain ⟨hafter, hquiet, hcodes, hliteral⟩ := hygiene_fix_effective_and_safe hcode htip
  exact ⟨_, _, rfl, hcode, htip, rfl, hafter, hquiet, hcodes.trans (by decide),
    hliteral.mpr (by decide)⟩

end Softcode.Practice
