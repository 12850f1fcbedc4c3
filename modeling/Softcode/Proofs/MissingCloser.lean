import Softcode.Proofs.BracketPairs
import Softcode.Proofs.LineEdits
import Softcode.Proofs.Validity

/-!
# One missing closer

A line without bracket flaws loses one closing bracket. Its opener then stays on the stack as a
surplus. The closer of the next pair around it takes it in place of its own opener if the kinds
agree, which makes that opener the surplus; otherwise the closer reports a mismatch and drops it. So
the surplus moves outwards to the first pair of another kind, or to the end of the line
(`bracketsFrom_surplus_mismatched`, `bracketsFrom_surplus_unclosed`), and there is one flaw. The
counts over the script find nothing more to report in the second case, and one opener in the first,
which nobody has reported as unclosed (`one_missing_closer`).
-/

namespace Softcode

namespace LineCheck

/-! ## The way of a surplus opener -/

section Surplus

variable {kind : Bracket} {gs : List Glyph}

/-- Among openers of its own kind the surplus is handed outwards to the end of the line. -/
theorem bracketsFrom_surplus_unclosed {around : List Opener}
    (hsame : ∀ opener ∈ around, opener.1 = kind)
    (h : pending (around.map Prod.fst) (Line.marks gs) = some []) (column surplus : Nat) :
    ∃ left, bracketsFrom column ((kind, surplus) :: around) gs
      = [⟨left, .unclosedOpener kind⟩] := by
  induction around generalizing gs column surplus with
  | nil =>
      have hnested := (wellNested_iff_pending _).mpr h
      refine ⟨surplus, ?_⟩
      rw [← List.append_nil gs, bracketsFrom_append_of_wellNested hnested]
      rfl
  | cons next around ih =>
      obtain ⟨nextKind, opener⟩ := next
      obtain rfl : nextKind = kind := hsame _ List.mem_cons_self
      obtain ⟨inner, g, rest, rfl, hinner, hmark, hrest⟩ := exists_closing_of_pending h
      obtain ⟨left, hleft⟩ := ih (fun o ho => hsame o (List.mem_cons_of_mem _ ho)) hrest
        (column + inner.length + 1) opener
      refine ⟨left, ?_⟩
      rw [bracketsFrom_append_of_wellNested hinner, bracketsFrom_cons_of_closing hmark,
        closeBracket_cons_self, List.nil_append, hleft]

/-- A closer that meets the surplus on top of its own opener reports a mismatch and drops it. -/
theorem closeBracket_surplus {other : Bracket} (hother : other ≠ kind)
    (column surplus opener : Nat) (below : List Opener) :
    closeBracket other column ((kind, surplus) :: (other, opener) :: below)
      = ([⟨column, .mismatchedCloser other kind surplus⟩], below) := by
  simp [closeBracket, hother.symm]

/-- The surplus is handed outwards to the first opener of another kind, whose closer reports the one
mismatch. There the line as it was has that opener on top. -/
theorem bracketsFrom_surplus_mismatched {other : Bracket} {opener : Nat}
    {same below : List Opener} (hother : other ≠ kind) (hsame : ∀ o ∈ same, o.1 = kind)
    (h : pending ((same ++ (other, opener) :: below).map Prod.fst) (Line.marks gs) = some [])
    (column surplus : Nat) :
    ∃ front g back top, gs = front ++ g :: back ∧ g.closes = some other
      ∧ (∀ start, stackFrom start (same ++ (other, opener) :: below) front
          = (other, opener) :: below)
      ∧ bracketsFrom column ((kind, surplus) :: (same ++ (other, opener) :: below)) gs
          = [⟨column + front.length, .mismatchedCloser other kind top⟩] := by
  induction same generalizing gs column surplus with
  | nil =>
      obtain ⟨inner, g, rest, rfl, hinner, hmark, hrest⟩ := exists_closing_of_pending h
      refine ⟨inner, g, rest, surplus, rfl, (g.mark?_eq_closing_iff other).mp hmark,
        fun start => stackFrom_of_wellNested hinner start _, ?_⟩
      rw [bracketsFrom_append_of_wellNested hinner, bracketsFrom_cons_of_closing hmark,
        List.nil_append, closeBracket_surplus hother, (bracketsFrom_eq_nil_iff _ _ _).mpr hrest,
        List.append_nil]
  | cons next same ih =>
      obtain ⟨nextKind, nextOpener⟩ := next
      obtain rfl : nextKind = kind := hsame _ List.mem_cons_self
      obtain ⟨inner, g, rest, rfl, hinner, hmark, hrest⟩ := exists_closing_of_pending h
      obtain ⟨front, closer, back, top, rfl, hcloses, hstack, hflaw⟩ :=
        ih (fun o ho => hsame o (List.mem_cons_of_mem _ ho)) hrest (column + inner.length + 1)
          nextOpener
      refine ⟨inner ++ g :: front, closer, back, top, by simp, hcloses, fun start => ?_, ?_⟩
      · rw [List.cons_append, stackFrom_append, stackFrom_of_wellNested hinner, stackFrom]
        simp only [stackAfter, hmark, closeBracket_cons_self, hstack]
      · rw [bracketsFrom_append_of_wellNested hinner, bracketsFrom_cons_of_closing hmark,
          closeBracket_cons_self, List.nil_append, List.cons_append, hflaw, List.length_append,
          List.length_cons]
        have hcolumn : column + inner.length + 1 + front.length
            = column + (inner.length + (front.length + 1)) := by omega
        rw [hcolumn]

end Surplus

/-! ## The flaw of the line -/

section Erased

open Line (Pair PairAround)

variable {gs : List Glyph} {kind : Bracket} {opener i : Nat}

/-- After the place of the missing closer the walk goes on with the opener still on top. -/
theorem brackets_eraseIdx (hclean : brackets gs = []) (hpair : Pair gs kind opener i) :
    brackets (gs.eraseIdx i)
      = bracketsFrom (i + 1) ((kind, opener + 1) :: stackAt gs opener) (gs.drop (i + 1)) := by
  have hquiet := bracketsFrom_append_of_pending [] (pending_at hclean i).1 1 [] (gs.drop (i + 1))
  rw [List.length_take_of_le (Nat.le_of_lt hpair.closer_lt_length), ← stackAt,
    List.append_nil, List.append_nil, hpair.stackAt_closer, Nat.add_comm 1 i] at hquiet
  rw [brackets, List.eraseIdx_eq_take_drop_succ, hquiet]

/-- The openers of the pairs around a pair are on the stack where that pair opens. -/
theorem mem_stackAt_of_pairAround (hclean : brackets gs = []) (hpair : Pair gs kind opener i)
    {other : Bracket} {a b : Nat} (haround : PairAround gs opener i other a b) :
    (other, a + 1) ∈ stackAt gs opener := by
  obtain ⟨houter, ha, hb⟩ := haround
  rw [← hpair.stackAt_after]
  exact (mem_stackAt_iff hclean).mpr ⟨b, houter, Nat.lt_succ_of_lt (ha.trans hpair.lt), hb⟩

/-- A line that loses the closer of a pair has one bracket flaw: the pair, or one around it of the
same kind, is unclosed if there is no other kind around it; otherwise the innermost pair of another
kind is closed too early. -/
theorem brackets_eraseIdx_cases (hclean : brackets gs = []) (hpair : Pair gs kind opener i) :
    ((∀ other a b, PairAround gs opener i other a b → other = kind)
      ∧ ∃ left, brackets (gs.eraseIdx i) = [⟨left, .unclosedOpener kind⟩])
    ∨ ∃ other a b, PairAround gs opener i other a b ∧ other ≠ kind
      ∧ (∀ inner a' b', PairAround gs opener i inner a' b' → a < a' → inner = kind)
      ∧ ∃ top, brackets (gs.eraseIdx i) = [⟨b, .mismatchedCloser other kind top⟩] := by
  have hrest := (pending_at hclean (i + 1)).2
  rw [hpair.stackAt_after] at hrest
  rw [brackets_eraseIdx hclean hpair]
  -- the openers of the same kind up to the first one of another
  have hsplit : (stackAt gs opener).takeWhile (·.1 == kind)
      ++ (stackAt gs opener).dropWhile (·.1 == kind) = stackAt gs opener :=
    List.takeWhile_append_dropWhile
  have hsame : ∀ o ∈ (stackAt gs opener).takeWhile (·.1 == kind), o.1 = kind :=
    fun o ho => by simpa using List.mem_takeWhile_imp ho
  cases hdrop : (stackAt gs opener).dropWhile (·.1 == kind) with
  | nil =>
      left
      rw [hdrop, List.append_nil] at hsplit
      rw [hsplit] at hsame
      refine ⟨fun other a b haround => ?_, bracketsFrom_surplus_unclosed hsame hrest _ _⟩
      exact hsame _ (mem_stackAt_of_pairAround hclean hpair haround)
  | cons first below =>
      right
      obtain ⟨other, column⟩ := first
      have hother : other ≠ kind := by
        have hhead := List.head?_dropWhile_not (fun o : Opener => o.1 == kind) (stackAt gs opener)
        rw [hdrop] at hhead
        simpa using hhead
      rw [hdrop] at hsplit
      have hmem : (other, column) ∈ stackAt gs opener :=
        hsplit ▸ List.mem_append_right _ List.mem_cons_self
      obtain ⟨a, ha, hcolumn, -⟩ := opened_of_mem_stackAt hmem
      simp only at hcolumn
      subst hcolumn
      have hsorted := pairwise_stackAt gs opener
      rw [← hsplit] at hrest hsorted ⊢
      obtain ⟨front, g, back, top, hfront, hcloses, hstack, hflaw⟩ :=
        bracketsFrom_surplus_mismatched hother hsame hrest (i + 1) (opener + 1)
      -- the closer that reports the mismatch is the one that took the opener before
      have hcloser : gs[i + 1 + front.length]?.bind Glyph.closes = some other := by
        rw [← List.getElem?_drop, hfront, List.getElem?_append_right (Nat.le_refl _), Nat.sub_self,
          List.getElem?_cons_zero]
        exact hcloses
      have htop : stackAt gs (i + 1 + front.length) = (other, a + 1) :: below := by
        rw [stackAt_add (Nat.succ_le_of_lt hpair.closer_lt_length), hpair.stackAt_after, hfront,
          List.take_left, ← hsplit]
        exact hstack _
      refine ⟨other, a, i + 1 + front.length,
        ⟨pair_of_stackAt hclean hcloser htop, ha, by omega⟩, hother, ?_, top, hflaw⟩
      intro inner a' b' haround hlt
      have hinner := mem_stackAt_of_pairAround hclean hpair haround
      rw [← hsplit, List.mem_append] at hinner
      rcases hinner with hin | hout
      · exact hsame _ hin
      · -- openers from the first one of another kind on are not further in than it
        have hbelow := (List.pairwise_append.mp hsorted).2.1
        rw [List.pairwise_cons] at hbelow
        rcases List.mem_cons.mp hout with heq | hin
        · simp only [Prod.mk.injEq] at heq
          omega
        · have hcolumn := hbelow.1 _ hin
          simp only at hcolumn
          omega

end Erased

/-! ## The counts over the script -/

/-- On a line without bracket flaws each kind is opened as often as it is closed. -/
theorem countP_opens_eq_countP_closes {gs : List Glyph} (hclean : brackets gs = [])
    (kind : Bracket) :
    gs.countP (·.opens == some kind) = gs.countP (·.closes == some kind) := by
  have hdropped : droppedCount gs kind = 0 := by
    by_contra hpos
    obtain ⟨flaw, hflaw, -⟩ := exists_mismatch_of_droppedCount_pos (Nat.pos_of_ne_zero hpos)
    rw [hclean] at hflaw
    exact absurd hflaw List.not_mem_nil
  have hbalance := line_balance gs kind
  simp only [reported, hclean, List.countP_nil, hdropped, Nat.add_zero] at hbalance
  exact hbalance

/-- Glyphs at the end that are no brackets do not show in the check. -/
theorem bracketsFrom_append_of_unmarked {tail : List Glyph} (h : ∀ g ∈ tail, g.mark? = none)
    (column : Nat) (stack : List Opener) (gs : List Glyph) :
    bracketsFrom column stack (gs ++ tail) = bracketsFrom column stack gs := by
  induction gs generalizing column stack with
  | nil =>
      have hnested : WellNested (Line.marks tail) := by
        rw [Line.marks, List.filterMap_eq_nil_iff.mpr h]
        exact .nil
      rw [List.nil_append, ← List.append_nil tail, bracketsFrom_append_of_wellNested hnested]
      rfl
  | cons g gs ih =>
      rw [List.cons_append]
      cases g using Glyph.mark_cases with
      | none hmark => rw [bracketsFrom_cons_of_none hmark, bracketsFrom_cons_of_none hmark, ih]
      | opening kind hmark =>
          rw [bracketsFrom_cons_of_opening hmark, bracketsFrom_cons_of_opening hmark, ih]
      | closing kind hmark =>
          rw [bracketsFrom_cons_of_closing hmark, bracketsFrom_cons_of_closing hmark, ih]

end LineCheck

/-- The carriage returns that a line loses are no brackets. -/
theorem Line.glyphs_dropReturns (line : List Char) :
    ∃ tail, glyphs line = glyphs (Text.dropReturns line) ++ tail ∧ ∀ g ∈ tail, g.mark? = none := by
  obtain ⟨returns, hline, hreturns⟩ := Text.dropReturns_append line
  have hwalk := glyphsFrom_append ⟨false, false⟩ (Text.dropReturns line) returns
  rw [← hline, ← glyphs_eq_glyphsFrom, ← glyphs_eq_glyphsFrom] at hwalk
  refine ⟨_, hwalk, fun g hg => ?_⟩
  have hchar : g.char = '\r' := by
    refine hreturns g.char ?_
    rw [← chars_glyphsFrom _ returns]
    exact List.mem_map_of_mem hg
  have hopen : Bracket.ofOpen? '\r' = none := by decide
  have hclose : Bracket.ofClose? '\r' = none := by decide
  rw [g.mark?_eq_none_iff, Glyph.opens, Glyph.closes, hchar, hopen, hclose]
  exact ⟨ite_self none, ite_self none⟩

theorem Glyph.isCode_of_closes {g : Glyph} {kind : Bracket} (h : g.closes = some kind) :
    g.isCode = true := by
  by_contra hcode
  rw [closes, if_neg hcode] at h
  exact absurd h (by simp)

namespace BracketProfile

open LineCheck

/-- Over one line the unreported openers are those it opens beyond what it closes and reports. -/
theorem unreportedOpen_build_singleton (number : Nat) (line : List Char) (kind : Bracket) :
    (build [(number, line)]).unreportedOpen kind
      = (Line.glyphs line).countP (·.opens == some kind)
        - (Line.glyphs line).countP (·.closes == some kind)
        - reported (Line.glyphs line) (.unclosedOpener kind) := by
  have hnet := addLine_netOpen {} (number, line) kind
  have hopen := addLine_lineOpen {} (number, line) kind
  have hzero : ∀ t : Tally, t = {} → t.get kind = 0 := by
    rintro t rfl
    cases kind <;> rfl
  rw [netOpen, netOpen, hzero _ rfl] at hnet
  rw [hzero _ rfl] at hopen
  rw [build, List.foldl_cons, List.foldl_nil, unreportedOpen, hnet, hopen]
  simp only [Int.zero_add]

/-- What the counts over a line see does not depend on carriage returns at its end. -/
theorem unreportedOpen_build_dropReturns (number : Nat) (line : List Char) (kind : Bracket) :
    (build [(number, Text.dropReturns line)]).unreportedOpen kind
      = (build [(number, line)]).unreportedOpen kind := by
  obtain ⟨tail, hglyphs, htail⟩ := Line.glyphs_dropReturns line
  have hopens : tail.countP (·.opens == some kind) = 0 := by
    rw [List.countP_eq_zero]
    intro g hg
    simp [(g.mark?_eq_none_iff.mp (htail g hg)).1]
  have hcloses : tail.countP (·.closes == some kind) = 0 := by
    rw [List.countP_eq_zero]
    intro g hg
    simp [(g.mark?_eq_none_iff.mp (htail g hg)).2]
  rw [unreportedOpen_build_singleton, unreportedOpen_build_singleton, hglyphs, List.countP_append,
    List.countP_append, hopens, hcloses, reported, reported, brackets, brackets,
    bracketsFrom_append_of_unmarked htail]
  omega

/-- Once a closer is missing, its kind has one opener more than closers, which is unreported unless
the line reports it as unclosed. -/
theorem unreportedOpen_build_eraseIdx (number : Nat) {line : List Char} {i : Nat} {kind : Bracket}
    (hclean : brackets (Line.glyphs line) = [])
    (hcloser : (Line.glyphs line)[i]?.bind Glyph.closes = some kind) (other : Bracket) :
    (build [(number, line.eraseIdx i)]).unreportedOpen other
      = (if kind = other then 1 else 0)
        - reported ((Line.glyphs line).eraseIdx i) (.unclosedOpener other) := by
  obtain ⟨g, hg, hcloses⟩ := Option.bind_eq_some_iff.mp hcloser
  have hopens := g.opens_eq_none_of_mark? ((g.mark?_eq_closing_iff kind).mpr hcloses)
  have hbalance := countP_opens_eq_countP_closes hclean other
  rw [unreportedOpen_build_singleton, Line.glyphs_eraseIdx hg (Glyph.isCode_of_closes hcloses)]
  generalize Line.glyphs line = gs at hg hbalance ⊢
  rw [← List.take_append_drop i gs, Line.drop_eq_cons hg, List.countP_append, List.countP_append,
    List.countP_cons, List.countP_cons, hopens, hcloses] at hbalance
  rw [List.eraseIdx_eq_take_drop_succ, List.countP_append, List.countP_append]
  simp only [beq_iff_eq, reduceCtorEq, if_false, Option.some.injEq] at hbalance
  by_cases hkind : kind = other
  · rw [if_pos hkind] at hbalance ⊢
    omega
  · rw [if_neg hkind] at hbalance ⊢
    omega

end BracketProfile

namespace Syntax

open BracketProfile

/-- The findings about the brackets of the script as a whole. -/
def scriptBracketFindings (c : Context) : List SyntaxFinding :=
  (scriptFindings c).filter fun f => Code.bracketCodes.contains f.code

/-- They are the kinds left open across the lines. -/
theorem scriptBracketFindings_eq (c : Context) :
    scriptBracketFindings c = unbalanced (build c.codeLines) := by
  rw [scriptBracketFindings, scriptFindings, List.filter_append, List.filter_eq_self.mpr,
    List.filter_eq_nil_iff.mpr, List.append_nil]
  · intro f hf
    rw [code_of_mem_nesting hf]
    decide
  · intro f hf
    rw [code_of_mem_unbalanced hf]
    decide

theorem unbalanced_eq_nil {profile : BracketProfile}
    (h : ∀ kind, profile.unreportedOpen kind = 0) : unbalanced profile = [] := by
  simp [unbalanced, h]

theorem unbalanced_eq_singleton {profile : BracketProfile} {kind : Bracket}
    (h : ∀ other, profile.unreportedOpen other = if kind = other then 1 else 0) :
    unbalanced profile = [Flaw.finding 1 ⟨1, .unbalanced kind 1⟩] := by
  cases kind <;> simp [unbalanced, Bracket.all, h]

end Syntax

/-! ## The script of one line -/

theorem Glyph.char_of_opens {g : Glyph} {kind : Bracket} (h : g.opens = some kind) :
    g.char = kind.openChar := by
  rw [opens] at h
  split at h
  · have hfound := List.find?_some h
    exact (beq_iff_eq.mp hfound).symm
  · exact absurd h (by simp)

/-- An opening bracket shows and is no part of a comment mark. -/
theorem Bracket.isSolid_openChar (kind : Bracket) : Text.isSolid kind.openChar = true := by
  cases kind <;> decide

/-- What is taken out of a line behind an opening bracket does not make it a comment. -/
theorem Line.isCode_eraseIdx {line : List Char} {opener i : Nat} {kind : Bracket}
    (hopens : (glyphs line)[opener]?.bind Glyph.opens = some kind) (hlt : opener < i) :
    isCode (line.eraseIdx i) = isCode line
      ∧ isCode (Text.dropReturns (line.eraseIdx i)) = isCode line := by
  obtain ⟨g, hg, hopens⟩ := Option.bind_eq_some_iff.mp hopens
  have hchar := getElem?_of_glyphs hg
  obtain ⟨hlength, -⟩ := List.getElem?_eq_some_iff.mp hchar
  obtain ⟨before, after, hline, hbefore⟩ :
      ∃ before after, line = before ++ g.char :: after ∧ before.length = opener := by
    refine ⟨line.take opener, line.drop (opener + 1), ?_, List.length_take_of_le hlength.le⟩
    rw [← List.singleton_append, ← Option.toList_some, ← hchar,
      ← List.drop_eq_getElem?_toList_append, List.take_append_drop]
  have hsolid : Text.isSolid g.char = true := Glyph.char_of_opens hopens ▸ kind.isSolid_openChar
  have hreturn : g.char ≠ '\r' := fun heq => absurd (heq ▸ hsolid) (by decide)
  obtain ⟨m, rfl⟩ := Nat.exists_eq_add_of_lt hlt
  have herased : line.eraseIdx (opener + m + 1) = before ++ g.char :: after.eraseIdx m := by
    have hi : opener + m + 1 - opener = m + 1 := by omega
    rw [hline, List.eraseIdx_append_of_length_le (by omega), hbefore, hi, List.eraseIdx_cons_succ]
  rw [herased, Text.dropReturns_append_of_ne hreturn, hline]
  exact ⟨isCode_append_solid hsolid hsolid _ _ _, isCode_append_solid hsolid hsolid _ _ _⟩

/-- A text without line feeds that is code is a script of one code line. -/
theorem Context.codeLines_of_isCode (c : Context) (hfeed : '\n' ∉ c.text)
    (hcode : Line.isCode (Text.dropReturns c.text) = true) :
    c.codeLines = [(1, Text.dropReturns c.text)] := by
  have hne : c.text ≠ [] := by
    intro hnil
    rw [hnil] at hcode
    exact absurd hcode (by decide)
  rw [codeLines, lines, Text.lines_of_not_mem hfeed hne]
  exact List.filter_cons_of_pos hcode

section OneLine

open LineCheck Syntax Line

/-- **One missing closer gives one line error.** Take out a structural closing bracket from a code
line without bracket flaws. What is left is a code line with exactly one bracket flaw. If every pair
around the pair of the bracket is of the same kind, an opener of the kind is reported as unclosed,
and the script of that one line has no further finding about brackets. Otherwise the closer of the
innermost pair of another kind is reported as a mismatch, and the script adds that one opener of the
kind is left open. The closer at index `b` stands at column `b` of the shorter line. -/
theorem one_missing_closer (c : Context) {line : List Char} {i : Nat} {kind : Bracket}
    (hcode : isCode line = true) (hfeed : '\n' ∉ line) (hclean : brackets (glyphs line) = [])
    (hcloser : (glyphs line)[i]?.bind Glyph.closes = some kind) :
    isCode (line.eraseIdx i) = true
    ∧ ∃ opener, Pair (glyphs line) kind opener i
      ∧ (((∀ other a b, PairAround (glyphs line) opener i other a b → other = kind)
          ∧ (∃ left, brackets (glyphs (line.eraseIdx i)) = [⟨left, .unclosedOpener kind⟩])
          ∧ scriptBracketFindings { c with text := line.eraseIdx i } = [])
        ∨ ∃ other a b, PairAround (glyphs line) opener i other a b ∧ other ≠ kind
          ∧ (∀ inner a' b', PairAround (glyphs line) opener i inner a' b' → a < a' → inner = kind)
          ∧ (∃ top, brackets (glyphs (line.eraseIdx i)) = [⟨b, .mismatchedCloser other kind top⟩])
          ∧ scriptBracketFindings { c with text := line.eraseIdx i }
              = [Flaw.finding 1 ⟨1, .unbalanced kind 1⟩]) := by
  obtain ⟨opener, hpair⟩ := exists_pair_of_closes hclean hcloser
  obtain ⟨hshorter, hreturns⟩ := isCode_eraseIdx hpair.opens hpair.lt
  obtain ⟨g, hg, hcloses⟩ := Option.bind_eq_some_iff.mp hcloser
  have hglyphs := glyphs_eraseIdx hg (Glyph.isCode_of_closes hcloses)
  -- the script has this one line, so the counts over it are known but for what the line reports
  have hlines := Context.codeLines_of_isCode { c with text := line.eraseIdx i }
    (fun hmem => hfeed (List.mem_of_mem_eraseIdx hmem)) (hreturns.trans hcode)
  have hcount : ∀ other, (BracketProfile.build
      (Context.codeLines { c with text := line.eraseIdx i })).unreportedOpen other
        = (if kind = other then 1 else 0)
          - reported ((glyphs line).eraseIdx i) (.unclosedOpener other) := by
    intro other
    rw [hlines, BracketProfile.unreportedOpen_build_dropReturns,
      BracketProfile.unreportedOpen_build_eraseIdx 1 hclean hcloser]
  refine ⟨hshorter.trans hcode, opener, hpair, ?_⟩
  rw [scriptBracketFindings_eq, hglyphs]
  rcases brackets_eraseIdx_cases hclean hpair with
    ⟨hsame, left, hflaw⟩ | ⟨other, a, b, haround, hother, hinner, top, hflaw⟩
  · refine Or.inl ⟨hsame, ⟨left, hflaw⟩, unbalanced_eq_nil fun other => ?_⟩
    rw [hcount, reported, hflaw]
    by_cases hkind : kind = other <;> simp [hkind]
  · refine Or.inr ⟨other, a, b, haround, hother, hinner, ⟨top, hflaw⟩,
      unbalanced_eq_singleton fun other => ?_⟩
    rw [hcount, reported, hflaw]
    simp

/-- The surplus parenthesis is handed on by the one around it and dropped by the brace. -/
theorem one_missing_closer_handed_on :
    ∃ line : List Char, line = "{f((a))}".toList ∧ isCode line = true ∧ '\n' ∉ line
      ∧ brackets (glyphs line) = [] ∧ (glyphs line)[5]?.bind Glyph.closes = some .paren
      ∧ brackets (glyphs (line.eraseIdx 5)) = [⟨7, .mismatchedCloser .brace .paren 3⟩]
      ∧ ∃ opener a, Pair (glyphs line) .paren opener 5
        ∧ PairAround (glyphs line) opener 5 .brace a 7
        ∧ scriptBracketFindings { text := line.eraseIdx 5 }
            = [Flaw.finding 1 ⟨1, .unbalanced .paren 1⟩] := by
  have hflaw : brackets (glyphs ("{f((a))}".toList.eraseIdx 5))
      = [⟨7, .mismatchedCloser .brace .paren 3⟩] := by decide
  obtain ⟨-, opener, hpair, hcases⟩ := one_missing_closer { text := [] }
    (show isCode "{f((a))}".toList = true by decide) (by decide) (by decide)
    (show (glyphs "{f((a))}".toList)[5]?.bind Glyph.closes = some .paren by decide)
  refine ⟨_, rfl, by decide, by decide, by decide, by decide, hflaw, opener, ?_⟩
  rcases hcases with ⟨-, ⟨left, hleft⟩, -⟩ | ⟨other, a, b, haround, -, -, ⟨top, hfound⟩, hscript⟩
  · rw [hflaw] at hleft
    simp at hleft
  · rw [hflaw] at hfound
    simp only [List.cons.injEq, Flaw.mk.injEq, Defect.mismatchedCloser.injEq] at hfound
    obtain ⟨⟨rfl, rfl, -, -⟩, -⟩ := hfound
    exact ⟨a, hpair, haround, hscript⟩

end OneLine

end Softcode
