import Mathlib.Data.List.Sort
import Softcode.Pattern.Reader
import Softcode.Proofs.Positions

/-!
# Where security rules match

A rule is matched against the whole text, and its findings say where each match starts. They report
all matches, each at its exact place (`security_findings_located`).

The search goes through the text once. At each place it takes the match that the pattern prefers
there, if that is not empty, and goes on behind it; otherwise it goes on behind the next character
(`search_induction`). So a match is left out only if it starts inside another one, and that leaves
just one list of matches (`findsAll_iff`). A match that is not empty starts at a character, and
every character stands on one of the lines counted, the line feed at the end of the text too: so no
finding has to be moved to the last line.
-/

namespace Softcode

open Text

namespace Pattern

variable {p : Pattern}

/-! ## A match lies in the text -/

/-- A match ends within the text. -/
theorem follow_le {before : Option Char} {ways : List (List Step)} {count n : Nat}
    {best : Option Nat} {text : List Char} (hbest : ∀ m ∈ best, m ≤ count)
    (h : follow before ways count best text = some n) : n ≤ count + text.length := by
  induction text generalizing before ways count best with
  | nil =>
      rw [follow] at h
      split at h
      · exact (Option.some.inj h).symm.le
      · exact hbest n h
  | cons c rest ih =>
      rw [follow] at h
      have hupdated : ∀ m ∈ if (allMoves before (some c) ways).contains .accept then some count
          else best, m ≤ count := by
        intro m hm
        split at hm
        · exact (Option.some.inj hm).symm.le
        · exact hbest m hm
      rw [List.length_cons]
      split at h
      · exact (hupdated n h).trans (Nat.le_add_right _ _)
      · have := ih (fun m hm => (hupdated m hm).trans (Nat.le_succ _)) h
        omega

/-- A match is not longer than the text. -/
theorem matchLength?_le {before : Option Char} {text : List Char} {n : Nat}
    (h : p.matchLength? before text = some n) : n ≤ text.length := by
  have := follow_le (by simp) h
  omega

/-! ## Matches from left to right -/

/-- Between `front` and `back` stands a match that is not empty, and the pattern prefers it to all
others that start there. -/
structure Matches (p : Pattern) (front matched back : List Char) : Prop where
  ne_nil : matched ≠ []
  length : p.matchLength? front.getLast? (matched ++ back) = some matched.length

/-- The span of a text is a match that is not empty. -/
def IsMatch (p : Pattern) (text : List Char) (s : Span) : Prop :=
  ∃ front matched back, text = front ++ matched ++ back
    ∧ s = ⟨byteSize front, byteSize (front ++ matched)⟩ ∧ p.Matches front matched back

/-- The matches in the rest of a text of which a first part has been searched. -/
def spansAfter (p : Pattern) (past rest : List Char) : List Span :=
  p.spansFrom (byteSize past) 0 past.getLast? rest

/-- The search goes on behind a character as it does behind the text up to it. -/
theorem spansFrom_concat (past : List Char) (c : Char) (skip : Nat) (rest : List Char) :
    p.spansFrom (byteSize past + c.utf8Size) skip (some c) rest
      = p.spansFrom (byteSize (past ++ [c])) skip (past ++ [c]).getLast? rest := by
  rw [byteSize_append, byteSize_cons, byteSize_nil, Nat.add_zero, List.getLast?_concat]

/-- Characters that belong to a match already found are passed over. -/
theorem spansFrom_skip (past skipped rest : List Char) :
    p.spansFrom (byteSize past) skipped.length past.getLast? (skipped ++ rest)
      = p.spansAfter (past ++ skipped) rest := by
  induction skipped generalizing past with
  | nil => rw [List.append_nil, List.nil_append, List.length_nil, spansAfter]
  | cons c skipped ih =>
      rw [List.cons_append, List.length_cons, spansFrom, spansFrom_concat, ih, ← List.append_cons]

/-- A match is reported, and the search goes on behind it. -/
theorem spansAfter_of_matches {past matched back : List Char} (h : p.Matches past matched back) :
    p.spansAfter past (matched ++ back)
      = ⟨byteSize past, byteSize (past ++ matched)⟩ :: p.spansAfter (past ++ matched) back := by
  obtain ⟨c, more, rfl⟩ := List.exists_cons_of_ne_nil h.ne_nil
  have hlength := h.length
  rw [List.cons_append, List.length_cons] at hlength
  have hstop : byteSize past + c.utf8Size + byteSize ((more ++ back).take more.length)
      = byteSize (past ++ c :: more) := by
    rw [List.take_left, byteSize_append, byteSize_cons, Nat.add_assoc]
  rw [spansAfter, List.cons_append, spansFrom]
  simp only [hlength, hstop]
  rw [spansFrom_concat, spansFrom_skip, ← List.append_cons]

/-- Where no match starts, the search goes on behind the next character. -/
theorem spansAfter_of_not_matches {past : List Char} {c : Char} {rest : List Char}
    (h : ∀ matched back, c :: rest = matched ++ back → ¬ p.Matches past matched back) :
    p.spansAfter past (c :: rest) = p.spansAfter (past ++ [c]) rest := by
  have hnone : ∀ n, p.matchLength? past.getLast? (c :: rest) ≠ some (n + 1) := by
    intro n hn
    have hle := matchLength?_le hn
    refine h _ _ (List.take_append_drop (n + 1) (c :: rest)).symm ⟨by simp, ?_⟩
    rw [List.take_append_drop, List.length_take_of_le hle, hn]
  rw [spansAfter, spansFrom, spansAfter, ← spansFrom_concat]
  split
  · rename_i n hn
    exact absurd hn (hnone n)
  · rfl

/-- The search over a text: it is at the end, finds a match, or passes over a character. -/
@[elab_as_elim]
theorem search_induction {motive : List Char → List Char → Prop} (p : Pattern)
    (done : ∀ past, motive past [])
    (found : ∀ past matched back, p.Matches past matched back → motive (past ++ matched) back →
      motive past (matched ++ back))
    (pass : ∀ past c rest,
      (∀ matched back, c :: rest = matched ++ back → ¬ p.Matches past matched back) →
      motive (past ++ [c]) rest → motive past (c :: rest))
    (past rest : List Char) : motive past rest := by
  induction hlength : rest.length using Nat.strong_induction_on generalizing past rest with
  | _ n ih =>
      subst hlength
      cases rest with
      | nil => exact done past
      | cons c rest =>
          by_cases hmatch : ∃ matched back, c :: rest = matched ++ back
              ∧ p.Matches past matched back
          · obtain ⟨matched, back, hrest, hmatches⟩ := hmatch
            have hpos := List.length_pos_iff.mpr hmatches.ne_nil
            rw [hrest]
            refine found past matched back hmatches (ih back.length ?_ _ back rfl)
            rw [hrest, List.length_append]
            omega
          · refine pass past c rest ?_ (ih rest.length (by simp) _ rest rfl)
            intro matched back hrest hmatches
            exact hmatch ⟨matched, back, hrest, hmatches⟩

/-- What is found in the rest of a text is a match there. -/
theorem exists_matches_of_mem {past rest : List Char} {s : Span} (h : s ∈ p.spansAfter past rest) :
    ∃ gap matched back, rest = gap ++ (matched ++ back)
      ∧ s = ⟨byteSize (past ++ gap), byteSize (past ++ gap ++ matched)⟩
      ∧ p.Matches (past ++ gap) matched back := by
  induction past, rest using search_induction p with
  | done past => exact absurd h (by simp [spansAfter, spansFrom])
  | found past matched back hmatches ih =>
      rw [spansAfter_of_matches hmatches] at h
      rcases List.mem_cons.mp h with rfl | hlater
      · exact ⟨[], matched, back, rfl, by simp, by simpa using hmatches⟩
      · obtain ⟨gap, later, rest, rfl, rfl, hmatches⟩ := ih hlater
        exact ⟨matched ++ gap, later, rest, by simp, by simp, by simpa using hmatches⟩
  | pass past c rest hnone ih =>
      rw [spansAfter_of_not_matches hnone] at h
      obtain ⟨gap, later, rest, rfl, rfl, hmatches⟩ := ih h
      exact ⟨c :: gap, later, rest, by simp, by simp, by simpa using hmatches⟩

/-- What is found in the rest starts behind the past. -/
theorem byteSize_le_start {past rest : List Char} {s : Span} (h : s ∈ p.spansAfter past rest) :
    byteSize past ≤ s.start := by
  obtain ⟨gap, matched, back, -, rfl, -⟩ := exists_matches_of_mem h
  rw [byteSize_append]
  exact Nat.le_add_right _ _

/-- Matches do not overlap and come from left to right. -/
theorem pairwise_spansAfter (past rest : List Char) :
    (p.spansAfter past rest).Pairwise fun s t => s.stop ≤ t.start := by
  induction past, rest using search_induction p with
  | done past => exact .nil
  | found past matched back hmatches ih =>
      rw [spansAfter_of_matches hmatches]
      exact List.pairwise_cons.mpr ⟨fun t ht => byteSize_le_start ht, ih⟩
  | pass past c rest hnone ih => rwa [spansAfter_of_not_matches hnone]

/-- Of two matches at one place, both are the preferred one. -/
theorem Matches.unique {front matched back matched' back' : List Char}
    (h : p.Matches front matched back) (h' : p.Matches front matched' back')
    (htext : matched ++ back = matched' ++ back') : matched = matched' := by
  have hlength := h.length
  rw [htext, h'.length, Option.some.injEq] at hlength
  exact (List.append_inj htext hlength.symm).1

theorem byteSize_lt_append {s t : List Char} (h : t ≠ []) : byteSize s < byteSize (s ++ t) := by
  obtain ⟨c, t, rfl⟩ := List.exists_cons_of_ne_nil h
  have hpos := c.utf8Size_pos
  rw [byteSize_append, byteSize_cons]
  omega

/-- Every match is found, unless the search is inside another one where it starts. -/
theorem mem_or_inside {past rest gap matched back : List Char}
    (hrest : rest = gap ++ (matched ++ back)) (h : p.Matches (past ++ gap) matched back) :
    ⟨byteSize (past ++ gap), byteSize (past ++ gap ++ matched)⟩ ∈ p.spansAfter past rest
      ∨ ∃ t ∈ p.spansAfter past rest,
          t.start < byteSize (past ++ gap) ∧ byteSize (past ++ gap) < t.stop := by
  induction past, rest using search_induction p generalizing gap with
  | done past =>
      obtain ⟨-, hempty⟩ := List.append_eq_nil_iff.mp hrest.symm
      exact absurd (List.append_eq_nil_iff.mp hempty).1 h.ne_nil
  | found past first rest hmatches ih =>
      rw [spansAfter_of_matches hmatches]
      have hfirst : first <+: first ++ rest := List.prefix_append _ _
      have hgap : gap <+: first ++ rest := ⟨_, hrest.symm⟩
      by_cases hlater : first.length ≤ gap.length
      · obtain ⟨more, rfl⟩ := List.prefix_of_prefix_length_le hfirst hgap hlater
        rw [List.append_assoc, List.append_cancel_left_eq] at hrest
        rw [← List.append_assoc] at h ⊢
        rcases ih hrest h with hmem | ⟨t, ht, hinside⟩
        · exact Or.inl (List.mem_cons_of_mem _ hmem)
        · exact Or.inr ⟨t, List.mem_cons_of_mem _ ht, hinside⟩
      · -- the match starts with the first one, and then it is the first one, or inside it
        cases gap with
        | nil =>
            left
            rw [List.append_nil] at h ⊢
            rw [h.unique hmatches hrest.symm]
            exact List.mem_cons_self
        | cons c gap =>
            right
            obtain ⟨more, hmore⟩ := List.prefix_of_prefix_length_le hgap hfirst (by omega)
            have hne : more ≠ [] := by
              rintro rfl
              rw [← hmore, List.append_nil] at hlater
              exact hlater (Nat.le_refl _)
            refine ⟨_, List.mem_cons_self, byteSize_lt_append (List.cons_ne_nil c gap), ?_⟩
            rw [← hmore, ← List.append_assoc]
            exact byteSize_lt_append hne
  | pass past c rest hnone ih =>
      rw [spansAfter_of_not_matches hnone]
      cases gap with
      | nil =>
          rw [List.append_nil] at h
          exact absurd h (hnone matched back hrest)
      | cons d gap =>
          obtain ⟨rfl, htail⟩ := List.cons.inj hrest
          have hpast : past ++ c :: gap = past ++ [c] ++ gap := List.append_cons past c gap
          rw [hpast] at h ⊢
          exact ih htail h

/-- The spans are the matches of a pattern in a text, as one finds them from left to right without
overlap: a match is left out only if it starts inside one that is there. -/
structure FindsAll (p : Pattern) (text : List Char) (spans : List Span) : Prop where
  isMatch : ∀ s ∈ spans, p.IsMatch text s
  ordered : spans.Pairwise fun s t => s.stop ≤ t.start
  complete : ∀ s, p.IsMatch text s → s ∈ spans ∨ ∃ t ∈ spans, t.start < s.start ∧ s.start < t.stop

/-- A match is not empty. -/
theorem IsMatch.start_lt_stop {text : List Char} {s : Span} (h : p.IsMatch text s) :
    s.start < s.stop := by
  obtain ⟨front, matched, back, -, rfl, hmatches⟩ := h
  exact byteSize_lt_append hmatches.ne_nil

theorem spans_eq_spansAfter (p : Pattern) (text : List Char) :
    p.spans text = p.spansAfter [] text := rfl

/-- The search finds all matches from left to right. -/
theorem findsAll_spans (p : Pattern) (text : List Char) : p.FindsAll text (p.spans text) := by
  rw [spans_eq_spansAfter]
  refine ⟨?_, pairwise_spansAfter [] text, ?_⟩
  · intro s hs
    obtain ⟨front, matched, back, htext, hspan, hmatches⟩ := exists_matches_of_mem hs
    exact ⟨front, matched, back, by rw [htext, List.append_assoc], hspan, hmatches⟩
  · rintro s ⟨front, matched, back, htext, rfl, hmatches⟩
    rw [List.append_assoc] at htext
    exact @mem_or_inside p [] text front matched back htext hmatches

namespace FindsAll

variable {text : List Char} {spans spans' : List Span}

/-- The matches start one behind the other. -/
theorem pairwise_start (h : p.FindsAll text spans) :
    spans.Pairwise fun s t => s.start < t.start := by
  refine h.ordered.imp_of_mem ?_
  intro s t hs _ hle
  exact (h.isMatch s hs).start_lt_stop.trans_le hle

/-- A match ends before any later one starts. -/
theorem stop_le_start (h : p.FindsAll text spans) {s t : Span} (hs : s ∈ spans) (ht : t ∈ spans)
    (hlt : s.start < t.start) : s.stop ≤ t.start := by
  obtain ⟨i, hi, rfl⟩ := List.mem_iff_getElem.mp hs
  obtain ⟨j, hj, rfl⟩ := List.mem_iff_getElem.mp ht
  rcases Nat.lt_trichotomy i j with hij | rfl | hij
  · exact List.pairwise_iff_getElem.mp h.ordered i j hi hj hij
  · exact absurd hlt (Nat.lt_irrefl _)
  · have hback := List.pairwise_iff_getElem.mp h.pairwise_start j i hj hi hij
    omega

/-- Two lists of all matches agree on a match when they agree on those before it. -/
theorem mem_of_mem (h : p.FindsAll text spans) (h' : p.FindsAll text spans') {s : Span}
    (hs : s ∈ spans) (hbefore : ∀ t, t.start < s.start → t ∈ spans' → t ∈ spans) : s ∈ spans' := by
  rcases h'.complete s (h.isMatch s hs) with hmem | ⟨t, ht, hlt, hinside⟩
  · exact hmem
  · have hstop := h.stop_le_start (hbefore t hlt ht) hs hlt
    omega

/-- Two lists of all matches have the same members. -/
theorem mem_iff (h : p.FindsAll text spans) (h' : p.FindsAll text spans') (s : Span) :
    s ∈ spans ↔ s ∈ spans' := by
  -- two lists of matches that agree up to a place agree on the next match
  induction hstart : s.start using Nat.strong_induction_on generalizing s with
  | _ n ih =>
      subst hstart
      constructor
      · exact fun hs => h.mem_of_mem h' hs fun t hlt ht => (ih t.start hlt t rfl).mpr ht
      · exact fun hs => h'.mem_of_mem h hs fun t hlt ht => (ih t.start hlt t rfl).mp ht

/-- There is one list of all matches from left to right. -/
theorem unique (h : p.FindsAll text spans) (h' : p.FindsAll text spans') : spans = spans' := by
  have : Std.Antisymm fun s t : Span => s.start < t.start :=
    ⟨fun s t hst hts => absurd hst (Nat.lt_asymm hts)⟩
  have : Std.Irrefl fun s t : Span => s.start < t.start := ⟨fun s => Nat.lt_irrefl s.start⟩
  exact h.pairwise_start.eq_of_mem_iff h'.pairwise_start (h.mem_iff h')

end FindsAll

/-- Only one list of spans finds all matches, the one that the search gives. -/
theorem findsAll_iff {text : List Char} {spans : List Span} :
    p.FindsAll text spans ↔ spans = p.spans text := by
  constructor
  · exact fun h => h.unique (p.findsAll_spans text)
  · rintro rfl
    exact p.findsAll_spans text

end Pattern

/-! ## A match starts on a line of the text -/

/-- A place before some character of a text is on one of its lines. -/
theorem Text.count_feeds_lt_length_lines {text front back : List Char}
    (htext : text = front ++ back) (hback : back ≠ []) :
    front.count '\n' < (lines text).length := by
  have hpieces := length_pieces text
  rw [htext, List.count_append, ← htext] at hpieces
  rw [lines, List.length_map]
  rcases dropEmptyLast_eq_or (pieces text) with hkept | hdropped
  · rw [← hkept, hpieces]
    omega
  · -- the text ends in a line feed, which does not come before the place
    have hfeed : '\n' ∈ back := by
      by_contra hnone
      have hjoin := intercalate_pieces text
      have hmem : ∀ piece ∈ dropEmptyLast (pieces text), '\n' ∉ piece := by
        intro piece hpiece
        have hkept := List.mem_append_left [[]] hpiece
        rw [← hdropped] at hkept
        exact not_mem_of_mem_pieces hkept
      rw [hdropped, intercalate_feed, List.append_nil, List.flatMap_nil, List.append_nil] at hjoin
      have hlast := (feeds_of_pieces hmem).2
      rw [hjoin, htext, lastPiece_append_of_not_mem front hnone] at hlast
      exact hback (List.append_eq_nil_iff.mp hlast).2
    have hpos := List.count_pos_iff.mpr hfeed
    have hlength := congrArg List.length hdropped
    rw [List.length_append, List.length_singleton] at hlength
    omega

/-! ## Findings of a rule -/

namespace Context

/-- The lines from number `first` to number `last`. -/
def linesBetween (c : Context) (first last : Nat) : List (List Char) :=
  (c.lines.take last).drop (first - 1)

/-- The lines with numbers in a range are those between its ends. -/
theorem map_line_range' {c : Context} {first last : Nat} (hfirst : 1 ≤ first)
    (hlast : last ≤ c.totalLines) :
    (List.range' first (last + 1 - first)).map c.line = c.linesBetween first last := by
  obtain ⟨skipped, rfl⟩ := Nat.exists_eq_add_of_le' hfirst
  refine List.ext_getElem? fun i => ?_
  rw [linesBetween, List.getElem?_drop, List.getElem?_take, List.getElem?_map]
  by_cases hi : skipped + 1 + i ≤ last
  · have hlt : skipped + i < c.lines.length := by
      rw [totalLines] at hlast
      omega
    rw [List.getElem?_range' (by omega), if_pos (by omega), Nat.add_sub_cancel]
    have hnumber : skipped + 1 + 1 * i = skipped + i + 1 := by omega
    rw [Option.map_some, hnumber, line, List.getElem?_eq_getElem hlt, Option.getD_some]
  · rw [if_neg (by omega), List.getElem?_eq_none (by simp; omega), Option.map_none]

end Context

/-- The finding points at the place behind a first part of the text: at its line, which the text
has, and its column, and it shows the line and its neighbours. -/
structure SecurityFinding.PointsBehind (c : Context) (front : List Char) (f : SecurityFinding) :
    Prop where
  line : f.line = 1 + front.count '\n'
  line_le : f.line ≤ c.totalLines
  column : f.column = 1 + (lastPiece front).length
  snippet : f.snippet = String.ofList
    (['\n'].intercalate (c.linesBetween (max 1 (f.line - 1)) (min (f.line + 1) c.totalLines)))

namespace SecurityRule

variable {c : Context}

/-- A snippet is the line with the line above and the line below it. -/
theorem snippet_eq (line : Nat) :
    snippet (LineIndex.build c.text) line c.totalLines
      = ['\n'].intercalate
        (c.linesBetween (max 1 (line - 1)) (min (line + 1) c.totalLines)) := by
  have hline : (LineIndex.build c.text).line = c.line := funext c.lineIndex_line
  rw [← Context.map_line_range' (Nat.le_max_left 1 _) (Nat.min_le_right _ _), ← hline,
    Nat.max_comm 1]
  rfl

/-- Where a match starts there is a character, so the line of the finding is one of the text, and
the last line is no limit. -/
theorem finding_pointsBehind (rule : SecurityRule) {front back : List Char}
    (htext : c.text = front ++ back) (hback : back ≠ []) :
    (rule.finding (LineIndex.build c.text) (max c.totalLines 1) (byteSize front)).PointsBehind
      c front := by
  have hlocate : (LineIndex.build c.text).locate (byteSize front)
      = (1 + front.count '\n', 1 + (lastPiece front).length) := by
    rw [htext]
    exact LineIndex.locate_byteSize front back
  have hlt : front.count '\n' < c.totalLines := count_feeds_lt_length_lines htext hback
  have hlast : max c.totalLines 1 = c.totalLines := by omega
  have hline : min (1 + front.count '\n') c.totalLines = 1 + front.count '\n' := by omega
  rw [hlast]
  exact
    { line := by simp only [finding, hlocate, hline]
      line_le := by
        simp only [finding, hlocate, hline]
        omega
      column := by simp only [finding, hlocate]
      snippet := by simp only [finding, hlocate, hline, snippet_eq] }

/-- A finding of the rule reports the match with this span. -/
def Reports (rule : SecurityRule) (c : Context) (s : Pattern.Span) (f : SecurityFinding) : Prop :=
  f.ruleId = rule.id
    ∧ ∃ front back, c.text = front ++ back ∧ byteSize front = s.start ∧ f.PointsBehind c front

/-- The finding of a match reports it. -/
theorem reports_finding (rule : SecurityRule) {p : Pattern} {s : Pattern.Span}
    (h : p.IsMatch c.text s) :
    rule.Reports c s (rule.finding (LineIndex.build c.text) (max c.totalLines 1) s.start) := by
  obtain ⟨front, matched, back, htext, rfl, hmatches⟩ := h
  rw [List.append_assoc] at htext
  refine ⟨rfl, front, matched ++ back, htext, rfl, rule.finding_pointsBehind htext ?_⟩
  exact List.append_ne_nil_of_left_ne_nil hmatches.ne_nil back

end SecurityRule

/-- Of two places, the one further on has the finding with the greater position. -/
theorem SecurityFinding.PointsBehind.lt {c : Context} {front back front' back' : List Char}
    {f f' : SecurityFinding} (h : f.PointsBehind c front) (h' : f'.PointsBehind c front')
    (htext : c.text = front ++ back) (htext' : c.text = front' ++ back')
    (hlt : byteSize front < byteSize front') :
    toLex (f.line, f.column) < toLex (f'.line, f'.column) := by
  have hlocate := LineIndex.locate_lt_locate htext htext' hlt
  nth_rewrite 1 [htext] at hlocate
  rw [htext', LineIndex.locate_byteSize, LineIndex.locate_byteSize] at hlocate
  rwa [h.line, h.column, h'.line, h'.column]

namespace SecurityRule

variable {c : Context} {rule : SecurityRule} {read : Pattern.Reader} {p : Pattern}

/-- A rule has a finding for each match of its pattern. -/
theorem findings_of_pattern? (h : rule.pattern? read = some p) :
    rule.findings read (LineIndex.build c.text) c.totalLines
      = (p.spans c.text).map fun s =>
        rule.finding (LineIndex.build c.text) (max c.totalLines 1) s.start := by
  rw [findings, h]
  rfl

/-- The findings of a rule report the matches of its pattern, one each. -/
theorem forall₂_reports (h : rule.pattern? read = some p) :
    List.Forall₂ (rule.Reports c) (p.spans c.text)
      (rule.findings read (LineIndex.build c.text) c.totalLines) := by
  rw [findings_of_pattern? h, List.forall₂_map_right_iff, List.forall₂_same]
  exact fun s hs => rule.reports_finding ((p.findsAll_spans c.text).isMatch s hs)

/-- The findings of a rule come in the order of their places. -/
theorem pairwise_findings (h : rule.pattern? read = some p) :
    (rule.findings read (LineIndex.build c.text) c.totalLines).Pairwise fun f f' =>
      toLex (f.line, f.column) < toLex (f'.line, f'.column) := by
  have hfinds := p.findsAll_spans c.text
  rw [findings_of_pattern? h, List.pairwise_map]
  refine hfinds.pairwise_start.imp_of_mem ?_
  intro s s' hs hs' hlt
  obtain ⟨-, front, back, htext, hstart, hplace⟩ := rule.reports_finding (hfinds.isMatch s hs)
  obtain ⟨-, front', back', htext', hstart', hplace'⟩ :=
    rule.reports_finding (hfinds.isMatch s' hs')
  exact hplace.lt hplace' htext htext' (by rwa [hstart, hstart'])

end SecurityRule

/-- **Matches are located exactly.** However patterns are read, a scan gives the findings of the
rules that apply and of the rules for secrets, rule by rule. If the pattern of a rule can be read,
its findings report the matches of what is read that are not empty one by one, as they are found
from left to right without overlap. Each points at the place where its match starts: at the line
after the line feeds before it, which is never cut to the last line, and at the column after the
characters since the last of them. It shows the line with its neighbours. The positions of the
findings increase strictly. -/
theorem security_findings_located (read : Pattern.Reader) (c : Context)
    (rules : List SecurityRule) :
    Security.scan read c rules
        = (Security.applicable c.dialect rules ++ Security.sensitiveRules).flatMap
          (fun rule => rule.findings read (LineIndex.build c.text) c.totalLines)
      ∧ ∀ (rule : SecurityRule) (p : Pattern), rule.pattern? read = some p →
        (∃ spans, (∀ other, p.FindsAll c.text other ↔ other = spans)
          ∧ List.Forall₂ (rule.Reports c) spans
            (rule.findings read (LineIndex.build c.text) c.totalLines))
        ∧ (rule.findings read (LineIndex.build c.text) c.totalLines).Pairwise
          fun f f' => toLex (f.line, f.column) < toLex (f'.line, f'.column) := by
  refine ⟨rfl, ?_⟩
  intro rule p h
  exact ⟨⟨p.spans c.text, fun _ => Pattern.findsAll_iff, rule.forall₂_reports h⟩,
    rule.pairwise_findings h⟩

/-- A match that runs across lines and two on the last line, behind a character of two bytes and a
carriage return. -/
theorem security_findings_located_across_lines :
    ∃ (c : Context) (rule : SecurityRule) (p : Pattern),
      rule.pattern? Pattern.ofText? = some p
      ∧ (Security.scan Pattern.ofText? c [rule]).map (fun f => (f.line, f.column, f.snippet))
        = [(1, 3, "é kill\n"), (3, 3, "\nx kill kill"), (3, 8, "\nx kill kill")]
      ∧ ∃ spans, p.FindsAll c.text spans
        ∧ List.Forall₂ (rule.Reports c) spans
          (rule.findings Pattern.ofText? (LineIndex.build c.text) c.totalLines) := by
  let c : Context := { text := "é kill\r\n\nx kill kill".toList }
  let rule : SecurityRule :=
    { id := "kill", pattern := "\\bkill\\s*", risk := .high, category := "danger",
      recommendation := "" }
  have hreads : (rule.pattern? Pattern.ofText?).isSome := by decide +kernel
  obtain ⟨p, hp⟩ := Option.isSome_iff_exists.mp hreads
  obtain ⟨⟨spans, hspans, hreports⟩, -⟩ :=
    (security_findings_located Pattern.ofText? c [rule]).2 rule p hp
  refine ⟨c, rule, p, hp, ?_, spans, (hspans spans).mpr rfl, hreports⟩
  decide +kernel

end Softcode
