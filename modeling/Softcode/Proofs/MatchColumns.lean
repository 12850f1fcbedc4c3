import Softcode.Proofs.MatchLocations

/-!
# Columns of security findings

A security finding has the column at which its match starts in the text. The carriage returns that
end a line count for that column, but they are not part of the line. So a match that starts behind
one of them has a column past the end of its line (`security_columns_bounded`). That happens exactly
at the places within the carriage returns of a line (`WithinReturns`), and at every such place some
rule has a match, because a rule can ask for any character (`Pattern.mem_spans_every`).

The line of a place is a piece of the text without its carriage returns, and the place cuts the
piece in two (`exists_pieceAt_of_append`). The part before it fits into the line unless it ends in a
carriage return and only carriage returns follow (`length_le_dropReturns_iff`).
-/

namespace Softcode

namespace Text

/-! ## The piece around a place -/

/-- A place of a text cuts the piece that it is in behind the characters since the last line
feed. -/
theorem exists_pieceAt_of_append (front back : List Char) :
    ∃ before rest after, back = rest ++ after
      ∧ (pieces (front ++ back))[front.count '\n']? = some (lastPiece front ++ rest)
      ∧ PieceAt (front ++ back) (front.count '\n') before (lastPiece front ++ rest) after := by
  have hlt : front.count '\n' < (pieces (front ++ back)).length := by
    rw [length_pieces, List.count_append]
    omega
  have hpiece := List.getElem?_eq_getElem hlt
  generalize (pieces (front ++ back))[front.count '\n'] = piece at hpiece
  obtain ⟨after, hat⟩ := exists_pieceAt hpiece
  generalize beforeLine (front ++ back) (front.count '\n' + 1) = before at hat
  -- it is enough that the place is between `before` and `after`
  suffices h : ∃ start rest, front = before ++ start ∧ back = rest ++ after
      ∧ piece = start ++ rest by
    obtain ⟨start, rest, hfront, hback, hsplit⟩ := h
    have hstart : '\n' ∉ start := fun hmem =>
      hat.not_mem (hsplit ▸ List.mem_append_left rest hmem)
    have hlast : lastPiece front = start := by
      rw [hfront, lastPiece_append_of_not_mem before hstart, hat.lastPiece_before, List.nil_append]
    subst hsplit
    rw [hlast]
    exact ⟨before, rest, after, hback, hpiece, hat⟩
  have htext := hat.text_eq
  rw [List.append_assoc] at htext
  rcases List.append_eq_append_iff.mp htext with ⟨gap, hbefore, hback⟩ | ⟨start, hfront, htail⟩
  · have hcount := hat.count_before
    rw [hbefore, List.count_append] at hcount
    have hgap : '\n' ∉ gap := List.count_eq_zero.mp (by omega)
    have hlast := hat.lastPiece_before
    rw [hbefore, lastPiece_append_of_not_mem front hgap] at hlast
    obtain rfl : gap = [] := (List.append_eq_nil_iff.mp hlast).2
    exact ⟨[], piece, by simpa using hbefore.symm, by simpa using hback, rfl⟩
  · have hcount := hat.count_before
    rw [hfront, List.count_append] at hcount
    have hstart : '\n' ∉ start := List.count_eq_zero.mp (by omega)
    rcases List.append_eq_append_iff.mp htail with ⟨gap, rfl, hafter⟩ | ⟨rest, rfl, hback⟩
    · -- the gap would start with the line feed after the piece
      obtain rfl : gap = [] := by
        cases gap with
        | nil => rfl
        | cons c gap =>
            rcases hat.after_eq with hnil | ⟨more, hcons⟩
            · exact absurd (hafter.symm.trans hnil) (by simp)
            · obtain ⟨rfl, -⟩ := List.cons_eq_cons.mp (hafter.symm.trans hcons)
              exact absurd (by simp) hstart
      exact ⟨piece, [], by simpa using hfront, by simpa using hafter.symm, by simp⟩
    · exact ⟨start, rest, hfront, hback, rfl⟩

/-- Carriage returns at the end are dropped, however many there are. -/
theorem dropReturns_append_returns (s : List Char) {returns : List Char}
    (h : ∀ c ∈ returns, c = '\r') : dropReturns (s ++ returns) = dropReturns s := by
  have hall : ∀ c ∈ returns.reverse, (c == '\r') = true := fun c hc =>
    beq_iff_eq.mpr (h c (List.mem_reverse.mp hc))
  rw [dropReturns, List.reverse_append, List.dropWhile_append_of_pos hall, dropReturns]

theorem length_dropReturns_le (s : List Char) : (dropReturns s).length ≤ s.length := by
  rw [dropReturns, List.length_reverse]
  exact (List.dropWhile_suffix _).length_le.trans_eq List.length_reverse

/-- The part of a piece before a place is longer than the line exactly if it ends in a carriage
return and nothing else follows. -/
theorem length_le_dropReturns_iff (start rest : List Char) :
    start.length ≤ (dropReturns (start ++ rest)).length
      ↔ ¬ (start.getLast? = some '\r' ∧ ∀ c ∈ rest, c = '\r') := by
  by_cases hrest : ∀ c ∈ rest, c = '\r'
  · rw [dropReturns_append_returns start hrest]
    cases start using List.reverseRecOn with
    | nil => simp
    | append_singleton start last =>
        by_cases hlast : last = '\r'
        · rw [dropReturns_append_returns start (by simpa using hlast)]
          have hle := length_dropReturns_le start
          refine iff_of_false ?_ (not_not_intro ⟨by simp [hlast], hrest⟩)
          rw [List.length_append, List.length_singleton]
          omega
        · rw [dropReturns_append_of_ne hlast]
          simp [hlast]
  · obtain ⟨c, hmem, hc⟩ : ∃ c ∈ rest, c ≠ '\r' := by simpa using hrest
    obtain ⟨inner, outer, rfl⟩ := List.append_of_mem hmem
    rw [← List.append_assoc, dropReturns_append_of_ne hc]
    simp only [hrest, and_false, not_false_eq_true, iff_true, List.length_append]
    omega

/-! ## Places within the carriage returns of a line -/

/-- The place is behind a carriage return, and only carriage returns come between it and the end of
its piece. -/
def WithinReturns (front back : List Char) : Prop :=
  front.getLast? = some '\r' ∧ ∀ c ∈ (back.dropWhile (· == '\r')).head?, c = '\n'

/-- A character other than a line feed ends the last line when it ends the text. -/
theorem getLast?_lastPiece {c : Char} (hc : c ≠ '\n') (s : List Char) :
    (lastPiece s).getLast? = some c ↔ s.getLast? = some c := by
  cases s using List.reverseRecOn with
  | nil => rfl
  | append_singleton s last =>
      by_cases hlast : last = '\n'
      · subst hlast
        rw [lastPiece_append_feed]
        simpa using Ne.symm hc
      · rw [lastPiece_append_of_not_mem s (by simpa using Ne.symm hlast), List.getLast?_concat,
          List.getLast?_concat]

/-- Only carriage returns are left of a line when a line feed or nothing follows them. -/
theorem forall_head?_dropWhile_iff {rest after : List Char} (hrest : '\n' ∉ rest)
    (hafter : after = [] ∨ ∃ more, after = '\n' :: more) :
    (∀ c ∈ ((rest ++ after).dropWhile (· == '\r')).head?, c = '\n') ↔ ∀ c ∈ rest, c = '\r' := by
  induction rest with
  | nil => rcases hafter with rfl | ⟨more, rfl⟩ <;> simp
  | cons c rest ih =>
      obtain ⟨hc, hrest⟩ := not_or.mp (mt List.mem_cons.mpr hrest)
      by_cases hreturn : c = '\r'
      · simpa [hreturn] using ih hrest
      · simp [hreturn, Ne.symm hc]

/-- The carriage returns around a place lead up to a line feed or to the end of the text. -/
theorem WithinReturns.infix_or_suffix {front back : List Char} (h : WithinReturns front back)
    (hback : back ≠ []) :
    ['\r', '\n'] <:+: front ++ back ∨ ['\r', '\r'] <:+ front ++ back := by
  obtain ⟨hlast, hhead⟩ := h
  induction back generalizing front with
  | nil => exact absurd rfl hback
  | cons c back ih =>
      obtain ⟨front, rfl⟩ := List.getLast?_eq_some_iff.mp hlast
      by_cases hc : c = '\r'
      · subst hc
        by_cases hnil : back = []
        · exact Or.inr ⟨front, by simp [hnil]⟩
        · rw [List.append_cons]
          exact ih hnil (by simp) (by simpa using hhead)
      · obtain rfl : c = '\n' := hhead c (by simp [hc])
        exact Or.inl ⟨front, back, by simp⟩

/-- A text has a character at a place within carriage returns exactly if a line feed follows a
carriage return in it, or two carriage returns end it. -/
theorem exists_withinReturns_iff (text : List Char) :
    (∃ front back, text = front ++ back ∧ back ≠ [] ∧ WithinReturns front back)
      ↔ ['\r', '\n'] <:+: text ∨ ['\r', '\r'] <:+ text := by
  constructor
  · rintro ⟨front, back, rfl, hback, hwithin⟩
    exact hwithin.infix_or_suffix hback
  · rintro (⟨front, back, rfl⟩ | ⟨front, rfl⟩)
    · exact ⟨front ++ ['\r'], '\n' :: back, by simp, by simp, by simp [WithinReturns]⟩
    · exact ⟨front ++ ['\r'], ['\r'], by simp, by simp, by simp [WithinReturns]⟩

end Text

open Text

/-! ## A rule that matches everywhere -/

namespace Pattern

/-- The set of all characters matches every one. -/
theorem matches_every (front : List Char) (c : Char) (back : List Char) :
    (Pattern.set .every).Matches front [c] back where
  ne_nil := by simp
  length := by cases back <;> rfl

/-- Each character is a match of its own. -/
theorem mem_spansAfter_every (past front : List Char) (c : Char) (back : List Char) :
    ⟨byteSize (past ++ front), byteSize (past ++ front ++ [c])⟩
      ∈ (Pattern.set .every).spansAfter past (front ++ c :: back) := by
  induction front generalizing past with
  | nil =>
      rw [List.nil_append, ← List.singleton_append, spansAfter_of_matches (matches_every past c _),
        List.append_nil]
      exact List.mem_cons_self
  | cons first front ih =>
      rw [List.append_cons past first front, List.cons_append, ← List.singleton_append,
        spansAfter_of_matches (matches_every past first _)]
      exact List.mem_cons_of_mem _ (ih (past ++ [first]))

/-- The pattern for any character finds every character. -/
theorem mem_spans_every (front : List Char) (c : Char) (back : List Char) :
    ⟨byteSize front, byteSize (front ++ [c])⟩
      ∈ (Pattern.set .every).spans (front ++ c :: back) := by
  rw [spans_eq_spansAfter]
  exact mem_spansAfter_every [] front c back

end Pattern

namespace Security

/-- A rule for all dialects whose pattern matches any character, line feeds too. -/
def anyCharacterRule : SecurityRule :=
  { id := "any", pattern := "(?s).", risk := .low, category := "any", recommendation := "" }

/-- The rule's pattern is read as the set of all characters. -/
theorem pattern?_anyCharacterRule :
    anyCharacterRule.pattern? Pattern.ofText? = some (.set .every) := by
  decide +kernel

/-- The rule has a finding at every place before a character. -/
theorem exists_mem_scan_anyCharacterRule {c : Context} {front back : List Char}
    (htext : c.text = front ++ back) (hback : back ≠ []) :
    ∃ f ∈ scan Pattern.ofText? c [anyCharacterRule], f.PointsBehind c front := by
  refine ⟨_, ?_, anyCharacterRule.finding_pointsBehind htext hback⟩
  have happlies : anyCharacterRule ∈ applicable c.dialect [anyCharacterRule] := by
    cases hdialect : c.dialect <;> simp [applicable, SecurityRule.appliesTo, anyCharacterRule]
  refine List.mem_flatMap.mpr ⟨_, List.mem_append_left _ happlies, ?_⟩
  obtain ⟨char, back, rfl⟩ := List.exists_cons_of_ne_nil hback
  have hspan := Pattern.mem_spans_every front char back
  rw [← htext] at hspan
  rw [SecurityRule.findings_of_pattern? pattern?_anyCharacterRule]
  exact List.mem_map.mpr ⟨_, hspan, rfl⟩

/-- A finding of a scan points behind some first part of the text, where a character follows. -/
theorem exists_pointsBehind_of_mem_scan {read : Pattern.Reader} {c : Context}
    {rules : List SecurityRule} {f : SecurityFinding} (h : f ∈ scan read c rules) :
    ∃ front back, c.text = front ++ back ∧ back ≠ [] ∧ f.PointsBehind c front := by
  obtain ⟨rule, -, hf⟩ := List.mem_flatMap.mp h
  cases hpattern : rule.pattern? read with
  | none => simp [SecurityRule.findings, hpattern] at hf
  | some p =>
      rw [SecurityRule.findings_of_pattern? hpattern] at hf
      obtain ⟨s, hs, rfl⟩ := List.mem_map.mp hf
      obtain ⟨front, matched, back, htext, rfl, hmatches⟩ := (p.findsAll_spans c.text).isMatch s hs
      rw [List.append_assoc] at htext
      have hne := List.append_ne_nil_of_left_ne_nil hmatches.ne_nil back
      exact ⟨front, matched ++ back, htext, hne, rule.finding_pointsBehind htext hne⟩

end Security

/-! ## Columns -/

/-- The column stays within the piece of the text, and within the line unless the place is within
carriage returns. -/
theorem SecurityFinding.PointsBehind.exists_returns {c : Context} {front back : List Char}
    {f : SecurityFinding} (h : f.PointsBehind c front) (htext : c.text = front ++ back) :
    ∃ returns, (pieces c.text)[f.line - 1]? = some (c.line f.line ++ returns)
      ∧ (∀ r ∈ returns, r = '\r')
      ∧ f.column ≤ (c.line f.line ++ returns).length + 1
      ∧ (f.column ≤ (c.line f.line).length + 1 ↔ ¬ WithinReturns front back) := by
  obtain ⟨before, rest, after, hback, hpiece, hat⟩ := exists_pieceAt_of_append front back
  have hrest : '\n' ∉ rest := fun hmem => hat.not_mem (List.mem_append_right _ hmem)
  have hwithin : WithinReturns front back
      ↔ (lastPiece front).getLast? = some '\r' ∧ ∀ r ∈ rest, r = '\r' := by
    rw [WithinReturns, hback, forall_head?_dropWhile_iff hrest hat.after_eq,
      getLast?_lastPiece (by decide)]
  rw [← htext] at hpiece
  have hline : c.line f.line = dropReturns (lastPiece front ++ rest) := by
    rw [h.line, Nat.add_comm, c.line_succ, hpiece, Option.map_some, Option.getD_some]
  obtain ⟨returns, hjoin, hreturns⟩ := dropReturns_append (lastPiece front ++ rest)
  have hlength := congrArg List.length hjoin
  rw [List.length_append] at hlength
  refine ⟨returns, ?_, hreturns, ?_, ?_⟩
  · rw [hline, ← hjoin, h.line, Nat.add_sub_cancel_left, hpiece]
  · rw [hline, h.column, ← hjoin, List.length_append]
    omega
  · rw [hline, h.column, hwithin, ← length_le_dropReturns_iff, Nat.add_comm 1]
    exact Nat.add_le_add_iff_right

/-- **Columns pass the end of a line within its carriage returns only.** However patterns are read,
every finding of a scan has a column of at least 1 and points at a place before some character of
the text. Its line is a
piece of the text without some carriage returns at the end, and the column goes at most one past the
whole piece. It goes at most one past the line exactly if the place is not within the carriage
returns. So the columns of all findings of all rules are bounded by the line exactly for the texts
in which no line feed follows a carriage return and which do not end in two carriage returns. -/
theorem security_columns_bounded (c : Context) :
    (∀ read rules, ∀ f ∈ Security.scan read c rules, 1 ≤ f.column ∧ ∃ front back returns,
        c.text = front ++ back ∧ back ≠ [] ∧ f.PointsBehind c front
        ∧ (pieces c.text)[f.line - 1]? = some (c.line f.line ++ returns)
        ∧ (∀ r ∈ returns, r = '\r')
        ∧ f.column ≤ (c.line f.line ++ returns).length + 1
        ∧ (f.column ≤ (c.line f.line).length + 1 ↔ ¬ WithinReturns front back))
      ∧ ((∀ rules, ∀ f ∈ Security.scan Pattern.ofText? c rules,
          f.column ≤ (c.line f.line).length + 1)
        ↔ ¬ (['\r', '\n'] <:+: c.text ∨ ['\r', '\r'] <:+ c.text)) := by
  refine ⟨?_, ?_⟩
  · intro read rules f hf
    obtain ⟨front, back, htext, hback, hplace⟩ := Security.exists_pointsBehind_of_mem_scan hf
    obtain ⟨returns, hreturns⟩ := hplace.exists_returns htext
    have hcolumn := hplace.column
    exact ⟨by omega, front, back, returns, htext, hback, hplace, hreturns⟩
  · rw [← exists_withinReturns_iff]
    constructor
    · rintro hall ⟨front, back, htext, hback, hwithin⟩
      obtain ⟨f, hf, hplace⟩ := Security.exists_mem_scan_anyCharacterRule htext hback
      obtain ⟨-, -, -, -, hiff⟩ := hplace.exists_returns htext
      exact hiff.mp (hall _ f hf) hwithin
    · intro hnone rules f hf
      obtain ⟨front, back, htext, hback, hplace⟩ := Security.exists_pointsBehind_of_mem_scan hf
      obtain ⟨-, -, -, -, hiff⟩ := hplace.exists_returns htext
      exact hiff.mpr fun hwithin => hnone ⟨front, back, htext, hback, hwithin⟩

/-- A match of the first carriage return of a line is one past the line. -/
theorem security_columns_bounded_at_return :
    ∃ (c : Context) (rules : List SecurityRule) (f : SecurityFinding),
      f ∈ Security.scan Pattern.ofText? c rules
      ∧ c.text = "a\r\nb".toList ∧ f.line = 1 ∧ f.column = 2 ∧ c.line f.line = ['a']
      ∧ ∃ front back, c.text = front ++ back ∧ f.PointsBehind c front
        ∧ ¬ WithinReturns front back := by
  let c : Context := { text := "a\r\nb".toList }
  let rule : SecurityRule :=
    { id := "return", pattern := "\\r", risk := .low, category := "return", recommendation := "" }
  obtain ⟨f, hf, hline, hcolumn⟩ :
      ∃ f ∈ Security.scan Pattern.ofText? c [rule], f.line = 1 ∧ f.column = 2 := by decide +kernel
  have hcontent : c.line f.line = ['a'] := by
    rw [hline]
    decide +kernel
  obtain ⟨-, front, back, -, htext, -, hplace, -, -, -, hiff⟩ :=
    (security_columns_bounded c).1 Pattern.ofText? [rule] f hf
  refine ⟨c, [rule], f, hf, rfl, hline, hcolumn, hcontent, front, back, htext, hplace, ?_⟩
  rw [← hiff, hcolumn, hcontent]
  decide

/-- A match of the line feed behind a carriage return is two past the line. -/
theorem security_column_past_line_end :
    ∃ (c : Context) (rules : List SecurityRule), ∃ f ∈ Security.scan Pattern.ofText? c rules,
      f.line = 1 ∧ c.line 1 = ['a'] ∧ f.column = 3
      ∧ ¬ f.column ≤ (c.line f.line).length + 1 := by
  let c : Context := { text := "a\r\nb".toList }
  let rule : SecurityRule :=
    { id := "T", pattern := "\\n", risk := .low, category := "t", recommendation := "r" }
  exact ⟨c, [rule], by decide +kernel⟩

end Softcode
