import Mathlib.Algebra.Ring.Parity
import Softcode.Proofs.Columns

/-!
# Roles by parity

The walk over a line remembers two bits: whether a backslash is about to consume the next character,
and whether a quote is open. Both can be read off the line without walking it. A character is
consumed exactly if the run of backslashes directly before it is odd, and a literal is open exactly
if an odd number of the quotes before it are live, that is, not consumed themselves
(`Quoting.after_eq`). The role of every character (`Line.getElem?_glyphs`) and the quote that a line
leaves open (`Line.unterminatedLiteral_glyphs`) follow from that invariant. The column and the byte
that the walk gives a character count the characters before it.
-/

namespace Softcode

namespace Line

/-- Number of backslashes in the run that stands directly before index `i`. -/
def backslashRun (text : List Char) (i : Nat) : Nat :=
  ((text.take i).reverse.takeWhile (· == '\\')).length

/-- There is a quote at index `i`, and no backslash consumes it. -/
def IsLiveQuote (text : List Char) (i : Nat) : Prop :=
  text[i]? = some '"' ∧ ¬ Odd (backslashRun text i)

instance (text : List Char) (i : Nat) : Decidable (IsLiveQuote text i) :=
  inferInstanceAs (Decidable (_ ∧ _))

/-- Indexes of the live quotes, from left to right. -/
def liveQuotes (text : List Char) : List Nat :=
  (List.range text.length).filter fun i => IsLiveQuote text i

/-- Number of live quotes before index `i`. -/
def quotesBefore (text : List Char) (i : Nat) : Nat := (liveQuotes text).countP (· < i)

/-- The role of the character `c` at index `i`, by the backslashes and quotes before it. -/
def roleByParity (text : List Char) (i : Nat) (c : Char) : Role :=
  if Odd (backslashRun text i) then .escaped
  else if c = '\\' then .escape
  else if c = '"' then if Odd (quotesBefore text i) then .quoteClose else .quoteOpen
  else if Odd (quotesBefore text i) then .literal else .code

/-! ## What is before an index does not depend on what comes after it -/

theorem backslashRun_append (past rest : List Char) {i : Nat} (h : i ≤ past.length) :
    backslashRun (past ++ rest) i = backslashRun past i := by
  rw [backslashRun, backslashRun, List.take_append_of_le_length h]

theorem isLiveQuote_append (past rest : List Char) {i : Nat} (h : i < past.length) :
    IsLiveQuote (past ++ rest) i ↔ IsLiveQuote past i := by
  rw [IsLiveQuote, IsLiveQuote, List.getElem?_append_left h, backslashRun_append past rest h.le]

/-- A text has the live quotes of its first part, and after them those that come later. -/
theorem liveQuotes_append (past rest : List Char) :
    liveQuotes (past ++ rest) = liveQuotes past
      ++ ((List.range rest.length).map (past.length + ·)).filter fun i =>
        IsLiveQuote (past ++ rest) i := by
  rw [liveQuotes, List.length_append, List.range_add, List.filter_append]
  congr 1
  refine List.filter_congr fun i hi => ?_
  rw [decide_eq_decide]
  exact isLiveQuote_append past rest (List.mem_range.mp hi)

/-- The quotes before an index are the live quotes of the text before it. -/
theorem quotesBefore_append (past rest : List Char) :
    quotesBefore (past ++ rest) past.length = (liveQuotes past).length := by
  rw [quotesBefore, liveQuotes_append, List.countP_append]
  have hpast : (liveQuotes past).countP (· < past.length) = (liveQuotes past).length := by
    rw [List.countP_eq_length]
    intro i hi
    exact decide_eq_true (List.mem_range.mp (List.mem_filter.mp hi).1)
  have hrest : (((List.range rest.length).map (past.length + ·)).filter fun i =>
      IsLiveQuote (past ++ rest) i).countP (· < past.length) = 0 := by
    rw [List.countP_eq_zero]
    intro i hi
    obtain ⟨j, -, rfl⟩ := List.mem_map.mp (List.mem_filter.mp hi).1
    simp
  rw [hpast, hrest, Nat.add_zero]

/-! ## One more character -/

/-- A backslash makes the run before the end one longer, and any other character ends it. -/
theorem backslashRun_concat (past : List Char) (c : Char) :
    backslashRun (past ++ [c]) (past.length + 1)
      = if c = '\\' then backslashRun past past.length + 1 else 0 := by
  have hwhole : (past ++ [c]).take (past.length + 1) = past ++ [c] :=
    List.take_of_length_le (by simp)
  rw [backslashRun, backslashRun, hwhole, List.take_length, List.reverse_concat,
    List.takeWhile_cons]
  by_cases hc : c = '\\'
  · simp [hc]
  · simp [hc]

/-- A quote behind an even run of backslashes joins the live quotes, and nothing else does. -/
theorem liveQuotes_concat (past : List Char) (c : Char) :
    liveQuotes (past ++ [c]) = liveQuotes past
      ++ if c = '"' ∧ ¬ Odd (backslashRun past past.length) then [past.length] else [] := by
  have hlive : IsLiveQuote (past ++ [c]) past.length
      ↔ c = '"' ∧ ¬ Odd (backslashRun past past.length) := by
    rw [IsLiveQuote, List.getElem?_concat_length, Option.some.injEq,
      backslashRun_append past [c] (Nat.le_refl _)]
  rw [liveQuotes_append]
  congr 1
  by_cases h : c = '"' ∧ ¬ Odd (backslashRun past past.length)
  · rw [if_pos h]
    simpa using hlive.mpr h
  · rw [if_neg h]
    simpa using mt hlive.mp h

end Line

/-! ## The state of the walk -/

namespace Quoting

/-- The state of the walk after a text that starts a line. -/
def after (text : List Char) : Quoting := text.foldl (fun q c => (q.step c).2) ⟨false, false⟩

/-- The state of the walk after one more character. -/
theorem after_concat (past : List Char) (c : Char) :
    after (past ++ [c]) = ((after past).step c).2 := by
  rw [after, List.foldl_append, ← after]
  rfl

/-- The state that the parities before the end of a text describe. -/
def byParity (text : List Char) : Quoting :=
  ⟨Odd (Line.backslashRun text text.length), Odd (Line.liveQuotes text).length⟩

/-- In the state that the parities describe, a step gives the next character the role that they give
it and keeps the state in accord with them. -/
theorem step_byParity (past : List Char) (c : Char) (rest : List Char) :
    (byParity past).step c
      = (Line.roleByParity (past ++ c :: rest) past.length c, byParity (past ++ [c])) := by
  rw [Line.roleByParity, Line.backslashRun_append past (c :: rest) (Nat.le_refl _),
    Line.quotesBefore_append, byParity, byParity, List.length_append, List.length_singleton,
    Line.backslashRun_concat, Line.liveQuotes_concat, List.length_append]
  by_cases hconsumed : Odd (Line.backslashRun past past.length)
  · -- the character is consumed: it is no live quote, and the run before the next one is even
    by_cases hc : c = '\\'
    · simp [step, hconsumed, hc, Nat.odd_add_one]
    · simp [step, hconsumed, hc]
  · by_cases hc : c = '\\'
    · simp [step, hconsumed, hc, Nat.odd_add_one]
    · by_cases hquote : c = '"'
      · by_cases hopen : Odd (Line.liveQuotes past).length
        · simp [step, hconsumed, hquote, hopen, Nat.odd_add_one]
        · simp [step, hconsumed, hquote, hopen, Nat.odd_add_one]
      · by_cases hopen : Odd (Line.liveQuotes past).length
        · simp [step, hconsumed, hc, hquote, hopen]
        · simp [step, hconsumed, hc, hquote, hopen]

/-- The invariant of the walk: after any text, a backslash is about to consume the next
character exactly if the run of backslashes at its end is odd, and a quote is open exactly if the
number of its live quotes is. -/
theorem after_eq (text : List Char) : after text = byParity text := by
  induction text using List.reverseRecOn with
  | nil => rfl
  | append_singleton past c ih => rw [after_concat, ih, step_byParity past c []]

end Quoting

namespace Line

/-- The walk goes on from the state it is in. -/
theorem glyphs_append (past rest : List Char) :
    glyphs (past ++ rest) = glyphs past ++ glyphsFrom (Quoting.after past) rest := by
  rw [glyphs_eq_glyphsFrom, glyphs_eq_glyphsFrom, glyphsFrom_append]
  rfl

/-- Every character has the role that the parities before it give it. -/
theorem getElem?_glyphs (text : List Char) (i : Nat) :
    (glyphs text)[i]? = text[i]?.map fun c => ⟨c, roleByParity text i c⟩ := by
  by_cases hi : i < text.length
  · obtain ⟨past, c, rest, rfl, rfl⟩ : ∃ past c rest, text = past ++ c :: rest ∧ past.length = i :=
      ⟨text.take i, text[i], text.drop (i + 1), by simp, by simp [hi.le]⟩
    have hglyph : (glyphs (past ++ c :: rest))[past.length]?
        = some ⟨c, ((Quoting.after past).step c).1⟩ := by
      rw [glyphs_append, List.getElem?_append_right (length_glyphs past).le, length_glyphs,
        Nat.sub_self, glyphsFrom, List.getElem?_cons_zero]
    rw [hglyph, Quoting.after_eq, Quoting.step_byParity past c rest]
    simp
  · have hend := Nat.le_of_not_lt hi
    rw [List.getElem?_eq_none hend, List.getElem?_eq_none ((length_glyphs text).trans_le hend)]
    rfl

/-! ## The quote that a line leaves open -/

/-- So does the search for the literal left open. -/
theorem openLiteralFrom_append (column : Nat) (opened : Option Nat) (a b : List Glyph) :
    openLiteralFrom column opened (a ++ b)
      = openLiteralFrom (column + a.length) (openLiteralFrom column opened a) b := by
  induction a generalizing column opened with
  | nil => rfl
  | cons g a ih =>
      rw [List.cons_append, openLiteralFrom, ih, openLiteralFrom, List.length_cons,
        Nat.add_right_comm, Nat.add_assoc column]

/-- All that one more character can do to the live quotes: open a literal where their number is
even, close one where it is odd, or leave them as they are. -/
theorem liveQuotes_concat_cases (past : List Char) (c : Char) :
    (roleByParity (past ++ [c]) past.length c = .quoteOpen ∧ ¬ Odd (liveQuotes past).length
      ∧ liveQuotes (past ++ [c]) = liveQuotes past ++ [past.length])
    ∨ (roleByParity (past ++ [c]) past.length c = .quoteClose ∧ Odd (liveQuotes past).length
      ∧ liveQuotes (past ++ [c]) = liveQuotes past ++ [past.length])
    ∨ (roleByParity (past ++ [c]) past.length c ≠ .quoteOpen
      ∧ roleByParity (past ++ [c]) past.length c ≠ .quoteClose
      ∧ liveQuotes (past ++ [c]) = liveQuotes past) := by
  rw [roleByParity, liveQuotes_concat, backslashRun_append past [c] (Nat.le_refl _),
    quotesBefore_append]
  by_cases hlive : c = '"' ∧ ¬ Odd (backslashRun past past.length)
  · obtain ⟨rfl, hconsumed⟩ := hlive
    by_cases hopen : Odd (liveQuotes past).length
    · simp [hconsumed, hopen]
    · simp [hconsumed, hopen]
  · refine Or.inr (Or.inr ?_)
    rw [if_neg hlive, List.append_nil]
    split_ifs <;> simp_all

/-- A line with an odd number of live quotes leaves the last of them open, and a line with an even
number leaves none. -/
theorem unterminatedLiteral_glyphs (text : List Char) :
    unterminatedLiteral (glyphs text)
      = if Odd (liveQuotes text).length then (liveQuotes text).getLast?.map (· + 1) else none := by
  induction text using List.reverseRecOn with
  | nil => rfl
  | append_singleton past c ih =>
      rw [unterminatedLiteral] at ih ⊢
      rw [glyphs_append, Quoting.after_eq, glyphsFrom, glyphsFrom, openLiteralFrom_append, ih,
        length_glyphs, Quoting.step_byParity past c [], openLiteralFrom, openLiteralFrom]
      obtain ⟨hrole, hopen, hquotes⟩ | ⟨hrole, hopen, hquotes⟩ | ⟨hopens, hcloses, hquotes⟩ :=
        liveQuotes_concat_cases past c
      · simp [hrole, hquotes, hopen, Nat.odd_add_one, Nat.add_comm 1]
      · simp [hrole, hquotes, hopen, Nat.odd_add_one]
      · rw [hquotes]
        split
        · exact absurd ‹_› hopens
        · exact absurd ‹_› hcloses
        · rfl

/-! ## Columns -/

/-- A check that reports single characters reports each at the column the walk gives it. -/
theorem charactersFrom_walkFrom (q : Quoting) (column byte : Nat) (text : List Char) :
    LineCheck.charactersFrom column (glyphsFrom q text)
      = ((walkFrom q column byte text).filter fun place =>
          Text.isControl place.glyph.char && place.glyph.char != '\t').map fun place =>
            ⟨place.column, .invalidCharacter place.glyph.char⟩ := by
  induction text generalizing q column byte with
  | nil => rfl
  | cons c rest ih =>
      rw [glyphsFrom, walkFrom, LineCheck.charactersFrom, List.filter_cons,
        ih (q.step c).2 (column + 1) (byte + c.utf8Size)]
      split <;> rfl

/-- Columns are counted on from the first one. -/
theorem map_column_walkFrom (q : Quoting) (column byte : Nat) (text : List Char) :
    (walkFrom q column byte text).map PlacedGlyph.column = List.range' column text.length := by
  induction text generalizing q column byte with
  | nil => rfl
  | cons c rest ih =>
      rw [walkFrom, List.map_cons, ih, List.length_cons, List.range'_succ]

/-- **The walk over a line, said without walking.** The character at any index is consumed exactly
if the run of backslashes directly before it is odd. Otherwise it is an escape if it is a backslash;
and with an even number of live quotes before it a quote opens a literal and anything else is code,
with an odd number a quote closes one and anything else is inside. The walk counts the columns of
the characters one, two and so on in their order and gives each the size of those before it as its
byte; a check reports a character at its column. The quote of an unterminated literal is the last
live quote, if their number is odd; otherwise there is none. -/
theorem roles_by_parity (text : List Char) :
    (∀ i : Nat, (glyphs text)[i]? = text[i]?.map fun c => ⟨c, roleByParity text i c⟩)
      ∧ (∀ i : Nat, (walk text)[i]? = text[i]?.map fun c =>
          ⟨⟨c, roleByParity text i c⟩, i + 1, Text.byteSize (text.take i)⟩)
      ∧ (walk text).map PlacedGlyph.column = List.range' 1 text.length
      ∧ LineCheck.characters (glyphs text)
          = ((walk text).filter fun place =>
              Text.isControl place.glyph.char && place.glyph.char != '\t').map (fun place =>
                ⟨place.column, .invalidCharacter place.glyph.char⟩)
      ∧ unterminatedLiteral (glyphs text)
          = if Odd (liveQuotes text).length then (liveQuotes text).getLast?.map (· + 1)
            else none := by
  refine ⟨getElem?_glyphs text, ?_, map_column_walkFrom _ 1 0 text, ?_,
    unterminatedLiteral_glyphs text⟩
  · intro i
    rw [getElem?_walk, getElem?_glyphs, Option.map_map]
    rfl
  · rw [glyphs_eq_glyphsFrom]
    exact charactersFrom_walkFrom ⟨false, false⟩ 1 0 text

example :
    let text := "a\\\\\"b\\\"".toList
    liveQuotes text = [3] ∧ roleByParity text 3 '"' = .quoteOpen
      ∧ roleByParity text 6 '"' = .escaped
      ∧ unterminatedLiteral (glyphs text) = some 4 := by
  decide

end Line

end Softcode
