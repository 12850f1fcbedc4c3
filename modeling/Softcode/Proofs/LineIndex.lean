import Mathlib.Data.List.Induction
import Mathlib.Data.Prod.Lex
import Softcode.Proofs.LineEdits
import Softcode.Proofs.TextLines

/-!
# Two ways to count lines and columns

The passes cut a text into lines and count columns along each of them. The security scan looks at
the text as a whole and asks `LineIndex`, a table of the byte offsets at which lines start, where an
offset lies. The two agree on every text (`lineIndex_agrees`).

An offset on a character boundary is the size of some first part of the text. For such an offset the
table has one start for each line feed before it and the start of the text, and the last of these
starts is where the characters since the last line feed begin (`locate_byteSize`). A line of the
text is a piece between two line feeds without the carriage returns at its end, and the text before
it is made of the pieces before it, each with its line feed (`beforeLine`).
-/

namespace Softcode.Text

/-! ## Sizes and slices -/

/-- Counting on from some offset adds the size. -/
theorem foldl_utf8Size (offset : Nat) (s : List Char) :
    s.foldl (fun n c => n + c.utf8Size) offset = offset + byteSize s := by
  induction s generalizing offset with
  | nil => rfl
  | cons c rest ih =>
      rw [byteSize, List.foldl_cons, List.foldl_cons, ih, ih]
      omega

@[simp] theorem byteSize_nil : byteSize [] = 0 := rfl

@[simp] theorem byteSize_cons (c : Char) (s : List Char) :
    byteSize (c :: s) = c.utf8Size + byteSize s := by
  rw [byteSize, List.foldl_cons, foldl_utf8Size, Nat.zero_add]

@[simp] theorem byteSize_append (s t : List Char) :
    byteSize (s ++ t) = byteSize s + byteSize t := by
  rw [byteSize, List.foldl_append, foldl_utf8Size, foldl_utf8Size, Nat.zero_add]

theorem sliceFrom_cons (offset start stop : Nat) (c : Char) (s : List Char) :
    sliceFrom offset start stop (c :: s)
      = if start ≤ offset && offset < stop then c :: sliceFrom (offset + c.utf8Size) start stop s
        else sliceFrom (offset + c.utf8Size) start stop s := rfl

/-- A slice is taken part by part. -/
theorem sliceFrom_append (offset start stop : Nat) (s t : List Char) :
    sliceFrom offset start stop (s ++ t)
      = sliceFrom offset start stop s ++ sliceFrom (offset + byteSize s) start stop t := by
  induction s generalizing offset with
  | nil => rfl
  | cons c s ih =>
      simp only [List.cons_append, sliceFrom_cons, ih, byteSize_cons, Nat.add_assoc]
      split <;> rfl

/-- Nothing of a text that ends before the slice starts is in the slice. -/
theorem sliceFrom_of_le_start {offset start stop : Nat} {s : List Char}
    (h : offset + byteSize s ≤ start) : sliceFrom offset start stop s = [] := by
  induction s generalizing offset with
  | nil => rfl
  | cons c s ih =>
      have hpos := c.utf8Size_pos
      rw [byteSize_cons] at h
      have hout : ¬ (start ≤ offset && offset < stop) = true := by
        simp only [Bool.and_eq_true, decide_eq_true_eq]
        omega
      rw [sliceFrom_cons, if_neg hout]
      exact ih (by omega)

/-- Nothing of a text that starts after the slice ends is in the slice. -/
theorem sliceFrom_of_stop_le {offset start stop : Nat} {s : List Char} (h : stop ≤ offset) :
    sliceFrom offset start stop s = [] := by
  induction s generalizing offset with
  | nil => rfl
  | cons c s ih =>
      have hout : ¬ (start ≤ offset && offset < stop) = true := by
        simp only [Bool.and_eq_true, decide_eq_true_eq]
        omega
      rw [sliceFrom_cons, if_neg hout]
      exact ih (by omega)

/-- A text that lies within the slice is all there. -/
theorem sliceFrom_of_within {offset start stop : Nat} {s : List Char} (hstart : start ≤ offset)
    (hstop : offset + byteSize s ≤ stop) : sliceFrom offset start stop s = s := by
  induction s generalizing offset with
  | nil => rfl
  | cons c s ih =>
      have hpos := c.utf8Size_pos
      rw [byteSize_cons] at hstop
      have hin : (start ≤ offset && offset < stop) = true := by
        simp only [Bool.and_eq_true, decide_eq_true_eq]
        omega
      rw [sliceFrom_cons, if_pos hin, ih (by omega) (by omega)]

/-- The slice between the sizes of two first parts of a text is what stands between them. -/
theorem slice_append (a m b : List Char) :
    slice (a ++ m ++ b) (byteSize a) (byteSize a + byteSize m) = m := by
  rw [slice, sliceFrom_append, sliceFrom_append, byteSize_append,
    sliceFrom_of_le_start (by omega), sliceFrom_of_within (by omega) (by omega),
    sliceFrom_of_stop_le (by omega), List.nil_append, List.append_nil]

/-! ## The table of starts -/

theorem startsFrom_cons (offset : Nat) (c : Char) (s : List Char) :
    startsFrom offset (c :: s)
      = if c == '\n' then (offset + c.utf8Size) :: startsFrom (offset + c.utf8Size) s
        else startsFrom (offset + c.utf8Size) s := rfl

/-- So are the starts of lines. -/
theorem startsFrom_append (offset : Nat) (s t : List Char) :
    startsFrom offset (s ++ t) = startsFrom offset s ++ startsFrom (offset + byteSize s) t := by
  induction s generalizing offset with
  | nil => rfl
  | cons c s ih =>
      simp only [List.cons_append, startsFrom_cons, ih, byteSize_cons, Nat.add_assoc]
      split <;> rfl

/-- The starts lie after the offset the text starts at, and not after its end. -/
theorem bounds_of_mem_startsFrom {offset start : Nat} {s : List Char}
    (h : start ∈ startsFrom offset s) : offset < start ∧ start ≤ offset + byteSize s := by
  induction s generalizing offset with
  | nil => exact absurd h List.not_mem_nil
  | cons c s ih =>
      have hpos := c.utf8Size_pos
      rw [byteSize_cons]
      rw [startsFrom_cons] at h
      split at h
      · rcases List.mem_cons.mp h with rfl | hrest
        · omega
        · have := ih hrest
          omega
      · have := ih h
        omega

/-- The table increases, so the last start not after an offset can be searched for. -/
theorem pairwise_startsFrom (offset : Nat) (s : List Char) :
    (startsFrom offset s).Pairwise (· < ·) := by
  induction s generalizing offset with
  | nil => exact List.Pairwise.nil
  | cons c s ih =>
      rw [startsFrom_cons]
      split
      · exact List.pairwise_cons.mpr ⟨fun _ h => (bounds_of_mem_startsFrom h).1, ih _⟩
      · exact ih _

/-- There is one start for each line feed. -/
theorem length_startsFrom (offset : Nat) (s : List Char) :
    (startsFrom offset s).length = s.count '\n' := by
  induction s generalizing offset with
  | nil => rfl
  | cons c s ih =>
      rw [startsFrom_cons, List.count_cons]
      split
      · rw [List.length_cons, ih]
      · rw [ih, Nat.add_zero]

/-! ## The characters since the last line feed -/

/-- The characters of a text after its last line feed. -/
def lastPiece (s : List Char) : List Char := (s.reverse.takeWhile (· != '\n')).reverse

/-- What has no line feed goes on the last line. -/
theorem lastPiece_append_of_not_mem (s : List Char) {t : List Char} (h : '\n' ∉ t) :
    lastPiece (s ++ t) = lastPiece s ++ t := by
  have hpass : ∀ c ∈ t.reverse, (c != '\n') = true := by
    intro c hc
    rw [bne_iff_ne]
    rintro rfl
    exact h (List.mem_reverse.mp hc)
  rw [lastPiece, List.reverse_append, List.takeWhile_append_of_pos hpass, List.reverse_append,
    List.reverse_reverse, lastPiece]

theorem lastPiece_append_feed (s : List Char) : lastPiece (s ++ ['\n']) = [] := by
  rw [lastPiece, List.reverse_append]
  rfl

/-- The last start of a text is where the characters since its last line feed begin. -/
theorem getLast?_starts (s : List Char) :
    ∃ front, s = front ++ lastPiece s
      ∧ (0 :: startsFrom 0 s).getLast? = some (byteSize front) := by
  induction s using List.reverseRecOn with
  | nil => exact ⟨[], rfl, rfl⟩
  | append_singleton s c ih =>
      obtain ⟨front, hfront, hlast⟩ := ih
      rw [startsFrom_append, Nat.zero_add]
      by_cases hfeed : c = '\n'
      · subst hfeed
        have hstart : startsFrom (byteSize s) ['\n'] = [byteSize (s ++ ['\n'])] := by
          simp [startsFrom]
        refine ⟨s ++ ['\n'], ?_, ?_⟩
        · rw [lastPiece_append_feed, List.append_nil]
        · rw [hstart, ← List.cons_append, List.getLast?_concat]
      · have hnone : startsFrom (byteSize s) [c] = [] := by simp [startsFrom, hfeed]
        have hpiece : lastPiece (s ++ [c]) = lastPiece s ++ [c] :=
          lastPiece_append_of_not_mem s (by simpa using Ne.symm hfeed)
        refine ⟨front, ?_, ?_⟩
        · rw [hpiece, ← List.append_assoc, ← hfront]
        · rw [hnone, List.append_nil, hlast]

/-! ## Where an offset lies -/

/-- Of the table of a text, the starts up to the end of a first part are those of that part. -/
theorem filter_starts (before after : List Char) :
    (0 :: startsFrom 0 (before ++ after)).filter (· ≤ byteSize before)
      = 0 :: startsFrom 0 before := by
  have hbefore : ∀ start ∈ startsFrom 0 before, decide (start ≤ byteSize before) = true := by
    intro start hstart
    have := bounds_of_mem_startsFrom hstart
    rw [decide_eq_true_eq]
    omega
  have hafter : ∀ start ∈ startsFrom (byteSize before) after,
      ¬ decide (start ≤ byteSize before) = true := by
    intro start hstart
    have := bounds_of_mem_startsFrom hstart
    rw [decide_eq_true_eq]
    omega
  rw [startsFrom_append, Nat.zero_add, List.filter_cons_of_pos (by simp), List.filter_append,
    List.filter_eq_self.mpr hbefore, List.filter_eq_nil_iff.mpr hafter, List.append_nil]

/-- An offset on a character boundary lies on the line after the line feeds before it, at the column
after the characters since the last of these. -/
theorem LineIndex.locate_byteSize (before after : List Char) :
    (build (before ++ after)).locate (byteSize before)
      = (1 + before.count '\n', 1 + (lastPiece before).length) := by
  have hmin : min (byteSize before) (byteSize (before ++ after)) = byteSize before := by
    rw [byteSize_append]
    omega
  obtain ⟨front, hfront, hlast⟩ := getLast?_starts before
  have hslice : slice (before ++ after) (byteSize front) (byteSize before) = lastPiece before := by
    have hcut := slice_append front (lastPiece before) after
    rwa [← byteSize_append, ← hfront] at hcut
  simp only [locate, build, hmin, filter_starts, hlast, Option.getD_some, hslice,
    List.length_cons, length_startsFrom]
  rw [Nat.add_comm, Nat.add_comm (lastPiece before).length]

/-- A later offset lies on a later line, or on the same line further to the right. -/
theorem LineIndex.locate_lt_locate {text before after before' after' : List Char}
    (h : text = before ++ after) (h' : text = before' ++ after')
    (hlt : byteSize before < byteSize before') :
    toLex ((build text).locate (byteSize before)) < toLex ((build text).locate (byteSize before'))
    := by
  -- the shorter part is a first part of the longer one
  obtain ⟨more, hmore⟩ : ∃ more, before' = before ++ more := by
    rcases List.append_eq_append_iff.mp (h.symm.trans h') with ⟨more, hmore, -⟩ | ⟨more, hmore, -⟩
    · exact ⟨more, hmore⟩
    · rw [hmore, byteSize_append] at hlt
      omega
  have hne : more ≠ [] := by
    rintro rfl
    rw [hmore, List.append_nil] at hlt
    omega
  have hlocate : (build text).locate (byteSize before)
      = (1 + before.count '\n', 1 + (lastPiece before).length) := by
    rw [h]
    exact locate_byteSize before after
  have hlocate' : (build text).locate (byteSize before')
      = (1 + before'.count '\n', 1 + (lastPiece before').length) := by
    rw [h']
    exact locate_byteSize before' after'
  rw [hlocate, hlocate', Prod.Lex.toLex_lt_toLex, hmore, List.count_append]
  by_cases hfeed : '\n' ∈ more
  · have hpos : 0 < more.count '\n' := List.count_pos_iff.mpr hfeed
    left
    omega
  · have hpos : 0 < more.length := List.length_pos_iff.mpr hne
    right
    rw [List.count_eq_zero_of_not_mem hfeed, lastPiece_append_of_not_mem before hfeed,
      List.length_append]
    exact ⟨rfl, by omega⟩

/-! ## The lines of a text -/

/-- The characters of a text before the line with this number: the pieces before it, each with the
line feed that ends it. -/
def beforeLine (text : List Char) (number : Nat) : List Char :=
  ((pieces text).take (number - 1)).flatMap (· ++ ['\n'])

/-- A line has no line feed in it. -/
theorem not_mem_of_mem_pieces {text piece : List Char} (h : piece ∈ pieces text) :
    '\n' ∉ piece := by
  intro hfeed
  exact absurd (test_of_mem_splitBy h hfeed) (by decide)

/-- The text around one line of a text. -/
theorem intercalate_feed (front back : List (List Char)) (piece : List Char) :
    ['\n'].intercalate (front ++ piece :: back)
      = front.flatMap (· ++ ['\n']) ++ piece ++ back.flatMap ('\n' :: ·) := by
  induction front with
  | nil =>
      rw [List.nil_append, List.flatMap_nil, List.nil_append]
      induction back generalizing piece with
      | nil => simp
      | cons next back ih => simp [List.intercalate_cons_cons, ih]
  | cons first front ih =>
      cases hrest : front ++ piece :: back with
      | nil => exact absurd hrest (by simp)
      | cons next more =>
          rw [List.cons_append, hrest, List.intercalate_cons_cons, ← hrest, ih]
          simp

/-- A piece of a text in its place: between the text before it, which is empty or ends in a line
feed, and the text after it, which is empty or starts with one. -/
structure PieceAt (text : List Char) (index : Nat) (before piece after : List Char) : Prop where
  text_eq : text = before ++ piece ++ after
  count_before : before.count '\n' = index
  lastPiece_before : lastPiece before = []
  not_mem : '\n' ∉ piece
  after_eq : after = [] ∨ ∃ rest, after = '\n' :: rest

/-- Some pieces, each with its line feed, have that many line feeds and end in the last. -/
theorem feeds_of_pieces {front : List (List Char)} (h : ∀ piece ∈ front, '\n' ∉ piece) :
    (front.flatMap (· ++ ['\n'])).count '\n' = front.length
      ∧ lastPiece (front.flatMap (· ++ ['\n'])) = [] := by
  induction front using List.reverseRecOn with
  | nil => exact ⟨rfl, rfl⟩
  | append_singleton front piece ih =>
      have hpiece : '\n' ∉ piece := h piece (by simp)
      obtain ⟨hcount, -⟩ := ih fun other hother => h other (List.mem_append_left _ hother)
      rw [List.flatMap_append, List.flatMap_singleton, ← List.append_assoc]
      refine ⟨?_, lastPiece_append_feed _⟩
      rw [List.count_append, List.count_append, hcount, List.count_eq_zero_of_not_mem hpiece]
      simp

/-- Line feeds put the pieces together again. -/
theorem intercalate_pieces (text : List Char) : ['\n'].intercalate (pieces text) = text := by
  rw [pieces, splitBy_eq_splitOnP]
  exact List.intercalate_splitOn '\n'

/-- Every piece of a text stands in its place, after `beforeLine`. -/
theorem exists_pieceAt {text piece : List Char} {n : Nat} (h : (pieces text)[n]? = some piece) :
    ∃ after, PieceAt text n (beforeLine text (n + 1)) piece after := by
  obtain ⟨hn, hpiece⟩ := List.getElem?_eq_some_iff.mp h
  have hsplit : pieces text = (pieces text).take n ++ piece :: (pieces text).drop (n + 1) := by
    rw [← hpiece, List.getElem_cons_drop, List.take_append_drop]
  have hjoin := intercalate_pieces text
  obtain ⟨hcount, hlast⟩ := feeds_of_pieces fun other hother =>
    not_mem_of_mem_pieces (List.mem_of_mem_take hother)
  rw [hsplit, intercalate_feed] at hjoin
  refine ⟨((pieces text).drop (n + 1)).flatMap ('\n' :: ·), hjoin.symm, ?_, hlast,
    not_mem_of_mem_pieces (List.mem_of_getElem? h), ?_⟩
  · rw [beforeLine, hcount, List.length_take]
    omega
  · cases (pieces text).drop (n + 1) with
    | nil => exact Or.inl rfl
    | cons next more => exact Or.inr ⟨next ++ more.flatMap ('\n' :: ·), rfl⟩

/-- There is one piece more than line feeds. -/
theorem length_pieces (text : List Char) : (pieces text).length = text.count '\n' + 1 := by
  induction text with
  | nil => rfl
  | cons c rest ih =>
      rw [pieces] at ih ⊢
      rw [splitBy, List.count_cons]
      split
      · rw [List.length_cons, ih]
      · cases hpieces : splitBy (· == '\n') rest with
        | nil => exact absurd hpieces (pieces_ne_nil rest)
        | cons piece more =>
            rw [hpieces] at ih
            exact ih

namespace LineIndex

/-- The table has as many starts as the text has pieces. -/
theorem length_starts (text : List Char) : (build text).starts.length = (pieces text).length := by
  rw [length_pieces, ← length_startsFrom 0]
  rfl

/-- The table around a piece: the start of the piece, and then either nothing or what comes after
the line feed behind it. -/
theorem starts_around {text before piece after : List Char} {n : Nat}
    (h : PieceAt text n before piece after) :
    (build text).starts[n]? = some (byteSize before)
      ∧ (build text).starts[n + 1]?
        = if after = [] then none else some (byteSize before + byteSize piece + 1) := by
  have hnone : startsFrom (byteSize before) piece = [] := by
    rw [← List.length_eq_zero_iff, length_startsFrom, List.count_eq_zero_of_not_mem h.not_mem]
  have hfrom : startsFrom 0 text
      = startsFrom 0 before ++ startsFrom (byteSize before + byteSize piece) after := by
    rw [h.text_eq, startsFrom_append, startsFrom_append, byteSize_append, Nat.zero_add,
      Nat.zero_add, hnone, List.append_nil]
  have hstarts : (build text).starts
      = (0 :: startsFrom 0 before) ++ startsFrom (byteSize before + byteSize piece) after :=
    congrArg (0 :: ·) hfrom
  have hlength : (0 :: startsFrom 0 before).length = n + 1 := by
    rw [List.length_cons, length_startsFrom, h.count_before]
  constructor
  · obtain ⟨front, hfront, hlast⟩ := getLast?_starts before
    rw [h.lastPiece_before, List.append_nil] at hfront
    rw [List.getLast?_eq_getElem?, hlength, Nat.add_sub_cancel, ← hfront] at hlast
    rw [hstarts, List.getElem?_append_left (by omega), hlast]
  · rw [hstarts, List.getElem?_append_right (by omega), hlength, Nat.sub_self]
    rcases h.after_eq with hnil | ⟨rest, hrest⟩
    · rw [hnil]
      rfl
    · have hfeed : '\n'.utf8Size = 1 := by decide
      simp [hrest, startsFrom, hfeed]

/-- The table cuts out a piece of the text and drops the carriage returns it ends with. -/
theorem line_of_pieceAt {text before piece after : List Char} {n : Nat}
    (h : PieceAt text n before piece after) :
    (build text).line (n + 1) = dropReturns piece := by
  obtain ⟨hstart, hnext⟩ := starts_around h
  have hslice := slice_append before piece after
  rw [← h.text_eq] at hslice
  by_cases hafter : after = []
  · have hend : byteSize text = byteSize before + byteSize piece := by
      rw [h.text_eq, hafter, List.append_nil, byteSize_append]
    simp only [line, hstart, hnext, if_pos hafter]
    show dropReturns (slice text (byteSize before) (byteSize text)) = dropReturns piece
    rw [hend, hslice]
  · simp only [line, hstart, hnext, if_neg hafter, Nat.add_sub_cancel]
    exact congrArg dropReturns hslice

/-- An offset within a piece lies on its line, at the column after the characters of the piece
before it. -/
theorem locate_of_pieceAt {text before piece after start rest : List Char} {n : Nat}
    (h : PieceAt text n before piece after) (hpiece : piece = start ++ rest) :
    (build text).locate (byteSize (before ++ start)) = (n + 1, start.length + 1) := by
  have hfree : '\n' ∉ start := fun hmem =>
    h.not_mem (hpiece ▸ List.mem_append_left rest hmem)
  have htext : text = (before ++ start) ++ (rest ++ after) := by
    rw [h.text_eq, hpiece]
    simp only [List.append_assoc]
  rw [htext, locate_byteSize, List.count_append, h.count_before,
    List.count_eq_zero_of_not_mem hfree, lastPiece_append_of_not_mem before hfree,
    h.lastPiece_before, List.nil_append, Nat.add_zero, Nat.add_comm 1 n,
    Nat.add_comm 1 start.length]

/-- Beyond the pieces there is no line. -/
theorem line_of_length_le {text : List Char} {n : Nat} (h : (pieces text).length ≤ n) :
    (build text).line (n + 1) = [] := by
  have hnone : (build text).starts[n]? = none := by
    rw [List.getElem?_eq_none_iff, length_starts]
    exact h
  simp only [line, hnone]

end LineIndex

/-! ## Agreement -/

/-- The lines are the pieces without their carriage returns; the piece that is forgotten at the end
is empty, as a line that is not there. -/
theorem getD_lines (text : List Char) (n : Nat) :
    (lines text)[n]?.getD [] = ((pieces text)[n]?.map dropReturns).getD [] := by
  rw [← List.getElem?_map, ← terminated]
  rcases terminated_eq text with h | h
  · rw [h]
  · rw [h, List.getElem?_append]
    split
    · rfl
    · rename_i hout
      rw [List.getElem?_eq_none_iff.mpr (Nat.le_of_not_lt hout)]
      cases n - (lines text).length <;> rfl

end Softcode.Text

namespace Softcode

open Text

/-! ## Places along a walk -/

/-- Each step of the walk counts one character and its bytes, so the character at index `i` stands
`i` columns and the size of the characters before it further on. -/
theorem getElem?_walkFrom (q : Quoting) (column byte : Nat) (text : List Char) (i : Nat) :
    (walkFrom q column byte text)[i]?
      = (glyphsFrom q text)[i]?.map fun g => ⟨g, column + i, byte + byteSize (text.take i)⟩ := by
  induction text generalizing q column byte i with
  | nil => simp [walkFrom, glyphsFrom]
  | cons c rest ih =>
      cases i with
      | zero => simp [walkFrom, glyphsFrom]
      | succ i =>
          rw [walkFrom, glyphsFrom, List.getElem?_cons_succ, List.getElem?_cons_succ, ih,
            List.take_succ_cons, byteSize_cons, Nat.add_assoc column, Nat.add_comm 1,
            Nat.add_assoc byte]

/-- Each place of a walk, from the glyph and the characters before it. -/
theorem Line.getElem?_walk (line : List Char) (i : Nat) :
    (walk line)[i]? = (glyphs line)[i]?.map fun g => ⟨g, i + 1, byteSize (line.take i)⟩ := by
  rw [walk, getElem?_walkFrom, ← glyphs_eq_glyphsFrom]
  simp only [Nat.add_comm 1, Nat.zero_add]

/-- A place of the walk, by the index of its character. -/
theorem Line.exists_index_of_mem_walk {text : List Char} {place : PlacedGlyph}
    (h : place ∈ walk text) :
    ∃ i, text[i]? = some place.glyph.char ∧ place.column = i + 1
      ∧ place.byte = byteSize (text.take i) := by
  obtain ⟨i, hi⟩ := List.mem_iff_getElem?.mp h
  rw [getElem?_walk] at hi
  obtain ⟨g, hg, rfl⟩ := Option.map_eq_some_iff.mp hi
  exact ⟨i, getElem?_of_glyphs hg, rfl, rfl⟩

/-! ## Lines and columns of a context -/

/-- A line of a script by its number, without its carriage returns. -/
theorem Context.line_succ (c : Context) (n : Nat) :
    c.line (n + 1) = ((pieces c.text)[n]?.map dropReturns).getD [] := getD_lines c.text n

/-- Both views give a line the same content. -/
theorem Context.lineIndex_line (c : Context) (number : Nat) :
    (LineIndex.build c.text).line number = c.line number := by
  cases number with
  | zero => rfl
  | succ n =>
      rw [c.line_succ]
      cases hpiece : (pieces c.text)[n]? with
      | none => exact LineIndex.line_of_length_le (List.getElem?_eq_none_iff.mp hpiece)
      | some piece =>
          obtain ⟨after, hat⟩ := exists_pieceAt hpiece
          exact LineIndex.line_of_pieceAt hat

/-- A line with a character on it is a piece of the text without its carriage returns. -/
theorem Context.exists_piece_of_getElem? {c : Context} {number i : Nat} {char : Char}
    (h : (c.line number)[i]? = some char) :
    ∃ n piece, number = n + 1 ∧ (pieces c.text)[n]? = some piece
      ∧ c.line number = dropReturns piece := by
  cases number with
  | zero => exact absurd h (by simp [Context.line])
  | succ n =>
      cases hpiece : (pieces c.text)[n]? with
      | none =>
          rw [c.line_succ, hpiece] at h
          exact absurd h (by simp)
      | some piece =>
          refine ⟨n, piece, rfl, hpiece, ?_⟩
          rw [c.line_succ, hpiece]
          rfl

/-- Both views give a character of a line the same column. -/
theorem Context.lineIndex_locate {c : Context} {number : Nat} {place : PlacedGlyph}
    (h : place ∈ Line.walk (c.line number)) :
    ∃ before after, before = beforeLine c.text number ++ (c.line number).take (place.column - 1)
      ∧ c.text = before ++ place.glyph.char :: after
      ∧ byteSize before = byteSize (beforeLine c.text number) + place.byte
      ∧ (LineIndex.build c.text).locate (byteSize before) = (number, place.column) := by
  obtain ⟨i, hchar, hcolumn, hbyte⟩ := Line.exists_index_of_mem_walk h
  obtain ⟨n, piece, rfl, hpiece, hline⟩ := Context.exists_piece_of_getElem? hchar
  obtain ⟨after, hat⟩ := exists_pieceAt hpiece
  obtain ⟨returns, hreturns, -⟩ := dropReturns_append piece
  rw [← hline] at hreturns
  -- the piece is cut before the character
  obtain ⟨hlt, hget⟩ := List.getElem?_eq_some_iff.mp hchar
  have hcut : piece = (c.line (n + 1)).take i
      ++ place.glyph.char :: ((c.line (n + 1)).drop (i + 1) ++ returns) := by
    rw [← List.cons_append, ← hget, List.getElem_cons_drop, ← List.append_assoc,
      List.take_append_drop, ← hreturns]
  rw [hcolumn, hbyte, Nat.add_sub_cancel]
  refine ⟨_, (c.line (n + 1)).drop (i + 1) ++ returns ++ after, rfl, ?_, byteSize_append _ _, ?_⟩
  · refine hat.text_eq.trans ?_
    rw [hcut]
    simp only [List.append_assoc, List.cons_append]
  · rw [LineIndex.locate_of_pieceAt hat hcut, List.length_take_of_le hlt.le]

/-- **Lines and columns are counted alike.** The index of a text and the text cut into lines agree
on the content of every line, and there is none beyond the lines. A character of a line, at the
column and the byte where the walk over the line has it, stands in the text after the lines before
it and the characters before it, so its offset is their size, and the index locates that offset at
its line and column.

Every offset on a character boundary lies on the line after the line feeds before it, at the column
after the characters since the last of these, and a greater offset at a later place. The table of
starts begins at zero and increases, so there always is a last start not after an offset. -/
theorem lineIndex_agrees (c : Context) :
    (∀ number, (LineIndex.build c.text).line number = c.line number)
      ∧ (∀ number, number = 0 ∨ c.totalLines < number → c.line number = [])
      ∧ (∀ number, ∀ place ∈ Line.walk (c.line number),
          ∃ before after,
            before = beforeLine c.text number ++ (c.line number).take (place.column - 1)
            ∧ c.text = before ++ place.glyph.char :: after
            ∧ byteSize before = byteSize (beforeLine c.text number) + place.byte
            ∧ (LineIndex.build c.text).locate (byteSize before) = (number, place.column))
      ∧ (∀ before after, c.text = before ++ after →
          (LineIndex.build c.text).locate (byteSize before)
            = (1 + before.count '\n', 1 + (lastPiece before).length))
      ∧ (∀ before after before' after', c.text = before ++ after → c.text = before' ++ after' →
          byteSize before < byteSize before' →
          toLex ((LineIndex.build c.text).locate (byteSize before))
            < toLex ((LineIndex.build c.text).locate (byteSize before')))
      ∧ (LineIndex.build c.text).starts.head? = some 0
      ∧ (LineIndex.build c.text).starts.Pairwise (· < ·) := by
  refine ⟨c.lineIndex_line, ?_, fun _ _ => Context.lineIndex_locate, ?_,
    fun _ _ _ _ => LineIndex.locate_lt_locate, rfl, ?_⟩
  · rintro number (rfl | hbeyond)
    · rfl
    · cases number with
      | zero => rfl
      | succ n =>
          have hnone : c.lines[n]? = none := List.getElem?_eq_none (Nat.le_of_lt_succ hbeyond)
          rw [Context.line, hnone]
          rfl
  · intro before after htext
    rw [htext]
    exact LineIndex.locate_byteSize before after
  · exact List.pairwise_cons.mpr
      ⟨fun _ h => (bounds_of_mem_startsFrom h).1, pairwise_startsFrom 0 c.text⟩

example :
    let index := LineIndex.build "ab\r\ncdé\nxyz".toList
    index.locate 6 = (2, 3) ∧ index.locate 9 = (3, 1) ∧ index.line 1 = "ab".toList := by
  decide

end Softcode
