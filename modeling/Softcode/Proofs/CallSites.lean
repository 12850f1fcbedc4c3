import Mathlib.Data.List.Basic
import Softcode.Line.Call
import Softcode.Proofs.LineEdits
import Softcode.Proofs.LineIndex

/-!
# Where calls stand

A call is found by looking back from a structural `(`. Here its place is said without a direction:
directly before the `(` stands a longest run of structural word characters, its first character may
start a name, and the character before it does not make it a name of another kind (`CallSite`). The
calls of a line are these places, each once and from left to right (`calls_exact`).

The name of a call can also be cut out of the bytes of the line, between the offsets of its first
character and of the `(`. Both are sizes of first parts of the line, so they are boundaries between
characters, whatever stands around the name (`Text.cut?_append`).
-/

namespace Softcode

theorem Glyph.isCodeChar_iff {g : Glyph} {c : Char} : g.isCodeChar c = true ↔ g = ⟨c, .code⟩ := by
  obtain ⟨d, role⟩ := g
  simp [isCodeChar, isCode, and_comm]

/-! ## Longest runs -/

/-- Between `front` and `back` stands a run of glyphs with a property, and it cannot be made longer
on either side. -/
structure IsRun (p : Glyph → Bool) (front run back : List Glyph) : Prop where
  ne_nil : run ≠ []
  all : ∀ g ∈ run, p g = true
  front_not : ∀ g ∈ front.getLast?, p g = false
  back_not : ∀ g ∈ back.head?, p g = false

section Runs

variable {p : Glyph → Bool} {front run back : List Glyph} {i : Nat} {g : Glyph}

/-- A run that the rest does not go on is what a walk takes. -/
theorem takeWhile_append_of_head? (hrun : ∀ g ∈ run, p g = true)
    (hback : ∀ g ∈ back.head?, p g = false) : (run ++ back).takeWhile p = run := by
  rw [List.takeWhile_append_of_pos hrun]
  cases back with
  | nil => simp
  | cons g back => simp [hback g rfl]

/-- The rest behind the longest run does not go on with it. -/
theorem head?_dropWhile (gs : List Glyph) : ∀ g ∈ (gs.dropWhile p).head?, p g = false := by
  intro g hg
  have hnot := List.head?_dropWhile_not p gs
  rw [hg] at hnot
  exact hnot

theorem drop_length_takeWhile (gs : List Glyph) :
    gs.drop (gs.takeWhile p).length = gs.dropWhile p := by
  calc gs.drop (gs.takeWhile p).length
      = (gs.takeWhile p ++ gs.dropWhile p).drop (gs.takeWhile p).length := by
        rw [List.takeWhile_append_dropWhile]
    _ = gs.dropWhile p := List.drop_left

/-- What lacks the property is not in a run. -/
theorem IsRun.outside (hrun : IsRun p front run back) (hi : (front ++ run ++ back)[i]? = some g)
    (hg : p g = false) : i < front.length ∨ (front ++ run).length ≤ i := by
  by_contra hinside
  obtain ⟨hstart, hstop⟩ := not_or.mp hinside
  rw [List.getElem?_append_left (by omega), List.getElem?_append_right (by omega)] at hi
  rw [hrun.all g (List.mem_of_getElem? hi)] at hg
  exact Bool.false_ne_true hg.symm

/-- The glyph right before a cut is the last one in front of it. -/
theorem mem_getLast?_of_getElem? (hi : (front ++ back)[i]? = some g)
    (hlast : i + 1 = front.length) :
    g ∈ front.getLast? := by
  rw [List.getElem?_append_left (by omega)] at hi
  rw [List.getLast?_eq_getElem?, ← hlast, Nat.add_sub_cancel]
  exact hi

end Runs

/-! ## Cutting a text at byte offsets -/

namespace Text

/-- The part of a text between two byte offsets, cut out of its bytes. There is none if an offset
lies past the end or inside a character, or if the second comes before the first. -/
def cut? (text : String) (start stop : Nat) : Option String :=
  if h : String.Pos.Raw.IsValid text ⟨start⟩ ∧ String.Pos.Raw.IsValid text ⟨stop⟩
      ∧ start ≤ stop then
    some (text.extract ⟨⟨start⟩, h.1⟩ ⟨⟨stop⟩, h.2.1⟩)
  else none

/-- The bytes of a string are those of its characters. -/
theorem utf8ByteSize_ofList (s : List Char) :
    (String.ofList s).utf8ByteSize = byteSize s := by
  induction s with
  | nil => rfl
  | cons c s ih =>
      rw [byteSize_cons, ← ih]
      simp

theorem size_toByteArray_ofList (s : List Char) :
    (String.ofList s).toByteArray.size = byteSize s := by
  rw [String.size_toByteArray, utf8ByteSize_ofList]

/-- The size of a first part of a text is a boundary between characters. -/
theorem isValid_byteSize (a b : List Char) :
    String.Pos.Raw.IsValid (String.ofList (a ++ b)) ⟨byteSize a⟩ := by
  rw [String.Pos.Raw.isValid_ofList]
  refine ⟨a.length, ?_⟩
  rw [List.take_left, utf8ByteSize_ofList]

/-- Cutting out the middle of three parts gives the middle. -/
theorem extract_append_append (a m b : ByteArray) :
    (a ++ (m ++ b)).extract a.size (a.size + m.size) = m := by
  have hskip : (a ++ (m ++ b)).extract (a.size + 0) (a.size + m.size)
      = (m ++ b).extract 0 m.size := ByteArray.extract_append_size_add
  rw [Nat.add_zero] at hskip
  rw [hskip, ByteArray.extract_append_eq_left rfl]

/-- What stands between two first parts of a text can be cut out of its bytes. -/
theorem cut?_append (a m b : List Char) :
    cut? (String.ofList (a ++ m ++ b)) (byteSize a) (byteSize (a ++ m))
      = some (String.ofList m) := by
  have hstart : String.Pos.Raw.IsValid (String.ofList (a ++ m ++ b)) ⟨byteSize a⟩ := by
    rw [List.append_assoc]
    exact isValid_byteSize a (m ++ b)
  have hle : byteSize a ≤ byteSize (a ++ m) := by
    rw [byteSize_append]
    exact Nat.le_add_right _ _
  have hbytes : (String.ofList (a ++ m ++ b)).toByteArray.extract (byteSize a) (byteSize (a ++ m))
      = (String.ofList m).toByteArray := by
    rw [byteSize_append, ← size_toByteArray_ofList a, ← size_toByteArray_ofList m,
      String.ofList_append, String.ofList_append, String.toByteArray_append,
      String.toByteArray_append, ByteArray.append_assoc, extract_append_append]
  rw [cut?, dif_pos ⟨hstart, isValid_byteSize (a ++ m) b, hle⟩, Option.some.injEq,
    ← String.toByteArray_inj, String.toByteArray_extract]
  exact hbytes

end Text

namespace Line

/-! ## The place of a call -/

/-- Among the glyphs, a name stands directly before a structural `(`: a longest run of structural
word characters that starts with a letter or an underscore. The character before it, whatever its
role, is neither part of a word nor one that makes the name something else than a function. -/
structure CallSite (gs front name back : List Glyph) : Prop where
  glyphs : gs = front ++ name ++ ⟨'(', .code⟩ :: back
  run : IsRun Glyph.isCodeWord front name (⟨'(', .code⟩ :: back)
  starts : ∀ g ∈ name.head?, g.char.isAlpha = true ∨ g.char = '_'
  free : ∀ g ∈ front.getLast?, g.isWord = false ∧ g.char ∉ ['@', '&', '%', '#', '$', '\\']

/-- The call of a name between `front` and the `(` before `back`. -/
def callOfName (front name back : List Glyph) : Call where
  name := String.ofList (chars name)
  column := front.length + 1
  openIndex := (front ++ name).length
  spaced := back.head?.any (·.char == ' ')

theorem isWordStart_iff {c : Char} :
    Text.isWordStart c = true ↔ c.isAlpha = true ∨ c = '_' := by
  simp [Text.isWordStart]

/-- The characters behind which a name can start. -/
theorem bindsName_eq_false_iff {c : Char} :
    bindsName c = false
      ↔ Text.isWordChar c = false ∧ c ∉ ['@', '&', '%', '#', '$', '\\'] := by
  simp [bindsName, and_assoc]

/-- What is found looking back from a `(` is the call of the name before it. -/
theorem exists_callSite_of_callAt? {past back : List Glyph} {call : Call}
    (h : callAt? past back = some call) :
    ∃ front name, CallSite (past.reverse ++ ⟨'(', .code⟩ :: back) front name back
      ∧ call = callOfName front name back := by
  simp only [callAt?, drop_length_takeWhile] at h
  split at h
  · exact absurd h (by simp)
  rename_i first hfirst
  rw [Option.ite_none_left_eq_some, Option.ite_none_left_eq_some, Option.some.injEq] at h
  obtain ⟨hstart, hfree, rfl⟩ := h
  have hpast : (past.dropWhile Glyph.isCodeWord).reverse
      ++ (past.takeWhile Glyph.isCodeWord).reverse = past.reverse := by
    rw [← List.reverse_append, List.takeWhile_append_dropWhile]
  have hrun : IsRun Glyph.isCodeWord (past.dropWhile Glyph.isCodeWord).reverse
      (past.takeWhile Glyph.isCodeWord).reverse (⟨'(', .code⟩ :: back) := by
    refine ⟨?_, ?_, ?_, ?_⟩
    · intro hnil
      rw [List.reverse_eq_nil_iff.mp hnil] at hfirst
      exact absurd hfirst (by simp)
    · intro g hg
      exact List.mem_takeWhile_imp (List.mem_reverse.mp hg)
    · rw [List.getLast?_reverse]
      exact head?_dropWhile past
    · rintro g ⟨⟩
      rfl
  refine ⟨_, _, ⟨by rw [hpast], hrun, ?_, ?_⟩, ?_⟩
  · rw [List.head?_reverse, hfirst]
    rintro g ⟨⟩
    exact isWordStart_iff.mp (by simpa using hstart)
  · rw [List.getLast?_reverse]
    intro g hg
    rw [hg] at hfree
    exact bindsName_eq_false_iff.mp (by simpa using hfree)
  · have hlength : past.length - (past.takeWhile Glyph.isCodeWord).length
        = (past.dropWhile Glyph.isCodeWord).length := by
      rw [← drop_length_takeWhile, List.length_drop]
    rw [callOfName, hpast, List.length_reverse, List.length_reverse, hlength]

/-- The call of a name is found looking back from the `(` behind it. -/
theorem CallSite.callAt?_eq {past front name back : List Glyph}
    (h : CallSite (past.reverse ++ ⟨'(', .code⟩ :: back) front name back) :
    callAt? past back = some (callOfName front name back) := by
  obtain ⟨hglyphs, hrun, hstarts, hfree⟩ := h
  obtain ⟨hpast, -⟩ := List.append_inj' hglyphs (by simp)
  obtain rfl : past = name.reverse ++ front.reverse := by
    rw [← List.reverse_append, ← hpast, List.reverse_reverse]
  have hword : (name.reverse ++ front.reverse).takeWhile Glyph.isCodeWord = name.reverse :=
    takeWhile_append_of_head? (fun g hg => hrun.all g (List.mem_reverse.mp hg))
      (by rw [List.head?_reverse]; exact hrun.front_not)
  have hbefore : (name.reverse ++ front.reverse).dropWhile Glyph.isCodeWord = front.reverse := by
    rw [← drop_length_takeWhile, hword, List.drop_left]
  obtain ⟨g, more, rfl⟩ := List.exists_cons_of_ne_nil hrun.ne_nil
  have hfree : front.getLast?.any (bindsName ·.char) = false := by
    rw [Option.any_eq_false]
    intro g hg
    simpa using bindsName_eq_false_iff.mpr (hfree g hg)
  have hindex : ((g :: more).reverse ++ front.reverse).length = (front ++ g :: more).length := by
    rw [← hpast, List.length_reverse]
  have hcolumn : (front ++ g :: more).length - (g :: more).reverse.length = front.length := by
    rw [List.length_append, List.length_reverse, Nat.add_sub_cancel]
  simp only [callAt?, drop_length_takeWhile]
  simp only [hword, hbefore, List.getLast?_reverse, List.head?_reverse, List.head?_cons,
    isWordStart_iff.mpr (hstarts g rfl), hfree, List.reverse_reverse, hindex, hcolumn, callOfName]
  rfl

/-- The calls of a walk open at its first glyph or behind it. -/
theorem mem_callsFrom_cons {past rest : List Glyph} {g : Glyph} {call : Call} :
    call ∈ callsFrom past (g :: rest)
      ↔ g = ⟨'(', .code⟩ ∧ callAt? past rest = some call ∨ call ∈ callsFrom (g :: past) rest := by
  rw [← Glyph.isCodeChar_iff, callsFrom]
  split
  · rename_i hg
    simp [hg]
  · rename_i hg
    simp [hg]

/-- The calls among glyphs are those found at their structural `(`. -/
theorem mem_callsFrom_iff {past gs : List Glyph} {call : Call} :
    call ∈ callsFrom past gs
      ↔ ∃ before back, gs = before ++ ⟨'(', .code⟩ :: back
          ∧ callAt? (before.reverse ++ past) back = some call := by
  induction gs generalizing past with
  | nil => simp [callsFrom]
  | cons g rest ih =>
      rw [mem_callsFrom_cons, ih]
      constructor
      · rintro (⟨rfl, hcall⟩ | ⟨before, back, rfl, hcall⟩)
        · exact ⟨[], rest, rfl, hcall⟩
        · exact ⟨g :: before, back, rfl, by simpa using hcall⟩
      · rintro ⟨- | ⟨first, before⟩, back, hgs, hcall⟩
        · obtain ⟨rfl, rfl⟩ := List.cons.inj hgs
          exact Or.inl ⟨rfl, hcall⟩
        · obtain ⟨rfl, rfl⟩ := List.cons.inj hgs
          exact Or.inr ⟨before, back, rfl, by simpa using hcall⟩

/-- The calls of a line are at its call sites. -/
theorem mem_calls_iff {gs : List Glyph} {call : Call} :
    call ∈ calls gs
      ↔ ∃ front name back, CallSite gs front name back ∧ call = callOfName front name back := by
  rw [calls, mem_callsFrom_iff]
  constructor
  · rintro ⟨before, back, rfl, hcall⟩
    obtain ⟨front, name, hsite, rfl⟩ := exists_callSite_of_callAt? hcall
    rw [List.append_nil, List.reverse_reverse] at hsite
    exact ⟨front, name, back, hsite, rfl⟩
  · rintro ⟨front, name, back, hsite, rfl⟩
    refine ⟨front ++ name, back, hsite.glyphs, CallSite.callAt?_eq ?_⟩
    rw [List.append_nil, List.reverse_reverse, ← hsite.glyphs]
    exact hsite

/-- A call opens behind the glyphs that have been passed. -/
theorem openIndex_of_callAt? {past back : List Glyph} {call : Call}
    (h : callAt? past back = some call) : call.openIndex = past.length := by
  obtain ⟨front, name, hsite, rfl⟩ := exists_callSite_of_callAt? h
  obtain ⟨hpast, -⟩ := List.append_inj' hsite.glyphs (by simp)
  rw [callOfName, ← hpast, List.length_reverse]

/-- The pass goes from left to right, so it meets every `(` once. -/
theorem pairwise_callsFrom (past gs : List Glyph) :
    (callsFrom past gs).Pairwise fun a b => a.openIndex < b.openIndex := by
  induction gs generalizing past with
  | nil => exact .nil
  | cons g rest ih =>
      rw [callsFrom]
      split
      · refine List.pairwise_append.mpr ⟨?_, ih (g :: past), ?_⟩
        · cases callAt? past rest with
          | none => exact .nil
          | some call => exact List.pairwise_singleton _ _
        · intro call hcall later hlater
          obtain ⟨before, back, -, hfound⟩ := mem_callsFrom_iff.mp hlater
          rw [openIndex_of_callAt? (Option.mem_toList.mp hcall), openIndex_of_callAt? hfound,
            List.length_append, List.length_cons]
          omega
      · exact ih (g :: past)

/-! ## The name of a call -/

/-- The byte offset of the character with an index; past the last one it is the size of the line. -/
def byteOffset (line : List Char) (index : Nat) : Nat :=
  ((walk line)[index]?.map PlacedGlyph.byte).getD (Text.byteSize line)

/-- The offset is the size of a first part of the line. -/
theorem byteOffset_eq (line : List Char) (index : Nat) :
    byteOffset line index = Text.byteSize (line.take index) := by
  rw [byteOffset, getElem?_walk, Option.map_map]
  cases hglyph : (glyphs line)[index]? with
  | some g => rfl
  | none =>
      have hend : line.length ≤ index := length_glyphs line ▸ List.getElem?_eq_none_iff.mp hglyph
      rw [List.take_of_length_le hend]
      rfl

/-- The characters from index `start` up to index `stop`, cut out of the bytes of the line. -/
def cutBetween? (line : List Char) (start stop : Nat) : Option String :=
  Text.cut? (String.ofList line) (byteOffset line start) (byteOffset line stop)

namespace CallSite

variable {gs front name back : List Glyph}

/-- The name at a call site is an identifier. -/
theorem isIdentifier (h : CallSite gs front name back) :
    Text.isIdentifier (chars name) = true := by
  obtain ⟨g, more, rfl⟩ := List.exists_cons_of_ne_nil h.run.ne_nil
  have hmore : ∀ c ∈ chars more, Text.isWordChar c = true := by
    intro c hc
    obtain ⟨d, hd, rfl⟩ := List.mem_map.mp hc
    have hword := h.run.all d (List.mem_cons_of_mem g hd)
    rw [Glyph.isCodeWord, Bool.and_eq_true] at hword
    exact hword.2
  rw [chars, List.map_cons, Text.isIdentifier, isWordStart_iff.mpr (h.starts g rfl), Bool.true_and,
    List.all_eq_true]
  exact hmore

/-- The name is cut out between two boundaries of characters. -/
theorem cutBetween?_eq {line : List Char} (h : CallSite (Line.glyphs line) front name back) :
    cutBetween? line front.length (front ++ name).length = some (String.ofList (chars name)) := by
  have hline : line = chars front ++ chars name ++ '(' :: chars back := by
    rw [← chars_glyphs line, h.glyphs]
    simp [chars]
  have hstart : line.take front.length = chars front := by
    rw [hline, List.append_assoc]
    exact List.take_left' (by simp [chars])
  have hstop : line.take (front ++ name).length = chars front ++ chars name := by
    rw [hline]
    exact List.take_left' (by simp [chars])
  rw [cutBetween?, byteOffset_eq, byteOffset_eq, hstart, hstop, hline, Text.cut?_append]

end CallSite

/-- **Calls are found exactly.** The calls of a line stand in increasing order of their `(`, and
there is one for each structural `(` with a name directly before it, and no other. It has the name
that stands there, which is an identifier, and the column where the name starts. The name is also
what lies between the byte offsets of its first character and of the `(`, and both offsets are in
the line and on boundaries of characters. -/
theorem calls_exact (line : List Char) :
    (calls (glyphs line)).Pairwise (fun a b => a.openIndex < b.openIndex)
      ∧ (∀ call, call ∈ calls (glyphs line)
          ↔ ∃ front name back, CallSite (glyphs line) front name back
            ∧ call.name = String.ofList (chars name)
            ∧ call.column = front.length + 1
            ∧ call.openIndex = (front ++ name).length
            ∧ call.spaced = back.head?.any (·.char == ' '))
      ∧ ∀ call ∈ calls (glyphs line),
          Text.isIdentifier call.name.toList = true
            ∧ cutBetween? line (call.column - 1) call.openIndex = some call.name := by
  refine ⟨pairwise_callsFrom [] _, ?_, ?_⟩
  · rintro ⟨name, column, openIndex, spaced⟩
    rw [mem_calls_iff]
    simp only [callOfName, Call.mk.injEq]
  · intro call hcall
    obtain ⟨front, name, back, hsite, rfl⟩ := mem_calls_iff.mp hcall
    refine ⟨?_, hsite.cutBetween?_eq⟩
    rw [callOfName, String.toList_ofList]
    exact hsite.isIdentifier

/-- Names behind characters of two bytes, beside a name in a literal, one behind a `%` and one whose
last character is escaped. -/
theorem calls_exact_multibyte :
    let line := "é[add(\"f(\",%g(1),\\x(é_b(".toList
    calls (glyphs line) = [⟨"add", 3, 5, false⟩, ⟨"_b", 22, 23, false⟩]
      ∧ byteOffset line 21 = 23
      ∧ cutBetween? line 21 23 = some "_b" := by
  intro line
  have hcalls : calls (glyphs line) = [⟨"add", 3, 5, false⟩, ⟨"_b", 22, 23, false⟩] := by decide
  refine ⟨hcalls, by decide, ?_⟩
  exact ((calls_exact line).2.2 ⟨"_b", 22, 23, false⟩ (by rw [hcalls]; simp)).2

end Line

end Softcode
