import Softcode.Proofs.BracketAccounting
import Softcode.Proofs.LineIndex
import Softcode.Practice.Review

/-!
# Columns

Columns come from walks that count along the glyphs of a line. Each walk reports the column it is
at, or one that it has passed and kept on a stack, so its columns lie on the glyphs (`OnGlyphs`).
Checks that do arithmetic on columns look for a character first: a space after a parenthesis, a
name after an ampersand, a character beyond the length allowed. So every flaw of a line stands on
one of its characters (`LineCheck.column_of_mem_flaws`), and so does every tip.
-/

namespace Softcode

/-! ## Columns on glyphs -/

/-- The column lies on glyphs of which the first has column `first`. -/
def OnGlyphs (first : Nat) (gs : List Glyph) (column : Nat) : Prop :=
  first ≤ column ∧ column < first + gs.length

namespace OnGlyphs

/-- The first column is on the glyphs. -/
theorem head (first : Nat) (g : Glyph) (rest : List Glyph) : OnGlyphs first (g :: rest) first := by
  rw [OnGlyphs, List.length_cons]
  omega

/-- A column on the later glyphs is on the glyphs. -/
theorem tail {first column : Nat} {rest : List Glyph} (g : Glyph)
    (h : OnGlyphs (first + 1) rest column) : OnGlyphs first (g :: rest) column := by
  rw [OnGlyphs] at h ⊢
  rw [List.length_cons]
  omega

/-- One step of a walk that may report something: what it reports here stands at the first glyph,
and what it reports later on the rest. -/
theorem of_mem_step {α : Type} {position : α → Nat} {p : Prop} [Decidable p] {first : Nat}
    {g : Glyph} {rest : List Glyph} {a : α} (here : List α) {more : List α}
    (hhere : a ∈ here → position a = first)
    (hmore : a ∈ more → OnGlyphs (first + 1) rest (position a))
    (h : a ∈ if p then here ++ more else more) : OnGlyphs first (g :: rest) (position a) := by
  have hrest : a ∈ more → OnGlyphs first (g :: rest) (position a) := fun hmem => (hmore hmem).tail g
  split at h
  · rcases List.mem_append.mp h with hmem | hmem
    · rw [hhere hmem]
      exact head _ _ _
    · exact hrest hmem
  · exact hrest h

end OnGlyphs

/-- Columns from one on lie on the characters of the line. -/
theorem onGlyphs_glyphs_iff {line : List Char} {column : Nat} :
    OnGlyphs 1 (Line.glyphs line) column ↔ 1 ≤ column ∧ column ≤ line.length := by
  rw [OnGlyphs, Line.length_glyphs]
  omega

/-- What is about a line as a whole stands at its first column. -/
theorem onGlyphs_one {line : List Char} (hline : line ≠ []) : OnGlyphs 1 (Line.glyphs line) 1 :=
  onGlyphs_glyphs_iff.mpr ⟨Nat.le_refl 1, List.length_pos_iff.mpr hline⟩

namespace Line

/-- The quote left open is one that was open before, or stands on the glyphs. -/
theorem onGlyphs_of_openLiteralFrom {column found : Nat} {opened : Option Nat} {gs : List Glyph}
    (h : openLiteralFrom column opened gs = some found) :
    opened = some found ∨ OnGlyphs column gs found := by
  induction gs generalizing column opened with
  | nil => exact Or.inl h
  | cons g rest ih =>
      rcases ih h with hopened | hrest
      · split at hopened
        · rw [← Option.some.inj hopened]
          exact Or.inr (.head _ _ _)
        · exact absurd hopened (by simp)
        · exact Or.inl hopened
      · exact Or.inr (hrest.tail g)

/-- A command stands at its `@`. -/
theorem onGlyphs_of_mem_commandsFrom {column : Nat} {before : Option Char} {gs : List Glyph}
    {command : Command} (h : command ∈ commandsFrom column before gs) :
    OnGlyphs column gs command.column := by
  induction gs generalizing column before with
  | nil => exact absurd h List.not_mem_nil
  | cons g rest ih =>
      refine .of_mem_step (commandAt? column before rest).toList ?_ ih h
      intro hhere
      rw [Option.mem_toList, commandAt?, Option.ite_none_right_eq_some] at hhere
      rw [← Option.some.inj hhere.2]

/-- A command stands on the glyphs. -/
theorem onGlyphs_of_mem_commands {gs : List Glyph} {command : Command} (h : command ∈ commands gs) :
    OnGlyphs 1 gs command.column :=
  onGlyphs_of_mem_commandsFrom h

/-- A substitution stands at its `%`. -/
theorem onGlyphs_of_mem_substitutionsFrom {column skip : Nat} {gs : List Glyph}
    {sub : Substitution} (h : sub ∈ substitutionsFrom column skip gs) :
    OnGlyphs column gs sub.column := by
  induction gs generalizing column skip with
  | nil => exact absurd h List.not_mem_nil
  | cons g rest ih =>
      cases skip with
      | succ n => exact (ih h).tail g
      | zero =>
          -- the number of glyphs to skip differs between the branches, so the walks go on apart
          simp only [substitutionsFrom] at h
          split at h
          · rcases List.mem_append.mp h with hhere | hrest
            · rw [Option.mem_toList, Option.map_eq_some_iff] at hhere
              obtain ⟨reference, -, rfl⟩ := hhere
              exact .head _ _ _
            · exact (ih hrest).tail g
          · exact (ih h).tail g

/-- Where a call stands: its name starts at a column before its `(`, which is on the glyphs, and so
is the space that follows the `(` if there is one. -/
structure CallOn (length : Nat) (call : Call) : Prop where
  column_pos : 1 ≤ call.column
  column_le : call.column ≤ call.openIndex
  open_lt : call.openIndex < length
  space_lt : call.spaced = true → call.openIndex + 1 < length

/-- A call that opens at a bracket stays within the glyphs around the bracket. -/
theorem callOn_of_callAt? {past rest : List Glyph} {call : Call}
    (h : callAt? past rest = some call) : CallOn (past.length + (rest.length + 1)) call := by
  simp only [callAt?] at h
  split at h
  · exact absurd h (by simp)
  · rename_i first hfirst
    rw [Option.ite_none_left_eq_some, Option.ite_none_left_eq_some] at h
    -- the name has at least one glyph and at most those passed
    have hword : 0 < (past.takeWhile Glyph.isCodeWord).length := by
      rw [List.length_pos_iff]
      rintro hnil
      rw [hnil] at hfirst
      exact absurd hfirst (by simp)
    have hle := (List.takeWhile_sublist (l := past) Glyph.isCodeWord).length_le
    rw [← Option.some.inj h.2.2]
    refine ⟨by simp, ?_, by simp, ?_⟩
    · simp only
      omega
    · intro hspaced
      cases rest with
      | nil => exact absurd hspaced (by simp)
      | cons next more =>
          simp only [List.length_cons]
          omega

/-- The calls of a walk stay within the glyphs passed and to come. -/
theorem callOn_of_mem_callsFrom {past gs : List Glyph} {call : Call}
    (h : call ∈ callsFrom past gs) : CallOn (past.length + gs.length) call := by
  induction gs generalizing past with
  | nil => exact absurd h List.not_mem_nil
  | cons g rest ih =>
      have hrest : call ∈ callsFrom (g :: past) rest →
          CallOn (past.length + (g :: rest).length) call := by
        intro hmem
        have hon := ih hmem
        rw [List.length_cons] at hon ⊢
        rwa [Nat.add_assoc, Nat.add_comm 1] at hon
      simp only [callsFrom] at h
      split at h
      · rcases List.mem_append.mp h with hhere | hlater
        · exact callOn_of_callAt? (Option.mem_toList.mp hhere)
        · exact hrest hlater
      · exact hrest h

/-- The calls of a line stay within it. -/
theorem callOn_of_mem_calls {gs : List Glyph} {call : Call} (h : call ∈ calls gs) :
    CallOn gs.length call := by
  have hon := callOn_of_mem_callsFrom h
  rwa [List.length_nil, Nat.zero_add] at hon

/-- A call starts on the glyphs. -/
theorem onGlyphs_of_mem_calls {gs : List Glyph} {call : Call} (h : call ∈ calls gs) :
    OnGlyphs 1 gs call.column := by
  obtain ⟨hpos, hle, hlt, -⟩ := callOn_of_mem_calls h
  exact ⟨hpos, by omega⟩

end Line

/-! ## Columns of flaws -/

namespace LineCheck

/-- A flaw of a character stands on the glyphs. -/
theorem onGlyphs_of_mem_charactersFrom {column : Nat} {gs : List Glyph} {flaw : Flaw}
    (h : flaw ∈ charactersFrom column gs) : OnGlyphs column gs flaw.column := by
  induction gs generalizing column with
  | nil => exact absurd h List.not_mem_nil
  | cons g rest ih =>
      refine .of_mem_step [⟨column, .invalidCharacter g.char⟩] ?_ ih h
      intro hhere
      rw [List.mem_singleton.mp hhere]

/-- A closer is at fault itself, not the openers that it meets. -/
theorem column_of_mem_closeBracket {kind : Bracket} {column : Nat} {stack : List Opener}
    {flaw : Flaw} (h : flaw ∈ (closeBracket kind column stack).1) : flaw.column = column := by
  rw [closeBracket_flaws, Option.mem_toList] at h
  rcases closeBracket_cases kind column stack with
    ⟨-, hsettle, -⟩ | ⟨dropped, _, _, -, -, hsettle, -⟩
  · rw [hsettle] at h
    rw [← Option.some.inj h]
  · rw [hsettle] at h
    cases dropped with
    | nil => exact absurd h (by simp [Settlement.flaw?])
    | cons top others => rw [← Option.some.inj h]

/-- A closer opens nothing. -/
theorem closeBracket_subset (kind : Bracket) (column : Nat) (stack : List Opener) :
    (closeBracket kind column stack).2 ⊆ stack := by
  rcases closeBracket_cases kind column stack with
    ⟨-, -, hstack⟩ | ⟨dropped, _, below, rfl, -, -, hstack⟩
  · rw [hstack]
    exact List.Subset.refl stack
  · rw [hstack]
    exact fun opener hmem => List.mem_append_right dropped (List.mem_cons_of_mem _ hmem)

/-- A flaw of the brackets stands at an opener that was open before, or on the glyphs. -/
theorem onGlyphs_of_mem_bracketsFrom {column : Nat} {stack : List Opener} {gs : List Glyph}
    {flaw : Flaw} (h : flaw ∈ bracketsFrom column stack gs) :
    flaw.column ∈ stack.map Prod.snd ∨ OnGlyphs column gs flaw.column := by
  induction gs generalizing column stack with
  | nil =>
      obtain ⟨opener, hopener, rfl⟩ := List.mem_map.mp h
      exact Or.inl (List.mem_map_of_mem (List.mem_reverse.mp hopener))
  | cons g rest ih =>
      cases g using Glyph.mark_cases with
      | none hmark =>
          rw [bracketsFrom_cons_of_none hmark] at h
          exact (ih h).imp_right (.tail g)
      | opening kind hmark =>
          rw [bracketsFrom_cons_of_opening hmark] at h
          rcases ih h with hopen | hrest
          · rcases List.mem_cons.mp hopen with hhere | hbefore
            · rw [hhere]
              exact Or.inr (.head _ _ _)
            · exact Or.inl hbefore
          · exact Or.inr (hrest.tail g)
      | closing kind hmark =>
          rw [bracketsFrom_cons_of_closing hmark] at h
          rcases List.mem_append.mp h with hhere | hlater
          · rw [column_of_mem_closeBracket hhere]
            exact Or.inr (.head _ _ _)
          · have hsub := List.map_subset Prod.snd (closeBracket_subset kind column stack)
            exact (ih hlater).imp (fun hopen => hsub hopen) (.tail g)

/-- A flaw of a bracket stands on the glyphs. -/
theorem onGlyphs_of_mem_brackets {gs : List Glyph} {flaw : Flaw} (h : flaw ∈ brackets gs) :
    OnGlyphs 1 gs flaw.column :=
  (onGlyphs_of_mem_bracketsFrom h).resolve_left (by simp)

/-- A flaw of a string stands on the glyphs. -/
theorem onGlyphs_of_mem_string {gs : List Glyph} {flaw : Flaw} (h : flaw ∈ string gs) :
    OnGlyphs 1 gs flaw.column := by
  rw [string, Option.mem_toList, Option.map_eq_some_iff] at h
  obtain ⟨column, hcolumn, rfl⟩ := h
  exact (Line.onGlyphs_of_openLiteralFrom hcolumn).resolve_left (by simp)

/-- A flaw found in the catalogue stands where the call starts. -/
theorem column_of_mem_catalogued {dialect : Dialect} {strict : Bool} {call : Call} {flaw : Flaw}
    (h : flaw ∈ catalogued dialect strict call) : flaw.column = call.column := by
  simp only [catalogued] at h
  split at h
  all_goals
    rw [List.mem_ite_nil_right, List.mem_singleton] at h
    rw [h.2]

/-- A flaw of a call stands on the glyphs. -/
theorem onGlyphs_of_mem_calls {dialect : Option Dialect} {strict : Bool} {gs : List Glyph}
    {flaw : Flaw} (h : flaw ∈ calls dialect strict gs) : OnGlyphs 1 gs flaw.column := by
  rw [calls, List.mem_flatMap] at h
  obtain ⟨call, hmem, hcall⟩ := h
  rcases List.mem_append.mp hcall with hspaced | hcatalogued
  · rw [List.mem_ite_nil_right, List.mem_singleton] at hspaced
    have hlt := (Line.callOn_of_mem_calls hmem).space_lt hspaced.1
    rw [hspaced.2]
    show 1 ≤ call.openIndex + 2 ∧ call.openIndex + 2 < 1 + gs.length
    omega
  · obtain ⟨d, -, hd⟩ := List.mem_flatMap.mp hcatalogued
    rw [column_of_mem_catalogued hd]
    exact Line.onGlyphs_of_mem_calls hmem

/-- The name of an attribute is not empty, so there is a character after the ampersand. -/
theorem column_of_mem_attributeName {limit : Nat} {line : List Char} {flaw : Flaw}
    (h : flaw ∈ attributeName limit line) : 1 ≤ flaw.column ∧ flaw.column ≤ line.length := by
  simp only [attributeName] at h
  split at h
  · rename_i rest hrest
    split at h
    · exact absurd h List.not_mem_nil
    · rename_i hname
      have hcolumn : flaw.column = line.length - (rest.length + 1) + 2 := by
        simp only [List.mem_append, List.mem_ite_nil_left, List.mem_ite_nil_right,
          List.mem_singleton] at h
        rcases h with ⟨-, rfl⟩ | ⟨-, rfl⟩ <;> rfl
      have hpos : 0 < rest.length := by
        rw [List.length_pos_iff]
        rintro rfl
        exact hname rfl
      have hle : rest.length + 1 ≤ line.length := by
        have hsub := (List.dropWhile_sublist (l := line) Text.isBlank).length_le
        rwa [← Text.trimStart, hrest, List.length_cons] at hsub
      omega
  · exact absurd h List.not_mem_nil

/-- A flaw of a reference stands on the glyphs. -/
theorem onGlyphs_of_mem_references {limit : Nat} {gs : List Glyph} {flaw : Flaw}
    (h : flaw ∈ references limit gs) : OnGlyphs 1 gs flaw.column := by
  rw [references, List.mem_flatMap] at h
  obtain ⟨sub, hmem, hflaw⟩ := h
  have hcolumn : flaw.column = sub.column := by
    simp only [reference] at hflaw
    split at hflaw
    · rw [List.mem_ite_nil_right, List.mem_singleton] at hflaw
      rw [hflaw.2]
    · rw [List.mem_ite_nil_right, List.mem_singleton] at hflaw
      rw [hflaw.2]
    · exact absurd hflaw List.not_mem_nil
  rw [hcolumn]
  exact Line.onGlyphs_of_mem_substitutionsFrom hmem

/-- A trailing semicolon stands on the glyphs. -/
theorem onGlyphs_of_trailingSemicolon? {gs : List Glyph} {column : Nat}
    (h : trailingSemicolon? gs = some column) : OnGlyphs 1 gs column := by
  rw [trailingSemicolon?, Option.ite_none_right_eq_some] at h
  obtain ⟨hlast, hcolumn⟩ := h
  have hsub := (List.dropWhile_sublist (l := gs.reverse) (Text.isBlank ·.char)).length_le
  have hpos : 0 < (gs.reverse.dropWhile (Text.isBlank ·.char)).length := by
    rw [List.length_pos_iff]
    intro hnil
    rw [hnil] at hlast
    exact absurd hlast (by simp)
  rw [← Option.some.inj hcolumn, OnGlyphs, List.length_reverse]
  rw [List.length_reverse] at hsub
  omega

/-- A flaw of a command stands on the glyphs. -/
theorem onGlyphs_of_mem_command {limit : Nat} {gs : List Glyph} {flaw : Flaw}
    (h : flaw ∈ command limit gs) : OnGlyphs 1 gs flaw.column := by
  simp only [command] at h
  split at h
  · split at h
    · exact absurd h List.not_mem_nil
    · rename_i found hfound
      rcases List.mem_append.mp h with hlong | hsemicolon
      · rw [List.mem_ite_nil_right, List.mem_singleton] at hlong
        rw [hlong.2]
        exact Line.onGlyphs_of_mem_commands (List.mem_of_find?_eq_some hfound)
      · rw [Option.mem_toList, Option.map_eq_some_iff] at hsemicolon
        obtain ⟨column, hcolumn, rfl⟩ := hsemicolon
        exact onGlyphs_of_trailingSemicolon? hcolumn
  · exact absurd h List.not_mem_nil

/-- The first character that is too much is on the line. -/
theorem column_of_mem_length {limit : Nat} {line : List Char} {flaw : Flaw}
    (h : flaw ∈ length limit line) : 1 ≤ flaw.column ∧ flaw.column ≤ line.length := by
  rw [length, List.mem_ite_nil_left, List.mem_singleton] at h
  rw [h.2]
  show 1 ≤ limit + 1 ∧ limit + 1 ≤ line.length
  omega

/-- Every flaw of a line stands on one of its characters. -/
theorem column_of_mem_flaws {c : Context} {line : List Char} {flaw : Flaw}
    (h : flaw ∈ flaws c line) : 1 ≤ flaw.column ∧ flaw.column ≤ line.length := by
  simp only [flaws, List.mem_append, List.mem_ite_nil_right] at h
  rcases h with ((((((h | h) | h) | h) | h) | h) | h) | h
  · exact onGlyphs_glyphs_iff.mp (onGlyphs_of_mem_charactersFrom h)
  · exact onGlyphs_glyphs_iff.mp (onGlyphs_of_mem_brackets h)
  · exact onGlyphs_glyphs_iff.mp (onGlyphs_of_mem_string h)
  · exact onGlyphs_glyphs_iff.mp (onGlyphs_of_mem_calls h)
  · exact column_of_mem_attributeName h
  · exact onGlyphs_glyphs_iff.mp (onGlyphs_of_mem_references h)
  · exact onGlyphs_glyphs_iff.mp (onGlyphs_of_mem_command h)
  · exact column_of_mem_length h.2

end LineCheck

/-! ## Columns of tips -/

namespace Practice

/-- The first use of a function or command stands on the glyphs. -/
theorem onGlyphs_of_firstColumn? {functions commands : List String} {gs : List Glyph}
    {column : Nat} (h : firstColumn? functions commands gs = some column) :
    OnGlyphs 1 gs column := by
  rw [firstColumn?, Option.or_eq_some_iff] at h
  rcases h with hcall | ⟨-, hcommand⟩
  · obtain ⟨call, hfound, rfl⟩ := Option.map_eq_some_iff.mp hcall
    exact Line.onGlyphs_of_mem_calls (List.mem_of_find?_eq_some hfound)
  · obtain ⟨command, hfound, rfl⟩ := Option.map_eq_some_iff.mp hcommand
    exact Line.onGlyphs_of_mem_commands (List.mem_of_find?_eq_some hfound)

/-- An iteration starts on the glyphs. -/
theorem onGlyphs_of_mem_iterations {gs : List Glyph} {reach : Reach}
    (h : reach ∈ iterations gs) : OnGlyphs 1 gs reach.column := by
  rcases List.mem_append.mp h with hcall | hcommand
  · obtain ⟨call, hmem, rfl⟩ := List.mem_map.mp hcall
    exact Line.onGlyphs_of_mem_calls (List.mem_filter.mp hmem).1
  · obtain ⟨command, hmem, rfl⟩ := List.mem_map.mp hcommand
    exact Line.onGlyphs_of_mem_commands (List.mem_filter.mp hmem).1

/-- A tip on performance stands on its line. -/
theorem onGlyphs_of_mem_performance {line : List Char} {tip : Tip}
    (h : tip ∈ performance line) : OnGlyphs 1 (Line.glyphs line) tip.column := by
  rcases List.mem_append.mp h with hrepeated | hnested
  · obtain ⟨marker, -, hmarker⟩ := List.mem_flatMap.mp hrepeated
    split at hmarker
    · rename_i first second more hfound
      have hsecond : second ∈ (Line.calls (Line.glyphs line)).filter
          fun call => Text.sameName call.name marker := by
        rw [hfound]
        simp
      rw [List.mem_singleton.mp hmarker]
      exact Line.onGlyphs_of_mem_calls (List.mem_filter.mp hsecond).1
    · exact absurd hmarker List.not_mem_nil
  · rw [Option.mem_toList, nestedIteration, Option.map_eq_some_iff] at hnested
    obtain ⟨inner, hinner, rfl⟩ := hnested
    exact onGlyphs_of_mem_iterations (List.mem_of_find?_eq_some hinner)

/-- A numeral stands on the glyphs. -/
theorem onGlyphs_of_mem_numeralsFrom {column : Nat} {before : Option Char} {gs : List Glyph}
    {numeral : Numeral} (h : numeral ∈ numeralsFrom column before gs) :
    OnGlyphs column gs numeral.column := by
  induction gs generalizing column before with
  | nil => exact absurd h List.not_mem_nil
  | cons g rest ih =>
      refine .of_mem_step [⟨column, Line.chars ((g :: rest).takeWhile Glyph.isCodeDigit)⟩] ?_ ih h
      intro hhere
      rw [List.mem_singleton.mp hhere]

/-- An object number stands on the glyphs. -/
theorem onGlyphs_of_mem_objectNumbersFrom {column : Nat} {before : Option Char} {gs : List Glyph}
    {numeral : Numeral} (h : numeral ∈ objectNumbersFrom column before gs) :
    OnGlyphs column gs numeral.column := by
  induction gs generalizing column before with
  | nil => exact absurd h List.not_mem_nil
  | cons g rest ih =>
      refine .of_mem_step [⟨column, Line.chars (rest.takeWhile Glyph.isCodeDigit)⟩] ?_ ih h
      intro hhere
      rw [List.mem_singleton.mp hhere]

/-- The first numerals of each value are some of the numerals, in their order. -/
theorem firstOfValue_sublist (seen : List Nat) (numerals : List Numeral) :
    (firstOfValue seen numerals).Sublist numerals := by
  induction numerals generalizing seen with
  | nil => exact List.Sublist.refl []
  | cons numeral rest ih =>
      rw [firstOfValue]
      split
      · exact (ih _).cons _
      · exact (ih _).cons_cons _

/-- A tip on maintainability stands on its line. -/
theorem onGlyphs_of_mem_maintainability {line : List Char} (hline : line ≠ []) {tip : Tip}
    (h : tip ∈ maintainability line) : OnGlyphs 1 (Line.glyphs line) tip.column := by
  simp only [maintainability, List.mem_append] at h
  rcases h with (hmagic | hmany) | hhardcoded
  · obtain ⟨numeral, hnumeral, rfl⟩ := List.mem_map.mp hmagic
    have hmem := (firstOfValue_sublist _ _).subset hnumeral
    exact onGlyphs_of_mem_numeralsFrom (List.mem_filter.mp hmem).1
  · rw [Option.mem_toList, manyParameters, Option.ite_none_right_eq_some] at hmany
    rw [← Option.some.inj hmany.2]
    exact onGlyphs_one hline
  · obtain ⟨numeral, hnumeral, rfl⟩ := List.mem_map.mp hhardcoded
    exact onGlyphs_of_mem_objectNumbersFrom hnumeral

/-- A tip on readability stands at the first column. -/
theorem column_of_mem_readability {limit : Nat} {line : List Char} {tip : Tip}
    (h : tip ∈ readability limit line) : tip.column = 1 := by
  simp only [readability, List.mem_append, Option.mem_toList, complexExpression, unclearNaming,
    Option.ite_none_right_eq_some] at h
  rcases h with ⟨-, hcomplex⟩ | ⟨-, hunclear⟩
  · rw [← Option.some.inj hcomplex]
  · rw [← Option.some.inj hunclear]

/-- A tip on indentation stands at the first column. -/
theorem column_of_indentation {unit : Nat} {line : List Char} {tip : Tip}
    (h : indentation unit line = some tip) : tip.column = 1 := by
  simp only [indentation] at h
  split at h
  · rw [← Option.some.inj h]
  · rw [Option.ite_none_right_eq_some] at h
    rw [← Option.some.inj h.2]

/-- A tip on a branch without comment stands on its line. -/
theorem onGlyphs_of_branchComment {above : Option (List Char)} {line : List Char} {tip : Tip}
    (h : branchComment above line = some tip) : OnGlyphs 1 (Line.glyphs line) tip.column := by
  simp only [branchComment] at h
  split at h
  · exact absurd h (by simp)
  · rename_i column hcolumn
    rw [Option.ite_none_left_eq_some] at h
    rw [← Option.some.inj h.2]
    exact onGlyphs_of_firstColumn? hcolumn

/-- A tip on style stands on its line. -/
theorem onGlyphs_of_mem_style {unit : Nat} {above : Option (List Char)} {line : List Char}
    (hline : line ≠ []) {tip : Tip} (h : tip ∈ style unit above line) :
    OnGlyphs 1 (Line.glyphs line) tip.column := by
  simp only [style, List.mem_append, Option.mem_toList] at h
  rcases h with hindent | hbranch
  · rw [column_of_indentation hindent]
    exact onGlyphs_one hline
  · exact onGlyphs_of_branchComment hbranch

/-- A tip on hygiene stands on its line. -/
theorem onGlyphs_of_hygiene {line : List Char} {tip : Tip} (h : hygiene line = some tip) :
    OnGlyphs 1 (Line.glyphs line) tip.column := by
  simp only [hygiene] at h
  split at h
  · exact absurd h (by simp)
  · rename_i column hcolumn
    rw [Option.ite_none_right_eq_some] at h
    rw [← Option.some.inj h.2]
    exact onGlyphs_of_firstColumn? hcolumn

end Practice

end Softcode
