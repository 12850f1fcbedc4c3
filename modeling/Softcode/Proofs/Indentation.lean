import Mathlib.Algebra.Order.Floor.Div
import Mathlib.Data.List.Forall2
import Mathlib.Order.Bounds.Basic
import Softcode.Practice.Style
import Softcode.Proofs.AlikeLines
import Softcode.Proofs.LineEdits
import Softcode.Proofs.Nesting

/-!
# Indentation and its fix

The fix for a badly indented line writes its indentation anew, in spaces. It is not reported again,
and it moves the rest of the line without changing what is found there
(`indentation_fix_converges`).

The walks over a line pass its indentation without a finding, since spaces and tabs are code but
neither brackets nor marks (`callsFrom_indent` and the lemmas after it). What a walk finds behind
that does not hang on how far it has come, but for the columns. A call and a command also ask for
the character before them. There the indentation answers as the start of the line does: it binds no
name, and an action may start behind it. So whatever a line is indented by, its calls, commands,
substitutions and brackets are those of the line without indentation, moved by the width of the
indentation (`Line.calls_indent` and the lemmas after it).
-/

namespace Softcode

/-! ## Moving what is found along the line -/

/-- The same call, further to the right. -/
def Call.shift (k : Nat) (call : Call) : Call :=
  { call with column := call.column + k, openIndex := call.openIndex + k }

/-- The same command, further to the right. -/
def Command.shift (k : Nat) (command : Command) : Command :=
  { command with column := command.column + k }

/-- The same substitution, further to the right. -/
def Substitution.shift (k : Nat) (sub : Substitution) : Substitution :=
  { sub with column := sub.column + k }

/-- The same flaw further to the right, together with the bracket that it names. -/
def Flaw.shift (k : Nat) (flaw : Flaw) : Flaw where
  column := flaw.column + k
  defect := match flaw.defect with
    | .mismatchedCloser kind top column => .mismatchedCloser kind top (column + k)
    | defect => defect

/-- Moving a flaw keeps its code. -/
theorem Flaw.code_shift (k : Nat) (flaw : Flaw) :
    (flaw.shift k).defect.code = flaw.defect.code := by
  obtain ⟨column, defect⟩ := flaw
  cases defect <;> rfl

namespace Line

/-- A call that is found further on is the same call further on. -/
theorem callOf?_shift {word : List Char} {index : Nat} (h : word.length ≤ index)
    (before : Option Char) (spaced : Bool) (k : Nat) :
    callOf? word before (index + k) spaced
      = (callOf? word before index spaced).map (Call.shift k) := by
  have hcolumn : index + k - word.length + 1 = index - word.length + 1 + k := by omega
  simp only [callOf?, hcolumn]
  split <;> rfl

/-- Commands that are found further on are the same commands further on. -/
theorem commandsFrom_shift {before before' : Option Char}
    (h : before.all startsAction = before'.all startsAction) (column k : Nat) (gs : List Glyph) :
    commandsFrom (column + k) before gs
      = (commandsFrom column before' gs).map (Command.shift k) := by
  induction gs generalizing column before before' with
  | nil => rfl
  | cons g rest ih =>
      have hmore : commandsFrom (column + 1 + k) (some g.char) rest
          = (commandsFrom (column + 1) (some g.char) rest).map (Command.shift k) := ih rfl _
      have hcommand : commandAt? (column + k) before rest
          = (commandAt? column before' rest).map (Command.shift k) := by
        simp only [commandAt?, h]
        split <;> rfl
      rw [Nat.add_right_comm] at hmore
      simp only [commandsFrom, hmore, hcommand]
      split
      · rw [List.map_append, Option.toList_map]
      · rfl

/-- Substitutions that are found further on are the same substitutions further on. -/
theorem substitutionsFrom_shift (column k skip : Nat) (gs : List Glyph) :
    substitutionsFrom (column + k) skip gs
      = (substitutionsFrom column skip gs).map (Substitution.shift k) := by
  induction gs generalizing column skip with
  | nil => rfl
  | cons g rest ih =>
      have hmore := fun skip => ih (column + 1) skip
      simp only [Nat.add_right_comm column 1 k] at hmore
      cases skip with
      | succ n => exact hmore n
      | zero =>
          simp only [substitutionsFrom, hmore]
          split
          · rw [List.map_append, ← Option.toList_map, Option.map_map]
            rfl
          · rfl

end Line

namespace LineCheck

/-- The same opener, further to the right. -/
def Opener.shift (k : Nat) (opener : Opener) : Opener := (opener.1, opener.2 + k)

/-- Closing a bracket further to the right, on a stack that is moved as far, moves the flaws. -/
theorem closeBracket_shift (kind : Bracket) (column k : Nat) (stack : List Opener) :
    closeBracket kind (column + k) (stack.map (Opener.shift k))
      = ((closeBracket kind column stack).1.map (Flaw.shift k),
        (closeBracket kind column stack).2.map (Opener.shift k)) := by
  have hdrop : (stack.map (Opener.shift k)).dropWhile (·.1 != kind)
      = (stack.dropWhile (·.1 != kind)).map (Opener.shift k) := List.dropWhile_map
  cases hbelow : stack.dropWhile (·.1 != kind) with
  | nil =>
      rw [hbelow] at hdrop
      simp only [closeBracket, hdrop, hbelow, List.map_nil]
      rfl
  | cons opener below =>
      obtain - | ⟨top, rest⟩ := stack
      · exact absurd hbelow (by simp)
      · rw [hbelow] at hdrop
        simp only [List.map_cons] at hdrop ⊢
        simp only [closeBracket, hdrop, hbelow]
        by_cases htop : top.1 = kind
        · simp [Opener.shift, htop]
        · simp [Opener.shift, htop, Flaw.shift]

/-- The bracket check further on finds the same flaws further on. -/
theorem bracketsFrom_shift (column k : Nat) (stack : List Opener) (gs : List Glyph) :
    bracketsFrom (column + k) (stack.map (Opener.shift k)) gs
      = (bracketsFrom column stack gs).map (Flaw.shift k) := by
  induction gs generalizing column stack with
  | nil =>
      simp only [bracketsFrom, ← List.map_reverse, List.map_map]
      rfl
  | cons g gs ih =>
      cases g using Glyph.mark_cases with
      | none hmark =>
          rw [bracketsFrom_cons_of_none hmark, bracketsFrom_cons_of_none hmark, ← ih,
            Nat.add_right_comm]
      | opening kind hmark =>
          rw [bracketsFrom_cons_of_opening hmark, bracketsFrom_cons_of_opening hmark, ← ih,
            Nat.add_right_comm]
          rfl
      | closing kind hmark =>
          rw [bracketsFrom_cons_of_closing hmark, bracketsFrom_cons_of_closing hmark,
            closeBracket_shift, List.map_append, ← ih, Nat.add_right_comm]

end LineCheck

/-! ## Behind an indentation -/

namespace Practice

/-- A space or a tab is code, and no walk stops at it. -/
structure Unremarkable (c : Char) : Prop where
  plain : c ≠ '\\' ∧ c ≠ '"'
  not_word : Text.isWordChar c = false
  not_binding : bindsName c = false
  starts : startsAction c = true
  not_bracket : Bracket.ofOpen? c = none ∧ Bracket.ofClose? c = none
  not_char : ∀ mark ∈ ['(', '@', '%'], c ≠ mark

/-- A line is indented with spaces and tabs. -/
theorem eq_of_isIndent {c : Char} (h : isIndent c = true) : c = ' ' ∨ c = '\t' := by
  simpa [isIndent] using h

/-- Spaces and tabs mean nothing to the walks over a line. -/
theorem unremarkable_of_isIndent {c : Char} (h : isIndent c = true) : Unremarkable c := by
  rcases eq_of_isIndent h with rfl | rfl
  · exact ⟨by decide, by decide, by decide, by decide, by decide, by simp⟩
  · exact ⟨by decide, by decide, by decide, by decide, by decide, by simp⟩

/-- No space or tab is a mark that a walk looks for. -/
theorem isCodeChar_of_isIndent {c mark : Char} (h : isIndent c = true)
    (hmark : mark ∈ ['(', '@', '%']) : (⟨c, .code⟩ : Glyph).isCodeChar mark = false := by
  have hne := (unremarkable_of_isIndent h).not_char mark hmark
  simpa [Glyph.isCodeChar, Glyph.isCode] using hne

end Practice

namespace Line

open Practice (isIndent unremarkable_of_isIndent isCodeChar_of_isIndent)

variable {indent : List Char}

/-- An indentation is code, and the walk behind it is as at the start of a line. -/
theorem glyphs_indent (h : ∀ c ∈ indent, isIndent c = true) (rest : List Char) :
    glyphs (indent ++ rest) = asCode indent ++ glyphs rest :=
  glyphs_append_of_plain (fun c hc => (unremarkable_of_isIndent (h c hc)).plain) rest

/-- There is no call in an indentation. -/
theorem callsFrom_indent (h : ∀ c ∈ indent, isIndent c = true) (past gs : List Glyph) :
    callsFrom past (asCode indent ++ gs) = callsFrom (asCode indent.reverse ++ past) gs := by
  induction indent generalizing past with
  | nil => rfl
  | cons c indent ih =>
      obtain ⟨hc, hrest⟩ := List.forall_mem_cons.mp h
      rw [asCode_cons, List.cons_append, callsFrom, isCodeChar_of_isIndent hc (by simp)]
      simp only [Bool.false_eq_true, if_false]
      rw [ih hrest, List.reverse_cons, asCode_append, List.append_assoc]
      rfl

/-- There is no command in an indentation, and behind it an action may start as before it. -/
theorem commandsFrom_indent (h : ∀ c ∈ indent, isIndent c = true) (column : Nat)
    {before : Option Char} (hbefore : before.all startsAction = true) (gs : List Glyph) :
    ∃ before' : Option Char, before'.all startsAction = true
      ∧ commandsFrom column before (asCode indent ++ gs)
        = commandsFrom (column + indent.length) before' gs := by
  induction indent generalizing column before with
  | nil => exact ⟨before, hbefore, rfl⟩
  | cons c indent ih =>
      obtain ⟨hc, hrest⟩ := List.forall_mem_cons.mp h
      have hstarts : (some c).all startsAction = true := (unremarkable_of_isIndent hc).starts
      obtain ⟨before', hbefore', hcommands⟩ := ih hrest (column + 1) hstarts
      refine ⟨before', hbefore', ?_⟩
      rw [asCode_cons, List.cons_append, commandsFrom, isCodeChar_of_isIndent hc (by simp)]
      simp only [Bool.false_eq_true, if_false]
      rw [hcommands, List.length_cons, Nat.add_assoc, Nat.add_comm 1]

/-- There is no substitution in an indentation. -/
theorem substitutionsFrom_indent (h : ∀ c ∈ indent, isIndent c = true) (column : Nat)
    (gs : List Glyph) :
    substitutionsFrom column 0 (asCode indent ++ gs)
      = substitutionsFrom (column + indent.length) 0 gs := by
  induction indent generalizing column with
  | nil => rfl
  | cons c indent ih =>
      obtain ⟨hc, hrest⟩ := List.forall_mem_cons.mp h
      rw [asCode_cons, List.cons_append, substitutionsFrom, isCodeChar_of_isIndent hc (by simp)]
      simp only [Bool.false_eq_true, if_false]
      rw [ih hrest, List.length_cons, Nat.add_assoc, Nat.add_comm 1]

/-- A name does not reach back into an indentation. -/
theorem takeWhile_isCodeWord_indent (h : ∀ c ∈ indent, isIndent c = true) (past : List Glyph) :
    (past ++ asCode indent).takeWhile Glyph.isCodeWord = past.takeWhile Glyph.isCodeWord := by
  have hnone : (asCode indent).takeWhile Glyph.isCodeWord = [] := by
    cases indent with
    | nil => rfl
    | cons c indent =>
        have hword := (unremarkable_of_isIndent (h c List.mem_cons_self)).not_word
        exact List.takeWhile_cons_of_neg (by simp [Glyph.isCodeWord, Glyph.isWord, hword])
  rw [List.takeWhile_append, hnone, List.append_nil]
  split
  · rename_i hall
    exact ((List.takeWhile_prefix _).eq_of_length hall).symm
  · rfl

/-- No character of an indentation makes the word behind it a name of another kind. -/
theorem charBefore_indent (h : ∀ c ∈ indent, isIndent c = true) (past : List Glyph) :
    (charBefore (past ++ asCode indent)).any bindsName = (charBefore past).any bindsName := by
  have hle : (past.takeWhile Glyph.isCodeWord).length ≤ past.length :=
    (List.takeWhile_prefix _).length_le
  rw [charBefore, charBefore, takeWhile_isCodeWord_indent h, List.drop_append_of_le_length hle,
    List.head?_append]
  cases (past.drop (past.takeWhile Glyph.isCodeWord).length).head? with
  | some g => rfl
  | none =>
      cases indent with
      | nil => rfl
      | cons c indent => exact (unremarkable_of_isIndent (h c List.mem_cons_self)).not_binding

/-- To a `(`, an indentation in front of everything is the start of the line. -/
theorem callAt?_indent (h : ∀ c ∈ indent, isIndent c = true) (past rest : List Glyph) :
    callAt? (past ++ asCode indent) rest
      = (callAt? past rest).map (Call.shift indent.length) := by
  have hle : (chars (past.takeWhile Glyph.isCodeWord)).length ≤ past.length := by
    rw [chars, List.length_map]
    exact (List.takeWhile_prefix _).length_le
  rw [callAt?_eq_callOf?, callAt?_eq_callOf?, takeWhile_isCodeWord_indent h, List.length_append,
    length_asCode, ← callOf?_shift hle]
  simp only [callOf?, charBefore_indent h]

/-- Behind an indentation the same calls are found, moved by its length. -/
theorem callsFrom_shift (h : ∀ c ∈ indent, isIndent c = true) (past gs : List Glyph) :
    callsFrom (past ++ asCode indent) gs
      = (callsFrom past gs).map (Call.shift indent.length) := by
  induction gs generalizing past with
  | nil => rfl
  | cons g rest ih =>
      have hmore := ih (g :: past)
      rw [List.cons_append] at hmore
      simp only [callsFrom, hmore, callAt?_indent h]
      split
      · rw [List.map_append, Option.toList_map]
      · rfl

/-! ## The line without its indentation -/

/-- The calls of an indented line are those of the line without its indentation, moved by its
length. -/
theorem calls_indent (h : ∀ c ∈ indent, isIndent c = true) (rest : List Char) :
    calls (glyphs (indent ++ rest)) = (calls (glyphs rest)).map (Call.shift indent.length) := by
  have hreverse : ∀ c ∈ indent.reverse, isIndent c = true := fun c hc =>
    h c (List.mem_reverse.mp hc)
  have hshift := callsFrom_shift hreverse [] (glyphs rest)
  rw [List.nil_append, List.length_reverse] at hshift
  rw [calls, glyphs_indent h, callsFrom_indent h, List.append_nil, hshift, calls]

/-- The commands of an indented line are those of the line without it, moved by its length. -/
theorem commands_indent (h : ∀ c ∈ indent, isIndent c = true) (rest : List Char) :
    commands (glyphs (indent ++ rest))
      = (commands (glyphs rest)).map (Command.shift indent.length) := by
  have hnone : Option.all startsAction none = true := rfl
  obtain ⟨before, hbefore, hcommands⟩ := commandsFrom_indent h 1 hnone (glyphs rest)
  rw [commands, glyphs_indent h, hcommands, commandsFrom_shift (hbefore.trans hnone.symm),
    commands]

/-- The substitutions of an indented line are those of the line without it, moved by its length. -/
theorem substitutions_indent (h : ∀ c ∈ indent, isIndent c = true) (rest : List Char) :
    substitutions (glyphs (indent ++ rest))
      = (substitutions (glyphs rest)).map (Substitution.shift indent.length) := by
  rw [substitutions, glyphs_indent h, substitutionsFrom_indent h, substitutionsFrom_shift,
    substitutions]

end Line

namespace LineCheck

open Practice (isIndent unremarkable_of_isIndent)

/-- An indentation has no brackets. -/
theorem bracketsFrom_indent {indent : List Char} (h : ∀ c ∈ indent, isIndent c = true)
    (column : Nat) (stack : List Opener) (gs : List Glyph) :
    bracketsFrom column stack (Line.asCode indent ++ gs)
      = bracketsFrom (column + indent.length) stack gs := by
  induction indent generalizing column with
  | nil => rfl
  | cons c indent ih =>
      obtain ⟨hc, hrest⟩ := List.forall_mem_cons.mp h
      have hmark : (⟨c, .code⟩ : Glyph).mark? = none :=
        (Glyph.mark?_eq_none_iff _).mpr (unremarkable_of_isIndent hc).not_bracket
      rw [Line.asCode_cons, List.cons_append, bracketsFrom_cons_of_none hmark, ih hrest,
        List.length_cons, Nat.add_assoc, Nat.add_comm 1]

/-- The bracket flaws of an indented line are those of the line without it, moved by its length. -/
theorem brackets_indent {indent : List Char} (h : ∀ c ∈ indent, isIndent c = true)
    (rest : List Char) :
    brackets (Line.glyphs (indent ++ rest))
      = (brackets (Line.glyphs rest)).map (Flaw.shift indent.length) := by
  rw [brackets, Line.glyphs_indent h, bracketsFrom_indent h]
  exact bracketsFrom_shift 1 indent.length [] (Line.glyphs rest)

end LineCheck

/-! ## The fix -/

/-- The same call, with its places moved by some columns to the right or, if negative, to the left.
-/
structure Call.MovedBy (δ : Int) (call moved : Call) : Prop where
  name : moved.name = call.name
  spaced : moved.spaced = call.spaced
  column : (moved.column : Int) = call.column + δ
  openIndex : (moved.openIndex : Int) = call.openIndex + δ

/-- What is found on the one line is found on the other, with every place moved alike: the calls,
the commands, the substitutions, and what is wrong with the brackets. -/
structure Line.MovedBy (δ : Int) (line moved : List Char) : Prop where
  calls : List.Forall₂ (Call.MovedBy δ) (calls (glyphs line)) (calls (glyphs moved))
  commands : List.Forall₂ (fun a b => b.name = a.name ∧ (b.column : Int) = a.column + δ)
    (commands (glyphs line)) (commands (glyphs moved))
  substitutions : List.Forall₂
    (fun a b => b.reference = a.reference ∧ (b.column : Int) = a.column + δ)
    (substitutions (glyphs line)) (substitutions (glyphs moved))
  brackets : List.Forall₂
    (fun a b => b.defect.code = a.defect.code ∧ (b.column : Int) = a.column + δ)
    (LineCheck.brackets (glyphs line)) (LineCheck.brackets (glyphs moved))

/-- Two views of a list that agree item by item. -/
theorem forall₂_map_map {α β γ : Type} {R : β → γ → Prop} {f : α → β} {g : α → γ}
    (h : ∀ a, R (f a) (g a)) (as : List α) : List.Forall₂ R (as.map f) (as.map g) := by
  rw [List.forall₂_map_left_iff, List.forall₂_map_right_iff, List.forall₂_same]
  exact fun a _ => h a

namespace Practice

variable {indent indent' : List Char}

/-- Another indentation only moves the line. -/
theorem movedBy_of_indents (h : ∀ c ∈ indent, isIndent c = true)
    (h' : ∀ c ∈ indent', isIndent c = true) (rest : List Char) :
    Line.MovedBy ((indent'.length : Int) - indent.length) (indent ++ rest) (indent' ++ rest) := by
  constructor
  · rw [Line.calls_indent h, Line.calls_indent h']
    refine forall₂_map_map (fun call => ⟨rfl, rfl, ?_, ?_⟩) _
    · simp only [Call.shift]
      omega
    · simp only [Call.shift]
      omega
  · rw [Line.commands_indent h, Line.commands_indent h']
    refine forall₂_map_map (fun command => ⟨rfl, ?_⟩) _
    simp only [Command.shift]
    omega
  · rw [Line.substitutions_indent h, Line.substitutions_indent h']
    refine forall₂_map_map (fun sub => ⟨rfl, ?_⟩) _
    simp only [Substitution.shift]
    omega
  · rw [LineCheck.brackets_indent h, LineCheck.brackets_indent h']
    refine forall₂_map_map (fun flaw => ⟨?_, ?_⟩) _
    · rw [Flaw.code_shift, Flaw.code_shift]
    · simp only [Flaw.shift]
      omega

/-- Rounding up gives the least multiple of a positive unit that is not less. -/
theorem isLeast_roundUp {unit : Nat} (hunit : 0 < unit) (width : Nat) :
    IsLeast {n | unit ∣ n ∧ width ≤ n} (roundUp width unit) := by
  have hround : roundUp width unit = width ⌈/⌉ unit * unit := by
    rw [roundUp, if_neg hunit.ne', Nat.ceilDiv_eq_add_pred_div]
  rw [hround]
  refine ⟨⟨Nat.dvd_mul_left _ _, ?_⟩, ?_⟩
  · rw [Nat.mul_comm]
    exact le_smul_ceilDiv hunit
  · rintro n ⟨⟨k, rfl⟩, hle⟩
    rw [Nat.mul_comm unit k]
    exact Nat.mul_le_mul_right _ ((ceilDiv_le_iff_le_mul hunit).mpr hle)

/-- The width of a fix is the least multiple of the unit that takes all spaces and tabs. -/
theorem isLeast_indentWidth {unit : Nat} (hunit : 0 < unit) (spaces tabs : Nat) :
    IsLeast {n | unit ∣ n ∧ spaces + tabs * unit ≤ n} (indentWidth unit spaces tabs) := by
  rw [indentWidth, Nat.max_eq_left hunit]
  exact isLeast_roundUp hunit _

/-- Without a unit, a tab counts as one space. -/
theorem indentWidth_zero (spaces tabs : Nat) : indentWidth 0 spaces tabs = spaces + tabs := by
  rw [indentWidth, roundUp, if_pos rfl, Nat.zero_max, Nat.mul_one]

/-- Spaces are an indentation. -/
theorem isIndent_of_mem_replicate (n : Nat) : ∀ c ∈ List.replicate n ' ', isIndent c = true := by
  intro c hc
  rw [List.eq_of_mem_replicate hc]
  decide

/-- Spaces in whole units are not reported, whatever follows them. -/
theorem indentation_replicate {unit n : Nat} (hn : 0 < unit → unit ∣ n) {rest : List Char}
    (hrest : rest.takeWhile isIndent = []) :
    indentation unit (List.replicate n ' ' ++ rest) = none := by
  have hindent : (List.replicate n ' ' ++ rest).takeWhile isIndent = List.replicate n ' ' := by
    rw [List.takeWhile_append_of_pos (isIndent_of_mem_replicate n), hrest, List.append_nil]
  have htabs : (List.replicate n ' ').countP (· == '\t') = 0 := by
    simp [List.countP_replicate]
  have haligned : ¬ (0 < unit ∧ n % unit ≠ 0) := by
    rintro ⟨hunit, hmod⟩
    exact hmod (Nat.mod_eq_zero_of_dvd (hn hunit))
  simp only [indentation, hindent, htabs, List.length_replicate, Nat.sub_zero]
  rw [if_neg (by omega), if_neg (by simpa using haligned)]

/-- An indentation is made of its spaces and its tabs. -/
theorem length_eq_count_add_count (h : ∀ c ∈ indent, isIndent c = true) :
    indent.length = indent.count ' ' + indent.count '\t' := by
  induction indent with
  | nil => rfl
  | cons c indent ih =>
      obtain ⟨hc, hrest⟩ := List.forall_mem_cons.mp h
      rw [List.length_cons, ih hrest]
      rcases eq_of_isIndent hc with rfl | rfl
      · simp
        omega
      · simp
        omega

/-- What is reported is the line, and the fix has its indentation written anew. -/
theorem before_after_of_indentation {unit : Nat} {line : List Char} {tip : Tip}
    (h : indentation unit line = some tip) :
    tip.before = line
      ∧ tip.after = List.replicate (indentWidth unit ((line.takeWhile isIndent).count ' ')
          ((line.takeWhile isIndent).count '\t')) ' ' ++ line.dropWhile isIndent := by
  have hspaces : (line.takeWhile isIndent).length - (line.takeWhile isIndent).countP (· == '\t')
      = (line.takeWhile isIndent).count ' ' := by
    rw [length_eq_count_add_count fun c hc => List.mem_takeWhile_imp hc]
    exact Nat.add_sub_cancel _ _
  simp only [indentation, hspaces] at h
  split at h
  · obtain rfl := Option.some.inj h
    exact ⟨rfl, rfl⟩
  · split at h
    · obtain rfl := Option.some.inj h
      exact ⟨rfl, rfl⟩
    · exact absurd h (by simp)

/-- **The fix of an indentation converges and moves the line.** The fixed line is the reported one
with spaces in the place of its leading spaces and tabs. Their number is the least multiple of the
unit that is not below the width of the indentation, where a tab counts as a unit; without a unit
each character counts once. The fixed line is not reported again. Its calls, commands, substitutions
and the flaws of its brackets are those of the reported line, all of them moved alike. -/
theorem indentation_fix_converges {unit : Nat} {line : List Char} {tip : Tip}
    (h : indentation unit line = some tip) :
    let indent := line.takeWhile isIndent
    tip.before = line ∧ ∃ n, tip.after = List.replicate n ' ' ++ line.dropWhile isIndent
      ∧ (0 < unit → IsLeast {m | unit ∣ m ∧ indent.count ' ' + indent.count '\t' * unit ≤ m} n)
      ∧ (unit = 0 → n = indent.count ' ' + indent.count '\t')
      ∧ indentation unit tip.after = none
      ∧ Line.MovedBy ((n : Int) - indent.length) line tip.after := by
  intro indent
  obtain ⟨hbefore, hafter⟩ := before_after_of_indentation h
  have hline : indent ++ line.dropWhile isIndent = line := List.takeWhile_append_dropWhile
  have hrest : (line.dropWhile isIndent).takeWhile isIndent = [] := by
    cases hdrop : line.dropWhile isIndent with
    | nil => rfl
    | cons c rest =>
        have hnot := List.head?_dropWhile_not isIndent line
        rw [hdrop] at hnot
        exact List.takeWhile_cons_of_neg (by simpa using hnot)
  refine ⟨hbefore, _, hafter, fun hunit => isLeast_indentWidth hunit _ _, ?_, ?_, ?_⟩
  · rintro rfl
    exact indentWidth_zero _ _
  · rw [hafter]
    exact indentation_replicate (fun hunit => (isLeast_indentWidth hunit _ _).1.1) hrest
  · have hmoved (n : Nat) :=
      movedBy_of_indents (fun c (hc : c ∈ indent) => List.mem_takeWhile_imp hc)
        (isIndent_of_mem_replicate n) (line.dropWhile isIndent)
    simp only [hline, List.length_replicate] at hmoved
    rw [hafter]
    exact hmoved _

/-- A tab and a space before a command, in units of four, become eight spaces. The command moves by
six columns, and so does everything behind it. -/
theorem indentation_fix_converges_mixed :
    let line := "\t @emit [add(%0,1)".toList
    ∃ tip, indentation 4 line = some tip
      ∧ tip.after = "        @emit [add(%0,1)".toList
      ∧ indentation 4 tip.after = none
      ∧ (Line.calls (Line.glyphs line)).map (·.column) = [10]
      ∧ (LineCheck.brackets (Line.glyphs line)).map (·.column) = [9]
      ∧ Line.MovedBy 6 line tip.after := by
  intro line
  have htip : indentation 4 line
      = some ⟨1, .mixedIndentation, line, "        @emit [add(%0,1)".toList⟩ := by decide
  obtain ⟨-, n, hafter, -, -, hnone, hmoved⟩ := indentation_fix_converges htip
  have hn : n = 8 := by simpa [line, isIndent] using (congrArg List.length hafter).symm
  subst hn
  exact ⟨_, htip, rfl, hnone, by decide, by decide, hmoved⟩

end Practice

end Softcode
