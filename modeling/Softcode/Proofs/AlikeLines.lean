import Mathlib
import Softcode.Line.Profile
import Softcode.Syntax.LineCheck

/-!
# Lines that read alike

Structure is read off glyphs in the code role. Two lines read alike (`Alike`) when their glyphs have
the same roles and, outside literals, characters that look the same under a view of characters; a
view may forget the case of letters and nothing else (`IsView`). Inside a literal the characters may
be any.

The walks over a line look at more than code: a call asks for the character before its name and the
one after its parenthesis, a command for the character before its `@`, whatever their roles. What
makes this safe is that no character inside a literal stands next to a code character, since a quote
comes between them. `Alike` carries that in its flag, which says whether a literal is open: a pair
of glyphs is hidden only while it is set, and code comes only while it is not.

So each walk finds the same on both lines, up to the view of the names it reads: calls, commands,
substitutions, and brackets in every use. With `id` as the view the results are equal.
-/

namespace Softcode.Text

/-! ## Views of characters -/

/-- A way to look at characters that forgets the case of ASCII letters, or less. -/
def IsView (view : Char → Char) : Prop := ∀ c, (view c).toLower = c.toLower

theorem isView_id : IsView id := fun _ => rfl

theorem isView_toLower : IsView Char.toLower := Char.toLower_toLower_eq_toLower

/-- What is no letter has no other case. -/
theorem toLower_of_isAlpha_eq_false {c : Char} (h : c.isAlpha = false) : c.toLower = c := by
  refine Char.toLower_eq_of_not_isUpper fun hupper => ?_
  rw [Char.isAlpha, hupper] at h
  exact absurd h (by simp)

/-- A question to which all letters give the same answer does not see their case. -/
theorem ask_toLower {α : Type} (answer : α) {ask : Char → α}
    (h : ∀ c : Char, c.isAlpha = true → ask c = answer) (c : Char) : ask c.toLower = ask c := by
  cases halpha : c.isAlpha with
  | false => rw [toLower_of_isAlpha_eq_false halpha]
  | true => rw [h c halpha, h c.toLower (by rw [Char.isAlpha_toLower_eq_isAlpha, halpha])]

/-- The code points of the letters. -/
theorem toNat_of_isAlpha {c : Char} (h : c.isAlpha = true) :
    (65 ≤ c.toNat ∧ c.toNat ≤ 90) ∨ (97 ≤ c.toNat ∧ c.toNat ≤ 122) := by
  simpa [Char.isAlpha, Char.isUpper, Char.isLower, UInt32.le_iff_toNat_le] using h

/-- A character that is no letter is itself in either case. -/
theorem toLower_beq {k : Char} (hk : k.isAlpha = false) (c : Char) :
    (c.toLower == k) = (c == k) := by
  have hletter : ∀ d : Char, d.isAlpha = true → (d == k) = false := by
    intro d hd
    refine beq_eq_false_iff_ne.mpr fun h => ?_
    rw [← h, hd] at hk
    exact absurd hk (by simp)
  exact ask_toLower false hletter c

@[simp] theorem isDigit_toLower (c : Char) : c.toLower.isDigit = c.isDigit := by
  refine ask_toLower false (fun d hd => ?_) c
  have hcode := toNat_of_isAlpha hd
  simp [Char.isDigit, UInt32.le_iff_toNat_le]
  omega

@[simp] theorem isBlank_toLower (c : Char) : isBlank c.toLower = isBlank c := by
  refine ask_toLower false (fun d hd => ?_) c
  have hcode := toNat_of_isAlpha hd
  simp [isBlank]
  omega

@[simp] theorem isAlphanum_toLower (c : Char) : c.toLower.isAlphanum = c.isAlphanum := by
  simp [Char.isAlphanum]

@[simp] theorem isWordChar_toLower (c : Char) : isWordChar c.toLower = isWordChar c := by
  simp [isWordChar, toLower_beq]

@[simp] theorem isWordStart_toLower (c : Char) : isWordStart c.toLower = isWordStart c := by
  simp [isWordStart, toLower_beq]

@[simp] theorem bindsName_toLower (c : Char) : bindsName c.toLower = bindsName c := by
  simp [bindsName, toLower_beq]

@[simp] theorem startsAction_toLower (c : Char) : startsAction c.toLower = startsAction c := by
  simp [startsAction, toLower_beq]

/-- Brackets are no letters. -/
theorem find?_bracket_toLower {char : Bracket → Char} (h : ∀ kind, (char kind).isAlpha = false)
    (c : Char) :
    Bracket.all.find? (char · == c.toLower) = Bracket.all.find? (char · == c) := by
  have hsame : ∀ kind, (char kind == c.toLower) = (char kind == c) := by
    intro kind
    rw [BEq.comm, toLower_beq (h kind), BEq.comm]
  simp only [hsame]

@[simp] theorem ofOpen?_toLower (c : Char) : Bracket.ofOpen? c.toLower = Bracket.ofOpen? c :=
  find?_bracket_toLower (fun kind => by cases kind <;> decide) c

@[simp] theorem ofClose?_toLower (c : Char) : Bracket.ofClose? c.toLower = Bracket.ofClose? c :=
  find?_bracket_toLower (fun kind => by cases kind <;> decide) c

/-- What does not see the case of letters is the same for characters that look the same. -/
theorem IsView.congr {view : Char → Char} (hview : IsView view) {α : Type} {f : Char → α}
    (hf : ∀ c, f c.toLower = f c) {c d : Char} (h : view c = view d) : f c = f d := by
  rw [← hf c, ← hview c, h, hview d, hf d]

/-- A character that is no letter looks like nothing but itself. -/
theorem IsView.beq {view : Char → Char} (hview : IsView view) {k : Char} (hk : k.isAlpha = false)
    {c d : Char} (h : view c = view d) : (c == k) = (d == k) :=
  hview.congr (f := (· == k)) (toLower_beq hk) h

/-- The same for a character that may be missing. -/
theorem IsView.map_eq {view : Char → Char} (hview : IsView view) {α : Type} {f : Char → α}
    (hf : ∀ c, f c.toLower = f c) {o o' : Option Char} (h : o.map view = o'.map view) :
    o.map f = o'.map f := by
  cases o with
  | none =>
      rw [Option.map_none] at h
      rw [Option.map_eq_none_iff.mp h.symm]
  | some c =>
      obtain ⟨d, rfl, hd⟩ := Option.map_eq_some_iff.mp h.symm
      exact congrArg some (hview.congr hf hd.symm)

/-- A test that ignores case cannot tell one view from another. -/
theorem IsView.any_eq {view : Char → Char} (hview : IsView view) {f : Char → Bool}
    (hf : ∀ c, f c.toLower = f c) {o o' : Option Char} (h : o.map view = o'.map view) :
    o.any f = o'.any f := by
  simpa [Option.any_map] using congrArg (Option.any id) (hview.map_eq hf h)

/-- The same of a test that holds where there is no character. -/
theorem IsView.all_eq {view : Char → Char} (hview : IsView view) {f : Char → Bool}
    (hf : ∀ c, f c.toLower = f c) {o o' : Option Char} (h : o.map view = o'.map view) :
    o.all f = o'.all f := by
  simpa [Option.all_map] using congrArg (Option.all id) (hview.map_eq hf h)

/-- A digit is no letter. -/
theorem isAlpha_of_isDigit {c : Char} (h : c.isDigit = true) : c.isAlpha = false := by
  rw [Bool.eq_false_iff]
  intro halpha
  have hcode := toNat_of_isAlpha halpha
  simp [Char.isDigit, UInt32.le_iff_toNat_le] at h
  omega

end Softcode.Text

namespace Softcode

open Text

variable {view : Char → Char}

/-! ## Glyphs that look the same -/

/-- Two glyphs have the same role, and characters that look the same. -/
structure Glyph.SameView (view : Char → Char) (g h : Glyph) : Prop where
  role : g.role = h.role
  char : view g.char = view h.char

/-- Only code can be a structural character. -/
theorem Glyph.isCodeChar_eq_false {g : Glyph} (h : g.isCode = false) (c : Char) :
    g.isCodeChar c = false := by
  rw [isCodeChar, h, Bool.false_and]

namespace Glyph.SameView

variable {g h : Glyph}

theorem isCode (hs : SameView view g h) : g.isCode = h.isCode := by
  rw [Glyph.isCode, Glyph.isCode, hs.role]

/-- Glyphs of one view are the same sign of the code. -/
theorem isCodeChar (hs : SameView view g h) (hview : IsView view) {k : Char}
    (hk : k.isAlpha = false) : g.isCodeChar k = h.isCodeChar k := by
  rw [Glyph.isCodeChar, Glyph.isCodeChar, hs.isCode, hview.beq hk hs.char]

/-- They are both word characters of the code or neither is. -/
theorem isCodeWord (hs : SameView view g h) (hview : IsView view) :
    g.isCodeWord = h.isCodeWord := by
  rw [Glyph.isCodeWord, Glyph.isCodeWord, hs.isCode, Glyph.isWord, Glyph.isWord,
    hview.congr isWordChar_toLower hs.char]

/-- They are both digits of the code or neither is. -/
theorem isCodeDigit (hs : SameView view g h) (hview : IsView view) :
    g.isCodeDigit = h.isCodeDigit := by
  rw [Glyph.isCodeDigit, Glyph.isCodeDigit, hs.isCode, hview.congr isDigit_toLower hs.char]

/-- They are both inside a register's name or neither is. -/
theorem inRegisterName (hs : SameView view g h) (hview : IsView view) :
    Line.inRegisterName g = Line.inRegisterName h := by
  have hchar : (g.char == '>') = (h.char == '>') := hview.beq (by decide) hs.char
  rw [Line.inRegisterName, Line.inRegisterName, hs.isCode, bne, hchar, ← bne]

/-- They open the same bracket. -/
theorem opens (hs : SameView view g h) (hview : IsView view) : g.opens = h.opens := by
  rw [Glyph.opens, Glyph.opens, hs.isCode, hview.congr ofOpen?_toLower hs.char]

/-- They close the same bracket. -/
theorem closes (hs : SameView view g h) (hview : IsView view) : g.closes = h.closes := by
  rw [Glyph.closes, Glyph.closes, hs.isCode, hview.congr ofClose?_toLower hs.char]

/-- Digits have no case, so a digit that looks the same is the same. -/
theorem char_eq_of_isCodeDigit (hs : SameView view g h) (hview : IsView view)
    (hdigit : g.isCodeDigit = true) : g.char = h.char := by
  have hdigit : g.char.isDigit = true := (Bool.and_eq_true_iff.mp hdigit).2
  have hbeq : (g.char == g.char) = (h.char == g.char) :=
    hview.beq (isAlpha_of_isDigit hdigit) hs.char
  rw [beq_self_eq_true] at hbeq
  exact (beq_iff_eq.mp hbeq.symm).symm

end Glyph.SameView

/-! ## Walks that show the same -/

/-- Two walks over a line show the same to anyone who looks at structure alone. The flag says
whether a literal is open before the first glyph. Within a literal a pair of glyphs may have any two
characters; everywhere else their characters look the same. -/
inductive Alike (view : Char → Char) : (inside : Bool) → List Glyph → List Glyph → Prop where
  | nil (inside : Bool) : Alike view inside [] []
  | shown {inside next : Bool} {g h : Glyph} {gs hs : List Glyph} (head : g.SameView view h)
      (code : g.isCode = true → inside = false ∧ next = false) (rest : Alike view next gs hs) :
      Alike view inside (g :: gs) (h :: hs)
  | hidden {g h : Glyph} {gs hs : List Glyph} (role : g.role = h.role) (code : g.isCode = false)
      (rest : Alike view true gs hs) : Alike view true (g :: gs) (h :: hs)

namespace Alike

variable {inside : Bool} {gs hs : List Glyph}

/-- Walks that show the same have the same roles. -/
theorem map_role (h : Alike view inside gs hs) : gs.map Glyph.role = hs.map Glyph.role := by
  induction h with
  | nil => rfl
  | shown head _ _ ih => rw [List.map_cons, List.map_cons, head.role, ih]
  | hidden role _ _ ih => rw [List.map_cons, List.map_cons, role, ih]

/-- They are equally long. -/
theorem length_eq (h : Alike view inside gs hs) : gs.length = hs.length := by
  simpa using congrArg List.length h.map_role

/-- A hidden pair has no glyph that takes part in the structure. -/
theorem isCode_of_hidden {g h : Glyph} (role : g.role = h.role) (code : g.isCode = false) :
    h.isCode = false := by
  rw [← code, Glyph.isCode, Glyph.isCode, role]

/-- What is left of them shows the same. -/
theorem drop (h : Alike view inside gs hs) (n : Nat) :
    ∃ next, Alike view next (gs.drop n) (hs.drop n) := by
  induction h generalizing n with
  | nil inside => exact ⟨inside, by simpa using nil inside⟩
  | @shown inside next g h gs hs head code rest ih =>
      cases n with
      | zero => exact ⟨inside, shown head code rest⟩
      | succ n => exact ih n
  | @hidden g h gs hs role code rest ih =>
      cases n with
      | zero => exact ⟨true, hidden role code rest⟩
      | succ n => exact ih n

/-- Outside a literal the next characters look the same. -/
theorem head?_eq (h : Alike view false gs hs) :
    (gs.head?.map Glyph.char).map view = (hs.head?.map Glyph.char).map view := by
  cases h with
  | nil => rfl
  | shown head _ _ => simp [head.char]

/-- The glyphs up to the first that is no structure, or fails another test that does not see case,
look the same. -/
theorem map_takeWhile {β : Type} {p : Glyph → Bool} {f : Glyph → β}
    (hcode : ∀ g, p g = true → g.isCode = true)
    (hp : ∀ g h, g.SameView view h → p g = p h)
    (hf : ∀ g h, g.SameView view h → p g = true → f g = f h) (h : Alike view inside gs hs) :
    (gs.takeWhile p).map f = (hs.takeWhile p).map f := by
  induction h with
  | nil => rfl
  | @shown _ _ g h _ _ head _ _ ih =>
      simp only [List.takeWhile_cons, ← hp g h head]
      split
      · rename_i hg
        rw [List.map_cons, List.map_cons, hf g h head hg, ih]
      · rfl
  | @hidden g h _ _ role code _ _ =>
      have hfalse : ∀ k : Glyph, k.isCode = false → ¬ p k = true := by
        intro k hk hpk
        rw [hcode k hpk] at hk
        exact absurd hk (by simp)
      rw [List.takeWhile_cons_of_neg (hfalse g code),
        List.takeWhile_cons_of_neg (hfalse h (isCode_of_hidden role code))]

/-- Words look the same. -/
theorem word (hview : IsView view) (h : Alike view inside gs hs) :
    (Line.chars (gs.takeWhile Glyph.isCodeWord)).map view
      = (Line.chars (hs.takeWhile Glyph.isCodeWord)).map view := by
  rw [Line.chars, Line.chars, List.map_map, List.map_map]
  exact h.map_takeWhile (fun _ hp => (Bool.and_eq_true_iff.mp hp).1)
    (fun _ _ hs => hs.isCodeWord hview) fun _ _ hs _ => hs.char

/-- Names of registers look the same. -/
theorem registerName (hview : IsView view) (h : Alike view inside gs hs) :
    (Line.chars (gs.takeWhile Line.inRegisterName)).map view
      = (Line.chars (hs.takeWhile Line.inRegisterName)).map view := by
  rw [Line.chars, Line.chars, List.map_map, List.map_map]
  exact h.map_takeWhile (fun _ hp => (Bool.and_eq_true_iff.mp hp).1)
    (fun _ _ hs => hs.inRegisterName hview) fun _ _ hs _ => hs.char

/-- Numerals are the same. -/
theorem digits (hview : IsView view) (h : Alike view inside gs hs) :
    Line.chars (gs.takeWhile Glyph.isCodeDigit) = Line.chars (hs.takeWhile Glyph.isCodeDigit) :=
  h.map_takeWhile (fun _ hp => (Bool.and_eq_true_iff.mp hp).1) (fun _ _ hs => hs.isCodeDigit hview)
    fun _ _ hs hp => hs.char_eq_of_isCodeDigit hview hp

end Alike

/-! ## Calls and commands -/

/-- A text as it looks. -/
def Text.viewed (view : Char → Char) (s : String) : String := String.ofList (s.toList.map view)

@[simp] theorem Text.viewed_ofList (view : Char → Char) (s : List Char) :
    viewed view (String.ofList s) = String.ofList (s.map view) := by
  simp [viewed]

@[simp] theorem Text.viewed_id (s : String) : viewed id s = s := by
  simp [viewed]

/-- A call as it looks. -/
def Call.viewed (view : Char → Char) (call : Call) : Call :=
  { call with name := Text.viewed view call.name }

/-- A command as it looks. -/
def Command.viewed (view : Char → Char) (command : Command) : Command :=
  { command with name := Text.viewed view command.name }

/-- The character before the word that glyphs end with (nearest first). -/
def charBefore (past : List Glyph) : Option Char :=
  (past.drop (past.takeWhile Glyph.isCodeWord).length).head?.map Glyph.char

/-- A `(` cannot tell the glyphs before it apart: the word directly before it and the character
before that word look the same. -/
structure SameBefore (view : Char → Char) (past past' : List Glyph) : Prop where
  length : past.length = past'.length
  word : (Line.chars (past.takeWhile Glyph.isCodeWord)).map view
    = (Line.chars (past'.takeWhile Glyph.isCodeWord)).map view
  char : (charBefore past).map view = (charBefore past').map view

namespace SameBefore

variable {past past' : List Glyph} {g h : Glyph}

/-- A glyph that is no structure hides what stands before it. -/
theorem cons_of_not_code (hlength : past.length = past'.length) (head : g.SameView view h)
    (code : g.isCode = false) : SameBefore view (g :: past) (h :: past') := by
  have hg : ¬ g.isCodeWord = true := by simp [Glyph.isCodeWord, code]
  have hh : ¬ h.isCodeWord = true := by simp [Glyph.isCodeWord, ← head.isCode, code]
  refine ⟨?_, ?_, ?_⟩
  · rw [List.length_cons, List.length_cons, hlength]
  · rw [List.takeWhile_cons_of_neg hg, List.takeWhile_cons_of_neg hh]
  · simp [charBefore, hg, hh, head.char]

/-- One more glyph of the same view in front of the call keeps what stands before alike. -/
theorem cons (hview : IsView view) (hpast : SameBefore view past past')
    (head : g.SameView view h) : SameBefore view (g :: past) (h :: past') := by
  refine ⟨?_, ?_, ?_⟩
  · rw [List.length_cons, List.length_cons, hpast.length]
  · simp only [List.takeWhile_cons, ← head.isCodeWord hview]
    split
    · simp only [Line.chars, List.map_cons, head.char]
      exact congrArg _ hpast.word
    · rfl
  · simp only [charBefore, List.takeWhile_cons, ← head.isCodeWord hview]
    split
    · exact hpast.char
    · simp [head.char]

end SameBefore

/-- The call that a `(` at an index makes of the word directly before it, nearest character first,
and the character before that word. -/
def callOf? (word : List Char) (before : Option Char) (index : Nat) (spaced : Bool) :
    Option Call :=
  if word.getLast?.any Text.isWordStart && !before.any bindsName then
    some
      { name := String.ofList word.reverse, column := index - word.length + 1, openIndex := index,
        spaced }
  else none

/-- A call depends on the word before its bracket and on the characters around the two. -/
theorem callAt?_eq_callOf? (past rest : List Glyph) :
    callAt? past rest
      = callOf? (Line.chars (past.takeWhile Glyph.isCodeWord)) (charBefore past) past.length
          ((rest.head?.map Glyph.char).any (· == ' ')) := by
  simp only [callAt?, callOf?, charBefore, Line.chars, List.getLast?_map, Option.any_map,
    List.map_reverse, List.length_map]
  cases (past.takeWhile Glyph.isCodeWord).getLast? with
  | none => rfl
  | some first =>
      grind

/-- Words that look the same make calls that look the same. -/
theorem callOf?_viewed (hview : IsView view) {word word' : List Char} {before before' : Option Char}
    (hword : word.map view = word'.map view) (hbefore : before.map view = before'.map view)
    (index : Nat) (spaced : Bool) :
    (callOf? word before index spaced).map (Call.viewed view)
      = (callOf? word' before' index spaced).map (Call.viewed view) := by
  have hlength : word.length = word'.length := by simpa using congrArg List.length hword
  have hstart : word.getLast?.any Text.isWordStart = word'.getLast?.any Text.isWordStart := by
    refine hview.any_eq isWordStart_toLower ?_
    rw [← List.getLast?_map, ← List.getLast?_map, hword]
  have hbinds : before.any bindsName = before'.any bindsName :=
    hview.any_eq bindsName_toLower hbefore
  simp only [callOf?, hlength, hstart, hbinds]
  split
  · simp only [Option.map_some, Call.viewed, Text.viewed_ofList, List.map_reverse, hword]
  · rfl

/-- A `(` makes the same call of words that look the same. -/
theorem callAt?_viewed (hview : IsView view) {past past' rest rest' : List Glyph}
    (hpast : SameBefore view past past')
    (hrest : (rest.head?.map Glyph.char).map view = (rest'.head?.map Glyph.char).map view) :
    (callAt? past rest).map (Call.viewed view) = (callAt? past' rest').map (Call.viewed view) := by
  have hspaced : (rest.head?.map Glyph.char).any (· == ' ')
      = (rest'.head?.map Glyph.char).any (· == ' ') :=
    hview.any_eq (toLower_beq (by decide)) hrest
  rw [callAt?_eq_callOf?, callAt?_eq_callOf?, hspaced, hpast.length]
  exact callOf?_viewed hview hpast.word hpast.char _ _

/-- Calls look the same. -/
theorem Alike.callsFrom {inside : Bool} {gs hs : List Glyph} (hview : IsView view)
    (h : Alike view inside gs hs) {past past' : List Glyph} (hlength : past.length = past'.length)
    (hpast : inside = false → SameBefore view past past') :
    (Line.callsFrom past gs).map (Call.viewed view)
      = (Line.callsFrom past' hs).map (Call.viewed view) := by
  induction h generalizing past past' with
  | nil => rfl
  | @shown inside next g h gs hs head code rest ih =>
      -- a glyph that is not code ends every word, whatever came before it
      have hnext : SameBefore view (g :: past) (h :: past') := by
        cases hcode : g.isCode with
        | false => exact .cons_of_not_code hlength head hcode
        | true => exact (hpast (code hcode).1).cons hview head
      have hmore := ih hnext.length fun _ => hnext
      simp only [Line.callsFrom, ← head.isCodeChar hview (k := '(') (by decide)]
      split
      · rename_i hparen
        -- the parenthesis is code, so no literal is open on either side of it
        obtain ⟨hinside, rfl⟩ := code (Bool.and_eq_true_iff.mp hparen).1
        rw [List.map_append, List.map_append, hmore, ← Option.toList_map, ← Option.toList_map,
          callAt?_viewed hview (hpast hinside) rest.head?_eq]
      · exact hmore
  | @hidden g h gs hs role code rest ih =>
      simp only [Line.callsFrom, Glyph.isCodeChar_eq_false code,
        Glyph.isCodeChar_eq_false (isCode_of_hidden role code)]
      -- what comes before the next glyph is hidden, but so is that glyph
      exact ih (by simp [hlength]) (by simp)

/-- Walks that show the same have the same calls, up to the view. -/
theorem Alike.calls {gs hs : List Glyph} (hview : IsView view) (h : Alike view false gs hs) :
    (Line.calls gs).map (Call.viewed view) = (Line.calls hs).map (Call.viewed view) :=
  h.callsFrom hview rfl fun _ => ⟨rfl, rfl, rfl⟩

/-- An `@` makes the same command of words that look the same. -/
theorem commandAt?_viewed (hview : IsView view) {inside : Bool} {rest rest' : List Glyph}
    {before before' : Option Char} (hbefore : before.map view = before'.map view)
    (hrest : Alike view inside rest rest') (column : Nat) :
    (commandAt? column before rest).map (Command.viewed view)
      = (commandAt? column before' rest').map (Command.viewed view) := by
  have hword := hrest.word hview
  have hempty : (rest.takeWhile Glyph.isCodeWord).isEmpty
      = (rest'.takeWhile Glyph.isCodeWord).isEmpty := by
    simpa [Line.chars] using congrArg List.isEmpty hword
  have hstarts : before.all startsAction = before'.all startsAction :=
    hview.all_eq startsAction_toLower hbefore
  simp only [commandAt?, hempty, hstarts]
  split
  · simp only [Option.map_some, Command.viewed, Text.viewed_ofList, hword]
  · rfl

/-- Commands look the same. -/
theorem Alike.commandsFrom {inside : Bool} {gs hs : List Glyph} (hview : IsView view)
    (h : Alike view inside gs hs) (column : Nat) (before before' : Option Char)
    (hbefore : inside = false → before.map view = before'.map view) :
    (Line.commandsFrom column before gs).map (Command.viewed view)
      = (Line.commandsFrom column before' hs).map (Command.viewed view) := by
  induction h generalizing column before before' with
  | nil => rfl
  | @shown inside next g h gs hs head code rest ih =>
      have hmore := ih (column + 1) (some g.char) (some h.char) fun _ => congrArg some head.char
      simp only [Line.commandsFrom, ← head.isCodeChar hview (k := '@') (by decide)]
      split
      · rename_i hat
        obtain ⟨hinside, rfl⟩ := code (Bool.and_eq_true_iff.mp hat).1
        rw [List.map_append, List.map_append, hmore, ← Option.toList_map, ← Option.toList_map,
          commandAt?_viewed hview (hbefore hinside) rest]
      · exact hmore
  | @hidden g h gs hs role code rest ih =>
      simp only [Line.commandsFrom, Glyph.isCodeChar_eq_false code,
        Glyph.isCodeChar_eq_false (isCode_of_hidden role code)]
      exact ih (column + 1) _ _ (by simp)

/-- They have the same commands, up to the view. -/
theorem Alike.commands {gs hs : List Glyph} (hview : IsView view) (h : Alike view false gs hs) :
    (Line.commands gs).map (Command.viewed view) = (Line.commands hs).map (Command.viewed view) :=
  h.commandsFrom hview 1 none none fun _ => rfl

/-! ## Substitutions -/

/-- A reference as it looks. Registers of one letter have no case, so only the names of the others
may look different from what they are. -/
def Reference.viewed (view : Char → Char) : Reference → Reference
  | .positional index => .positional index
  | .short register => .short register
  | .named name closed => .named (Text.viewed view name) closed

/-- A substitution as it looks. -/
def Substitution.viewed (view : Char → Char) (sub : Substitution) : Substitution :=
  { sub with reference := sub.reference.viewed view }

/-- The letter that stands for a register, in either case. -/
theorem toLower_eq_q_iff (c : Char) : c.toLower = 'q' ↔ c = 'q' ∨ c = 'Q' := by
  constructor
  · intro h
    by_cases hlower : c.isLower = true
    · left
      rw [← h, Char.toLower_eq_of_not_isUpper (Char.not_isUpper_of_isLower hlower)]
    · right
      rw [← Char.toUpper_eq_of_not_isLower hlower, ← Char.toUpper_toLower_eq_toUpper, h]
      rfl
  · rintro (rfl | rfl) <;> rfl

theorem isRegisterMark_toLower (c : Char) :
    (c.toLower == 'q' || c.toLower == 'Q') = (c == 'q' || c == 'Q') := by
  have hmark : ∀ d : Char, (d == 'q' || d == 'Q') = (d.toLower == 'q') := by
    intro d
    rw [Bool.eq_iff_iff, Bool.or_eq_true, beq_iff_eq, beq_iff_eq, beq_iff_eq, toLower_eq_q_iff]
  rw [hmark, hmark, Char.toLower_toLower_eq_toLower]

namespace Line

/-- The register that follows a `%q`, with the number of glyphs that the reference takes after the
`%`. -/
def registerAt : List Glyph → Option Reference × Nat
  | [] => (none, 1)
  | h :: more =>
    if h.isCodeChar '<' then
      let name := more.takeWhile inRegisterName
      let closed := (more.drop name.length).head?.any (·.isCodeChar '>')
      (some (.named (String.ofList (chars name)) closed), name.length + if closed then 3 else 2)
    else if h.isCode && h.char.isAlphanum then (some (.short h.char.toLower), 2)
    else (none, 1)

/-- What is taken behind a percent sign, by the first glyph. -/
theorem referenceAt_cons (g : Glyph) (rest : List Glyph) :
    referenceAt (g :: rest)
      = if !g.isCode then (none, 0)
        else if g.char.isDigit then
          let digits := chars ((g :: rest).takeWhile Glyph.isCodeDigit)
          (some (.positional (min (Text.decimalValue digits) Text.wordMax)), digits.length)
        else if g.char == 'q' || g.char == 'Q' then registerAt rest
        else (none, 1) := by
  simp only [referenceAt, chars, List.length_map]
  cases rest with
  | nil => rfl
  | cons h more => rfl

end Line

namespace Alike

variable {inside : Bool} {gs hs : List Glyph}

/-- The same structural character comes next. -/
theorem head?_isCodeChar (hview : IsView view) (h : Alike view inside gs hs) {k : Char}
    (hk : k.isAlpha = false) :
    gs.head?.any (·.isCodeChar k) = hs.head?.any (·.isCodeChar k) := by
  cases h with
  | nil => rfl
  | shown head _ _ => exact head.isCodeChar hview hk
  | hidden role code _ => simp [Glyph.isCodeChar_eq_false, code, isCode_of_hidden role code]

/-- Registers look the same. -/
theorem registerAt (hview : IsView view) (h : Alike view inside gs hs) :
    Prod.map (Option.map (Reference.viewed view)) id (Line.registerAt gs)
      = Prod.map (Option.map (Reference.viewed view)) id (Line.registerAt hs) := by
  cases h with
  | nil => rfl
  | @shown _ _ g h gs hs head code rest =>
      have hname := rest.registerName hview
      have hlength : (gs.takeWhile Line.inRegisterName).length
          = (hs.takeWhile Line.inRegisterName).length := by
        simpa [Line.chars] using congrArg List.length hname
      obtain ⟨_, hafter⟩ := rest.drop (hs.takeWhile Line.inRegisterName).length
      have hclosed := hafter.head?_isCodeChar hview (k := '>') (by decide)
      have hlower : g.char.toLower = h.char.toLower :=
        hview.congr Char.toLower_toLower_eq_toLower head.char
      simp only [Line.registerAt, head.isCodeChar hview (k := '<') (by decide), head.isCode,
        hview.congr isAlphanum_toLower head.char, hlength, hclosed, hlower]
      split
      · simp only [Prod.map_apply, Option.map_some, Reference.viewed, Text.viewed_ofList, hname]
      · rfl
  | @hidden g h _ _ role code _ =>
      simp [Line.registerAt, Glyph.isCodeChar_eq_false, code, isCode_of_hidden role code]

/-- References look the same and take the same number of glyphs. -/
theorem referenceAt (hview : IsView view) (h : Alike view inside gs hs) :
    Prod.map (Option.map (Reference.viewed view)) id (Line.referenceAt gs)
      = Prod.map (Option.map (Reference.viewed view)) id (Line.referenceAt hs) := by
  cases h with
  | nil => rfl
  | @shown _ _ g h gs hs head code rest =>
      have hdigits := (shown head code rest).digits hview
      have hmark : (g.char == 'q' || g.char == 'Q') = (h.char == 'q' || h.char == 'Q') :=
        hview.congr (f := fun c => c == 'q' || c == 'Q') isRegisterMark_toLower head.char
      simp only [Line.referenceAt_cons, head.isCode, hview.congr isDigit_toLower head.char, hdigits,
        hmark]
      split
      · rfl
      · split
        · rfl
        · split
          · exact rest.registerAt hview
          · rfl
  | @hidden g h _ _ role code _ =>
      simp [Line.referenceAt, code, isCode_of_hidden role code]

/-- Substitutions look the same. -/
theorem substitutionsFrom (hview : IsView view) (h : Alike view inside gs hs) (column skip : Nat) :
    (Line.substitutionsFrom column skip gs).map (Substitution.viewed view)
      = (Line.substitutionsFrom column skip hs).map (Substitution.viewed view) := by
  induction h generalizing column skip with
  | nil => rfl
  | @shown inside next g h gs hs head code rest ih =>
      cases skip with
      | succ n => exact ih (column + 1) n
      | zero =>
          obtain ⟨hfound, hlength⟩ := Prod.ext_iff.mp (rest.referenceAt hview)
          simp only [Prod.map_fst, Prod.map_snd, id] at hfound hlength
          simp only [Line.substitutionsFrom, head.isCodeChar hview (k := '%') (by decide), hlength]
          split
          · have hat : ∀ o : Option Reference,
                (o.map (Substitution.mk column)).toList.map (Substitution.viewed view)
                  = ((o.map (Reference.viewed view)).map (Substitution.mk column)).toList := by
              intro o
              cases o <;> rfl
            rw [List.map_append, List.map_append, hat, hat, hfound, ih]
          · exact ih (column + 1) 0
  | @hidden g h gs hs role code rest ih =>
      cases skip with
      | succ n => exact ih (column + 1) n
      | zero =>
          simp only [Line.substitutionsFrom, Glyph.isCodeChar_eq_false code,
            Glyph.isCodeChar_eq_false (isCode_of_hidden role code)]
          exact ih (column + 1) 0

/-- They have the same substitutions, up to the view. -/
theorem substitutions (hview : IsView view) (h : Alike view inside gs hs) :
    (Line.substitutions gs).map (Substitution.viewed view)
      = (Line.substitutions hs).map (Substitution.viewed view) :=
  h.substitutionsFrom hview 1 0

end Alike

/-! ## Literals and brackets -/

/-- Two glyphs open and close the same kinds of bracket. -/
structure Glyph.SameBrackets (g h : Glyph) : Prop where
  opens : g.opens = h.opens
  closes : g.closes = h.closes

/-- Brackets are the same. -/
theorem Alike.sameBrackets {inside : Bool} {gs hs : List Glyph} (hview : IsView view)
    (h : Alike view inside gs hs) : List.Forall₂ Glyph.SameBrackets gs hs := by
  induction h with
  | nil => exact .nil
  | shown head _ _ ih => exact .cons ⟨head.opens hview, head.closes hview⟩ ih
  | @hidden g h _ _ role code _ ih =>
      refine .cons ⟨?_, ?_⟩ ih
      · simp [Glyph.opens, code, isCode_of_hidden role code]
      · simp [Glyph.closes, code, isCode_of_hidden role code]

namespace Line

variable {gs hs : List Glyph}

/-- An open literal shows in the roles of the glyphs alone. -/
theorem openLiteralFrom_congr (h : gs.map Glyph.role = hs.map Glyph.role) (column : Nat)
    (opened : Option Nat) :
    openLiteralFrom column opened gs = openLiteralFrom column opened hs := by
  induction gs generalizing hs column opened with
  | nil =>
      rw [List.map_nil] at h
      rw [List.map_eq_nil_iff.mp h.symm]
  | cons g gs ih =>
      obtain ⟨g', hs, rfl, hrole, hrest⟩ := List.map_eq_cons_iff.mp h.symm
      simp only [openLiteralFrom, hrole]
      exact ih hrest.symm _ _

/-- The depth of brackets depends on the brackets only. -/
theorem maxDepthFrom_congr (h : List.Forall₂ Glyph.SameBrackets gs hs) (depth : Nat) :
    maxDepthFrom depth gs = maxDepthFrom depth hs := by
  induction h generalizing depth with
  | nil => rfl
  | cons head _ ih => simp only [maxDepthFrom, depthAfter, head.opens, head.closes, ih]

/-- So does the place where an open bracket is closed. -/
theorem closingFrom_congr (h : List.Forall₂ Glyph.SameBrackets gs hs) (index pending : Nat) :
    closingFrom index pending gs = closingFrom index pending hs := by
  induction h generalizing index pending with
  | nil => rfl
  | cons head _ ih => simp only [closingFrom, head.opens, head.closes, ih]

/-- So does the bracket that matches another. -/
theorem matchingParen_congr (h : List.Forall₂ Glyph.SameBrackets gs hs) (start : Nat) :
    matchingParen gs start = matchingParen hs start :=
  closingFrom_congr (List.forall₂_drop start h) start 0

end Line

/-- So do the flaws of brackets. -/
theorem LineCheck.bracketsFrom_congr {gs hs : List Glyph}
    (h : List.Forall₂ Glyph.SameBrackets gs hs) (column : Nat) (stack : List Opener) :
    bracketsFrom column stack gs = bracketsFrom column stack hs := by
  induction h generalizing column stack with
  | nil => rfl
  | cons head _ ih => simp only [bracketsFrom, head.opens, head.closes, ih]

/-- So does the profile of brackets. -/
theorem BracketProfile.foldl_addGlyph_congr {gs hs : List Glyph}
    (h : List.Forall₂ Glyph.SameBrackets gs hs) (number : Nat)
    (state : BracketProfile × List Bracket) :
    gs.foldl (addGlyph number) state = hs.foldl (addGlyph number) state := by
  induction h generalizing state with
  | nil => rfl
  | cons head _ ih => simp only [List.foldl_cons, addGlyph, head.opens, head.closes, ih]

end Softcode
