import Mathlib.Data.List.TakeWhile
import Softcode.Line.Glyph

/-!
# Edits of a line

What a line keeps when code is written into it or taken out of it. Where the walk meets code it is
in the state it started in, so code can be added or removed there and every other character keeps
its role (`Line.glyphs_append_of_plain`, `Line.glyphs_eraseIdx`). Whether a line is a comment shows
before the first character that is neither blank nor part of a comment mark
(`Line.isCode_append_solid`), so an edit behind that character does not turn code into a comment.
-/

namespace Softcode

/-- The walk over a line gives every character a role and changes none. -/
theorem chars_glyphsFrom (q : Quoting) (s : List Char) : Line.chars (glyphsFrom q s) = s := by
  induction s generalizing q with
  | nil => rfl
  | cons c s ih => exact congrArg (c :: ·) (ih _)

theorem Line.chars_glyphs (line : List Char) : chars (glyphs line) = line := by
  rw [glyphs_eq_glyphsFrom, chars_glyphsFrom]

/-- A line has one glyph for each character. -/
theorem Line.length_glyphs (line : List Char) : (glyphs line).length = line.length := by
  rw [← List.length_map Glyph.char, ← chars, chars_glyphs]

/-- The character at an index is that of the glyph there. -/
theorem Line.getElem?_of_glyphs {text : List Char} {n : Nat} {g : Glyph}
    (h : (glyphs text)[n]? = some g) : text[n]? = some g.char := by
  rw [← chars_glyphs text, chars, List.getElem?_map, h, Option.map_some]

/-- The walk over a second text starts where the first leaves it. -/
theorem glyphsFrom_append (q : Quoting) (a b : List Char) :
    glyphsFrom q (a ++ b)
      = glyphsFrom q a ++ glyphsFrom (a.foldl (fun q c => (q.step c).2) q) b := by
  induction a generalizing q with
  | nil => rfl
  | cons c a ih => exact congrArg (_ :: ·) (ih _)

/-! ## The walk around code -/

namespace Quoting

variable {q : Quoting} {c : Char}

/-- Code comes while nothing is open, and opens nothing. -/
theorem step_of_code (h : (q.step c).1 = .code) : q = ⟨false, false⟩ ∧ (q.step c).2 = q := by
  obtain ⟨escaped, literal⟩ := q
  simp only [step] at h ⊢
  split_ifs at h ⊢
  simp_all

/-- At the start of a line every character is code but a backslash and a quote. -/
theorem step_of_plain (hbackslash : c ≠ '\\') (hquote : c ≠ '"') :
    Quoting.step ⟨false, false⟩ c = (.code, ⟨false, false⟩) := by
  simp [step, hbackslash, hquote]

end Quoting

namespace Line

/-- After code the walk is as at the start of a line. -/
theorem glyphsFrom_cons_of_code {q : Quoting} {c : Char} (h : (q.step c).1 = .code)
    (rest : List Char) : glyphsFrom q (c :: rest) = ⟨c, .code⟩ :: glyphs rest := by
  obtain ⟨hstart, hkeeps⟩ := Quoting.step_of_code h
  rw [glyphsFrom, h, hkeeps, hstart, glyphs_eq_glyphsFrom]

/-- The glyphs of a text that is code throughout. -/
def asCode (text : List Char) : List Glyph := text.map (⟨·, .code⟩)

theorem asCode_cons (c : Char) (text : List Char) :
    asCode (c :: text) = ⟨c, .code⟩ :: asCode text := rfl

theorem asCode_append (a b : List Char) : asCode (a ++ b) = asCode a ++ asCode b := List.map_append

@[simp] theorem length_asCode (text : List Char) : (asCode text).length = text.length :=
  List.length_map _

@[simp] theorem chars_asCode (text : List Char) : chars (asCode text) = text := by
  rw [chars, asCode, List.map_map]
  exact List.map_id text

/-- Glyphs of structural characters are structural. -/
theorem isCode_of_mem_asCode {text : List Char} {g : Glyph} (h : g ∈ asCode text) :
    g.isCode = true := by
  obtain ⟨c, -, rfl⟩ := List.mem_map.mp h
  rfl

/-- Glyphs in the code role are their characters as code. -/
theorem asCode_chars {gs : List Glyph} (h : ∀ g ∈ gs, g.isCode = true) :
    asCode (chars gs) = gs := by
  induction gs with
  | nil => rfl
  | cons g gs ih =>
      obtain ⟨c, role⟩ := g
      obtain rfl : role = .code := beq_iff_eq.mp (h _ List.mem_cons_self)
      exact congrArg (_ :: ·) (ih fun g hg => h g (List.mem_cons_of_mem _ hg))

/-- Plain text in front of a line is code, and changes nothing about the line. -/
theorem glyphs_append_of_plain {text : List Char} (h : ∀ c ∈ text, c ≠ '\\' ∧ c ≠ '"')
    (rest : List Char) : glyphs (text ++ rest) = asCode text ++ glyphs rest := by
  induction text with
  | nil => rfl
  | cons c text ih =>
      have hstep := Quoting.step_of_plain (h c List.mem_cons_self).1 (h c List.mem_cons_self).2
      rw [List.cons_append, glyphs_eq_glyphsFrom, glyphsFrom_cons_of_code (by rw [hstep]),
        ih fun d hd => h d (List.mem_cons_of_mem c hd)]
      rfl

/-- Behind code the walk over a line is the walk over what is left of it. -/
theorem exists_glyphs_of_append_code {text : List Char} {code rest : List Glyph}
    (h : glyphs text = code ++ rest) (hcode : ∀ g ∈ code, g.isCode = true) :
    ∃ text', text = chars code ++ text' ∧ rest = glyphs text' := by
  induction code generalizing text with
  | nil => exact ⟨text, rfl, h.symm⟩
  | cons g code ih =>
      obtain - | ⟨c, text⟩ := text
      · exact absurd h (by simp [glyphs_eq_glyphsFrom, glyphsFrom])
      rw [glyphs_eq_glyphsFrom, glyphsFrom, List.cons_append, List.cons.injEq] at h
      obtain ⟨rfl, htail⟩ := h
      have hstep := Quoting.step_of_code (beq_iff_eq.mp (hcode _ List.mem_cons_self))
      rw [hstep.2, ← glyphs_eq_glyphsFrom] at htail
      obtain ⟨text', rfl, hrest⟩ := ih htail fun g hg => hcode g (List.mem_cons_of_mem _ hg)
      exact ⟨text', rfl, hrest⟩

/-- Taking out a character of code takes out its glyph. -/
theorem glyphsFrom_eraseIdx {q : Quoting} {line : List Char} {i : Nat} {g : Glyph}
    (hg : (glyphsFrom q line)[i]? = some g) (hcode : g.isCode = true) :
    glyphsFrom q (line.eraseIdx i) = (glyphsFrom q line).eraseIdx i := by
  induction line generalizing q i with
  | nil => rfl
  | cons c rest ih =>
      cases i with
      | zero =>
          rw [glyphsFrom, List.getElem?_cons_zero, Option.some.injEq] at hg
          have hstep : (q.step c).1 = .code := by
            rw [← hg] at hcode
            exact beq_iff_eq.mp hcode
          simp only [List.eraseIdx_cons_zero, glyphsFrom, (Quoting.step_of_code hstep).2]
      | succ i =>
          rw [glyphsFrom, List.getElem?_cons_succ] at hg
          simp only [List.eraseIdx_cons_succ, glyphsFrom, ih hg]

/-- Removing a structural character removes its glyph. -/
theorem glyphs_eraseIdx {line : List Char} {i : Nat} {g : Glyph} (hg : (glyphs line)[i]? = some g)
    (hcode : g.isCode = true) : glyphs (line.eraseIdx i) = (glyphs line).eraseIdx i := by
  rw [glyphs_eq_glyphsFrom] at hg
  rw [glyphs_eq_glyphsFrom, glyphs_eq_glyphsFrom, glyphsFrom_eraseIdx hg hcode]

end Line

/-! ## Where a comment shows -/

namespace Text

/-- A character that shows and has no part in the mark of a comment. -/
def isSolid (c : Char) : Bool := !isBlank c && c != '@' && c != '#'

theorem isBlank_of_isSolid {c : Char} (h : isSolid c = true) : isBlank c = false := by
  simp only [isSolid, Bool.and_eq_true, Bool.not_eq_true'] at h
  exact h.1.1

/-- Trimming stops at a character that shows. -/
theorem trim_append_of_shown {c : Char} (hc : isBlank c = false) (before after : List Char) :
    trim (before ++ c :: after) = trimStart before ++ c :: trimEnd after := by
  have hstart : trimStart (before ++ c :: after) = trimStart before ++ c :: after := by
    rw [trimStart, List.dropWhile_append, List.dropWhile_cons_of_neg (by simp [hc])]
    split
    · rename_i hall
      rw [trimStart, List.isEmpty_iff.mp hall, List.nil_append]
    · rfl
  rw [trim, hstart, trimEnd, trimEnd, List.reverse_append, List.reverse_cons, List.append_assoc,
    List.dropWhile_append, List.cons_append, List.dropWhile_cons_of_neg (by simp [hc])]
  split
  · rename_i hall
    simp [List.isEmpty_iff.mp hall]
  · simp

end Text

namespace Line

/-- Whether a line with a solid character is a comment shows before that character. -/
theorem isComment_append_solid {c : Char} (hc : Text.isSolid c = true)
    (before after : List Char) :
    isComment (before ++ c :: after)
      = match Text.trimStart before with
        | '@' :: '@' :: _ => true
        | '#' :: ' ' :: _ => true
        | _ => false := by
  have hshown := Text.isBlank_of_isSolid hc
  have hspace : c ≠ ' ' := by
    rintro rfl
    exact absurd hshown (by decide)
  simp only [Text.isSolid, Bool.and_eq_true, bne_iff_ne] at hc
  rw [isComment, Text.trim_append_of_shown hshown]
  match Text.trimStart before with
  | [] => simp [hc]
  | [d] => split <;> simp_all
  | d :: e :: rest =>
      rw [List.cons_append, List.cons_append]
      split <;> split <;> simp_all

/-- What stands from the first solid character on does not decide whether a line is code. -/
theorem isCode_append_solid {c d : Char} (hc : Text.isSolid c = true) (hd : Text.isSolid d = true)
    (before a b : List Char) : isCode (before ++ c :: a) = isCode (before ++ d :: b) := by
  have hshown : ∀ (e : Char) (s : List Char), (Text.trimStart before ++ e :: s).isEmpty = false :=
    by simp
  rw [isCode, isCode, isComment_append_solid hc, isComment_append_solid hd,
    Text.trim_append_of_shown (Text.isBlank_of_isSolid hc),
    Text.trim_append_of_shown (Text.isBlank_of_isSolid hd), hshown, hshown]

end Line

end Softcode
