import Softcode.Proofs.JsonGrammar

/-!
# Tokens of grammatical texts

`Cuts text ts` says that `ts` are the tokens of a text, wherever the text stands. Blanks in front
make no difference (`Cuts.skip`), and a text that starts with a mark, a word or a string starts with
its token, followed by the tokens of the rest (`Cuts.mark`, `Cuts.scalar`). Of any other value the
readers look at the first token only (`Cuts.foreign`).

Strings are the interesting case: `scanString_spells` follows a spelling piece by piece. A piece
adds a character to what has been read, or spoils it.
-/

namespace Softcode.Json

/-! ## Strings -/

/-- The letters of the table are unescaped as it says. -/
theorem unescape?_of_mem {e c : Char} (h : (e, c) ∈ letters) : unescape? e = some c := by
  have hall : ∀ p ∈ letters, unescape? p.1 = some p.2 := by decide
  exact hall (e, c) h

/-- No letter of the table starts a code unit. -/
theorem ne_u_of_mem {e c : Char} (h : (e, c) ∈ letters) : e ≠ 'u' := by
  rintro rfl
  revert h
  simp [letters]

/-- The scan of a body up to its closing quote: what is read is put after what has been read, and
lost if there was a fault or is one. -/
def Scans (body : List Char) (s : Option (List Char)) : Prop :=
  ∀ place spoil read rest,
    ∃ after, (scanString place spoil read (body ++ '"' :: rest)).rest = .ok (after, rest)
      ∧ (scanString place spoil read (body ++ '"' :: rest)).value.toOption
        = if spoil.isSome then none else s.map fun cs => String.ofList (read.reverse ++ cs)

/-- A piece that adds a character. -/
theorem Scans.push {body : List Char} {s : Option (List Char)} (h : Scans body s)
    (piece : List Char) {c : Char}
    (hstep : ∀ place spoil read rest, ∃ next,
      scanString place spoil read (piece ++ (body ++ '"' :: rest))
        = scanString next spoil (c :: read) (body ++ '"' :: rest)) :
    Scans (piece ++ body) (s.map (c :: ·)) := by
  intro place spoil read rest
  obtain ⟨next, hnext⟩ := hstep place spoil read rest
  obtain ⟨after, hrest, hvalue⟩ := h next spoil (c :: read) rest
  rw [List.append_assoc, hnext]
  refine ⟨after, hrest, ?_⟩
  rw [hvalue]
  cases s with
  | none => rfl
  | some cs => simp

/-- A piece that spoils the text. -/
theorem Scans.spoil {body : List Char} {s : Option (List Char)} (h : Scans body s)
    (piece : List Char)
    (hstep : ∀ place spoil read rest, ∃ next fault,
      scanString place spoil read (piece ++ (body ++ '"' :: rest))
        = scanString next (spoil.or (some fault)) read (body ++ '"' :: rest)) :
    Scans (piece ++ body) none := by
  intro place spoil read rest
  obtain ⟨next, fault, hnext⟩ := hstep place spoil read rest
  obtain ⟨after, hrest, hvalue⟩ := h next (spoil.or (some fault)) read rest
  rw [List.append_assoc, hnext]
  refine ⟨after, hrest, ?_⟩
  rw [hvalue]
  cases spoil <;> rfl

/-- A plain character stands for itself. -/
theorem scanString_plain {c : Char} (hc : 0x20 ≤ c.toNat) (hquote : c ≠ '"') (hslash : c ≠ '\\')
    (place : Place) (spoil : Option Fault) (read rest : List Char) :
    scanString place spoil read (c :: rest)
      = scanString (place.after c) spoil (c :: read) rest := by
  have hcontrol : ¬c.toNat < 0x20 := Nat.not_lt.mpr hc
  rw [scanString]
  · rw [if_neg hcontrol]
  all_goals grind

/-- A backslash and a letter of the table stand for the character in the table. -/
theorem scanString_letter {e c : Char} (he : (e, c) ∈ letters) (place : Place)
    (spoil : Option Fault) (read rest : List Char) :
    scanString place spoil read ('\\' :: e :: rest)
      = scanString ((place.after '\\').after e) spoil (c :: read) rest := by
  have hu : e ≠ 'u' := ne_u_of_mem he
  rw [scanString]
  · rw [unescape?_of_mem he]
  all_goals grind

/-- No character is a surrogate. -/
theorem not_surrogate (x : Char) :
    isLowSurrogate x.toNat = false ∧ isHighSurrogate x.toNat = false := by
  have hvalid : x.toNat < 0xD800 ∨ 0xDFFF < x.toNat ∧ x.toNat < 0x110000 := x.valid
  simp only [isLowSurrogate, isHighSurrogate, Bool.and_eq_false_iff, decide_eq_false_iff_not]
  omega

/-- No code unit is a high and a low surrogate. -/
theorem isLowSurrogate_of_high {n : Nat} (h : isHighSurrogate n = true) :
    isLowSurrogate n = false := by
  simp only [isLowSurrogate, isHighSurrogate, Bool.and_eq_true, Bool.and_eq_false_iff,
    decide_eq_true_eq, decide_eq_false_iff_not] at h ⊢
  omega

/-- A code unit that is no surrogate stands for its character. -/
theorem scanString_unit {x a b c d : Char} (hx : Text.hexValue? [a, b, c, d] = some x.toNat)
    (place : Place) (spoil : Option Fault) (read rest : List Char) :
    scanString place spoil read ('\\' :: 'u' :: a :: b :: c :: d :: rest)
      = scanString (place.afterAll ['\\', 'u', a, b, c, d]) spoil (x :: read) rest := by
  obtain ⟨hlow, hhigh⟩ := not_surrogate x
  rw [scanString]
  simp only [hx, hlow, hhigh, Char.ofNat_toNat]
  rfl

/-- The halves of a pair are what they are called, and the character is put together from them. -/
theorem surrogates {x : Char} (hx : 0x10000 ≤ x.toNat) :
    isLowSurrogate (highUnit x) = false ∧ isHighSurrogate (highUnit x) = true
      ∧ isLowSurrogate (lowUnit x) = true ∧ joinSurrogates (highUnit x) (lowUnit x) = x := by
  have hbound : x.toNat < 0x110000 := by
    have hvalid : x.toNat < 0xD800 ∨ 0xDFFF < x.toNat ∧ x.toNat < 0x110000 := x.valid
    omega
  have hjoin : (highUnit x - 0xD800) * 0x400 + (lowUnit x - 0xDC00) + 0x10000 = x.toNat := by
    rw [highUnit, lowUnit]
    omega
  have hhigh : isHighSurrogate (highUnit x) = true := by
    simp only [isHighSurrogate, Bool.and_eq_true, decide_eq_true_eq]
    rw [highUnit]
    omega
  have hlow : isLowSurrogate (lowUnit x) = true := by
    simp only [isLowSurrogate, Bool.and_eq_true, decide_eq_true_eq]
    rw [lowUnit]
    omega
  exact ⟨isLowSurrogate_of_high hhigh, hhigh, hlow, by rw [joinSurrogates, hjoin, Char.ofNat_toNat]⟩

/-- A high and a low surrogate stand for one character. -/
theorem scanString_pair {x a b c d a' b' c' d' : Char} (hx : 0x10000 ≤ x.toNat)
    (hhigh : Text.hexValue? [a, b, c, d] = some (highUnit x))
    (hlow : Text.hexValue? [a', b', c', d'] = some (lowUnit x))
    (place : Place) (spoil : Option Fault) (read rest : List Char) :
    scanString place spoil read
        ('\\' :: 'u' :: a :: b :: c :: d :: '\\' :: 'u' :: a' :: b' :: c' :: d' :: rest)
      = scanString ((place.afterAll ['\\', 'u', a, b, c, d]).afterAll ['\\', 'u', a', b', c', d'])
          spoil (x :: read) rest := by
  obtain ⟨hnotLow, hisHigh, hisLow, hjoin⟩ := surrogates hx
  have hpair : ∀ next, pairEnd next ('\\' :: 'u' :: a' :: b' :: c' :: d' :: rest)
      = .low (lowUnit x) := by
    intro next
    rw [pairEnd]
    simp only [hlow, hisLow]
    rfl
  rw [scanString]
  simp only [hhigh, hnotLow, hisHigh, hpair, hjoin]
  rfl

/-- A low surrogate without a high one before it spoils the string, which is read on. -/
theorem scanString_loneLow {a b c d : Char} {n : Nat} (hn : Text.hexValue? [a, b, c, d] = some n)
    (hlow : isLowSurrogate n = true) (place : Place) (spoil : Option Fault)
    (read rest : List Char) :
    ∃ next fault, scanString place spoil read ('\\' :: 'u' :: a :: b :: c :: d :: rest)
      = scanString next (spoil.or (some fault)) read rest := by
  rw [scanString]
  simp only [hn, hlow]
  exact ⟨_, _, rfl⟩

/-- Whatever else a body starts with, it is no second half. -/
theorem pairEnd_spoiled {body : List Char} {s : Option (List Char)} (h : Spells body s)
    (hlow : ¬StartsLow body) (place : Place) (rest : List Char) :
    ∃ fault, pairEnd place (body ++ '"' :: rest) = .spoiled fault := by
  -- a code unit has the form of a second half, so its value must tell
  have hunit : ∀ {a b c d : Char} {n : Nat} {more : List Char},
      Text.hexValue? [a, b, c, d] = some n → isLowSurrogate n = false →
      ∃ fault, pairEnd place ('\\' :: 'u' :: a :: b :: c :: d :: more) = .spoiled fault := by
    intro a b c d n more hn hnot
    rw [pairEnd]
    simp only [hn, hnot]
    exact ⟨_, rfl⟩
  cases h with
  | nil => exact ⟨_, rfl⟩
  | plain _ _ hslash _ =>
      rw [List.cons_append, pairEnd]
      · exact ⟨_, rfl⟩
      all_goals grind
  | @letter e c body _ he _ =>
      have hu : e ≠ 'u' := ne_u_of_mem he
      rw [List.cons_append, List.cons_append, pairEnd]
      · exact ⟨_, rfl⟩
      all_goals grind
  | @unit x _ _ _ _ _ _ hx _ => exact hunit hx (not_surrogate x).1
  | pair hx hhigh _ _ => exact hunit hhigh (surrogates hx).1
  | loneLow hn hisLow _ => exact absurd ⟨_, _, _, _, _, _, rfl, hn, hisLow⟩ hlow
  | loneHigh hn hisHigh _ _ => exact hunit hn (isLowSurrogate_of_high hisHigh)

/-- A high surrogate without a low one behind it spoils the string, which is read on. -/
theorem scanString_loneHigh {a b c d : Char} {n : Nat} (hn : Text.hexValue? [a, b, c, d] = some n)
    (hhigh : isHighSurrogate n = true) {body : List Char} {s : Option (List Char)}
    (h : Spells body s) (hlow : ¬StartsLow body) (place : Place) (spoil : Option Fault)
    (read rest : List Char) :
    ∃ next fault,
      scanString place spoil read ('\\' :: 'u' :: a :: b :: c :: d :: (body ++ '"' :: rest))
        = scanString next (spoil.or (some fault)) read (body ++ '"' :: rest) := by
  obtain ⟨fault, hfault⟩ :=
    pairEnd_spoiled h hlow (place.afterAll ['\\', 'u', a, b, c, d]) rest
  refine ⟨place.afterAll ['\\', 'u', a, b, c, d], fault, ?_⟩
  rw [scanString]
  simp only [hn, isLowSurrogate_of_high hhigh, hhigh, hfault]
  rfl

/-- Strings are scanned as they are spelled. -/
theorem scanString_spells {body : List Char} {s : Option (List Char)} (h : Spells body s) :
    Scans body s := by
  induction h with
  | nil =>
      intro place spoil read rest
      refine ⟨place.after '"', rfl, ?_⟩
      simp [value_scanString_quote]
  | @plain c _ _ hc hquote hslash _ ih =>
      refine ih.push [c] fun place spoil read rest => ?_
      exact ⟨_, scanString_plain hc hquote hslash place spoil read _⟩
  | @letter e _ _ _ he _ ih =>
      refine ih.push ['\\', e] fun place spoil read rest => ?_
      exact ⟨_, scanString_letter he place spoil read _⟩
  | @unit x a b c d _ _ hx _ ih =>
      refine ih.push ['\\', 'u', a, b, c, d] fun place spoil read rest => ?_
      exact ⟨_, scanString_unit hx place spoil read _⟩
  | @pair x a b c d a' b' c' d' _ _ hx hhigh hlow _ ih =>
      refine ih.push ['\\', 'u', a, b, c, d, '\\', 'u', a', b', c', d']
        fun place spoil read rest => ?_
      exact ⟨_, scanString_pair hx hhigh hlow place spoil read _⟩
  | @loneLow a b c d _ _ _ hn hlow _ ih =>
      refine ih.spoil ['\\', 'u', a, b, c, d] fun place spoil read rest => ?_
      exact scanString_loneLow hn hlow place spoil read _
  | @loneHigh a b c d _ _ _ hn hhigh hnext h ih =>
      refine ih.spoil ['\\', 'u', a, b, c, d] fun place spoil read rest => ?_
      exact scanString_loneHigh hn hhigh h hnext place spoil read rest

/-! ## Tokens -/

/-- The tokens of a text, wherever it stands. -/
def Cuts (text : List Char) (ts : List Token) : Prop :=
  ∃ place fuel, text.length < fuel ∧ ts = tokensFrom place text fuel

/-- The tokens of a text are what the text is cut into. -/
theorem cuts_tokens (text : List Char) : Cuts text (tokens text) :=
  ⟨.start, text.length + 1, Nat.lt_succ_self _, rfl⟩

namespace Cuts

variable {text rest : List Char} {ts : List Token}

/-- Blanks in front of a text only move it. -/
theorem skip {bs : List Char} (hbs : IsBlanks bs) (h : Cuts (bs ++ text) ts) : Cuts text ts := by
  obtain ⟨place, fuel, hfuel, rfl⟩ := h
  rw [List.length_append] at hfuel
  refine ⟨place.afterAll bs, fuel, by omega, ?_⟩
  cases fuel with
  | zero => rfl
  | succ fuel =>
      -- the blanks at the start of the text are dropped along with those in front of it
      have hblanks : (bs ++ text).takeWhile isBlank = bs ++ text.takeWhile isBlank :=
        List.takeWhile_append_of_pos hbs
      have hplace : place.afterAll (bs ++ text.takeWhile isBlank)
          = (place.afterAll bs).afterAll (text.takeWhile isBlank) := List.foldl_append
      have hrest : (bs ++ text).drop (bs ++ text.takeWhile isBlank).length
          = text.drop (text.takeWhile isBlank).length := by
        rw [List.length_append, List.drop_append]
        simp
      simp only [tokensFrom, hblanks, hplace, hrest]

/-- Without blanks in front, the first token is the next one. -/
theorem first (h : Cuts text ts) (hhead : ∀ c ∈ text.head?, isBlank c = false) :
    ∃ place more, ts = (nextToken place text).1 :: more
      ∧ ((nextToken place text).1.stop = none → (nextToken place text).2.length < text.length →
        Cuts (nextToken place text).2 more) := by
  obtain ⟨place, fuel, hfuel, rfl⟩ := h
  have hblanks : text.takeWhile isBlank = [] := by
    cases text with
    | nil => rfl
    | cons c rest => rw [List.takeWhile_cons_of_neg (by simp [hhead c rfl])]
  cases fuel with
  | zero => exact absurd hfuel (Nat.not_lt_zero _)
  | succ fuel =>
      rw [tokensFrom]
      simp only [hblanks, List.length_nil, List.drop_zero]
      refine ⟨place, _, rfl, ?_⟩
      intro hstop hshorter
      refine ⟨(nextToken place text).1.after, fuel, by omega, ?_⟩
      rw [show place.afterAll [] = place from rfl, if_neg (by simp [hstop])]

/-- A token that can be finished, and the tokens of what follows it. -/
theorem token {P : Token → Prop} (h : Cuts text ts) (hhead : ∀ c ∈ text.head?, isBlank c = false)
    (hshorter : rest.length < text.length)
    (hnext : ∀ place, ∃ t, nextToken place text = (t, rest) ∧ t.stop = none ∧ P t) :
    ∃ t more, ts = t :: more ∧ t.stop = none ∧ P t ∧ Cuts rest more := by
  obtain ⟨place, more, rfl, hmore⟩ := h.first hhead
  obtain ⟨t, ht, hstop, hp⟩ := hnext place
  rw [ht] at hmore ⊢
  exact ⟨t, more, rfl, hstop, hp, hmore hstop hshorter⟩

end Cuts

/-- The tokens of one character. -/
def marks : List (Char × Shape) :=
  [('{', .openBrace), ('}', .closeBrace), ('[', .openBracket), (']', .closeBracket), (':', .colon),
    (',', .comma)]

namespace Cuts

variable {text rest : List Char} {ts : List Token}

/-- A mark is a token of its own. -/
theorem mark {c : Char} (h : Cuts (c :: rest) ts) (shape : Shape) (hc : (c, shape) ∈ marks) :
    ∃ t more, ts = t :: more ∧ t.stop = none ∧ t.shape = shape ∧ Cuts rest more := by
  have hall : ∀ m ∈ marks, isBlank m.1 = false := by decide
  refine h.token ?_ (Nat.lt_succ_self _) ?_
  · rintro _ ⟨rfl⟩
    exact hall (c, shape) hc
  · intro place
    simp only [marks, List.mem_cons, Prod.mk.injEq, List.not_mem_nil, or_false] at hc
    rcases hc with ⟨rfl, rfl⟩ | ⟨rfl, rfl⟩ | ⟨rfl, rfl⟩ | ⟨rfl, rfl⟩ | ⟨rfl, rfl⟩ | ⟨rfl, rfl⟩
    all_goals exact ⟨_, rfl, rfl, rfl⟩

/-- A string is one token, with its value if it has one. -/
theorem string {s : Option String} (hs : IsString s text) (h : Cuts (text ++ rest) ts) :
    ∃ t more, ts = t :: more ∧ t.stop = none
      ∧ (t.shape = .string ∧ t.value.toOption = s.map .text) ∧ Cuts rest more := by
  obtain ⟨body, hbody, rfl⟩ := hs
  refine h.token ?_ (by simp; omega) ?_
  · rintro _ ⟨rfl⟩
    decide
  · intro place
    simp only [List.append_assoc, List.cons_append, List.nil_append]
    obtain ⟨after, hrest, hvalue⟩ := scanString_spells hbody
      ((place.afterBytes? 1 ('"' :: (body ++ '"' :: rest))).getD place) none [] rest
    have hmap : ∀ e : Except Fault String, (e.map Json.text).toOption = e.toOption.map .text := by
      intro e
      cases e <;> rfl
    simp only [nextToken, hrest]
    refine ⟨_, rfl, rfl, rfl, ?_⟩
    rw [hmap, hvalue]
    cases s <;> simp

/-- The word `null` is one token. -/
theorem null (h : Cuts ("null".toList ++ rest) ts) :
    ∃ t more, ts = t :: more ∧ t.stop = none
      ∧ (t.shape = .word ∧ t.value.toOption = some .null) ∧ Cuts rest more := by
  refine h.token ?_ (by simp; omega) fun place => ⟨_, rfl, rfl, rfl, rfl⟩
  rintro _ ⟨rfl⟩
  decide

/-- The words `true` and `false` are tokens. -/
theorem flag {b : Bool} (h : Cuts (flagText b ++ rest) ts) :
    ∃ t more, ts = t :: more ∧ t.stop = none
      ∧ (t.shape = .word ∧ t.value.toOption = some (.flag b)) ∧ Cuts rest more := by
  cases b
  all_goals
    refine h.token ?_ (by simp [flagText]; omega) fun place => ⟨_, rfl, rfl, rfl, rfl⟩
    rintro _ ⟨rfl⟩
    decide

/-- At the end of the text one token is left that says so. -/
theorem finish (h : Cuts [] ts) : ∃ t, ts = [t] ∧ t.shape = .finish := by
  obtain ⟨place, fuel, hfuel, rfl⟩ := h
  cases fuel with
  | zero => exact absurd hfuel (Nat.not_lt_zero _)
  | succ fuel => exact ⟨_, rfl, rfl⟩

end Cuts

/-! ## Values -/

/-- A token with a value has this value and no fault. -/
theorem Token.value_of_toOption {t : Token} {v : Json} (h : t.value.toOption = some v) :
    t.value = .ok v := by
  cases hvalue : t.value with
  | error fault => rw [hvalue] at h; cases h
  | ok value => rw [hvalue] at h; cases h; rfl

/-- A token without a value has a fault. -/
theorem Token.value_of_toOption_none {t : Token} (h : t.value.toOption = none) :
    ∃ fault, t.value = .error fault := by
  cases hvalue : t.value with
  | error fault => exact ⟨fault, rfl⟩
  | ok value => rw [hvalue] at h; cases h

/-- Values that are one token. -/
def IsScalar : Json → Prop
  | .null | .flag _ | .text _ => True
  | _ => False

/-- A first token of any other value. -/
def Token.IsForeign (t : Token) : Prop :=
  t.shape ∈ [.number, .openBracket, .openBrace] ∨ t.shape = .string ∧ t.value.toOption = none

/-- A numeral starts with a minus sign or a digit. -/
theorem head_numeral {text : List Char} (h : IsNumeral text) :
    ∃ c rest, text = c :: rest ∧ (c = '-' ∨ c.isDigit = true) := by
  obtain ⟨sign, whole, fraction, exponent, rfl, hsign, ⟨hne, hdigits⟩, -⟩ := h
  simp only [List.mem_cons, List.not_mem_nil, or_false] at hsign
  rcases hsign with rfl | rfl
  · obtain ⟨d, ds, rfl⟩ := List.exists_cons_of_ne_nil hne
    exact ⟨d, _, rfl, Or.inr (hdigits d List.mem_cons_self)⟩
  · exact ⟨'-', _, rfl, Or.inl rfl⟩

/-- Where a numeral starts there is no blank. -/
theorem isBlank_numeral {c : Char} (hc : c = '-' ∨ c.isDigit = true) : isBlank c = false := by
  rw [Bool.eq_false_iff]
  intro hblank
  simp only [isBlank, Bool.or_eq_true, beq_iff_eq] at hblank
  rcases hblank with ((rfl | rfl) | rfl) | rfl
  all_goals exact absurd hc (by decide)

/-- What starts as a numeral is cut off as a number, whatever follows. -/
theorem shape_nextToken_numeral {c : Char} (hc : c = '-' ∨ c.isDigit = true) (place : Place)
    (rest : List Char) : (nextToken place (c :: rest)).1.shape = .number := by
  have htest : (c == '-' || c.isDigit) = true := by simpa using hc
  rw [nextToken]
  · simp only [htest, if_true]
    split <;> rfl
  -- none of the characters that start another token passes the test
  all_goals
    rintro rfl
    exact absurd htest (by decide)

/-- The text of an object starts with a brace. -/
theorem exists_cons_object {ms : List (Option String × Json)} {text : List Char}
    (h : Written (.object ms) text) : ∃ rest, text = '{' :: rest := by
  cases h with
  | emptyObject _ => exact ⟨_, rfl⟩
  | object _ => exact ⟨_, rfl⟩

namespace Cuts

variable {text rest : List Char} {ts : List Token} {v : Json}

/-- The text of a scalar is one token with its value. -/
theorem scalar (hv : v.IsScalar) (hw : Written (.value v) text) (h : Cuts (text ++ rest) ts) :
    ∃ t more, ts = t :: more ∧ t.stop = none
      ∧ (t.shape ∈ [.string, .word] ∧ t.value.toOption = some v) ∧ Cuts rest more := by
  have hwiden : ∀ shape ∈ [Shape.string, .word],
      (∃ t more, ts = t :: more ∧ t.stop = none
        ∧ (t.shape = shape ∧ t.value.toOption = some v) ∧ Cuts rest more) →
      ∃ t more, ts = t :: more ∧ t.stop = none
        ∧ (t.shape ∈ [.string, .word] ∧ t.value.toOption = some v) ∧ Cuts rest more := by
    rintro shape hshape ⟨t, more, hts, hstop, ⟨rfl, hvalue⟩, hmore⟩
    exact ⟨t, more, hts, hstop, ⟨hshape, hvalue⟩, hmore⟩
  cases hw with
  | null => exact hwiden .word (by decide) h.null
  | flag b => exact hwiden .word (by decide) h.flag
  | text hs => exact hwiden .string (by decide) (h.string hs)
  | number hnumber _ => cases v <;> first | exact hnumber.elim | exact hv.elim
  | unreadable _ => exact hv.elim
  | emptyList _ => exact hv.elim
  | list _ => exact hv.elim
  | named _ => exact hv.elim
  | unnamed _ _ => exact hv.elim

/-- The text of any other value starts with a token that no field of a request takes. -/
theorem foreign (hv : ¬v.IsScalar) (hw : Written (.value v) text) (h : Cuts (text ++ rest) ts) :
    ∃ t more, ts = t :: more ∧ t.IsForeign := by
  have hmark : ∀ shape ∈ [Shape.number, .openBracket, .openBrace], ∀ {c cs}, text = c :: cs →
      (c, shape) ∈ marks → ∃ t more, ts = t :: more ∧ t.IsForeign := by
    rintro shape hshape c cs rfl hc
    obtain ⟨t, more, hts, -, rfl, -⟩ := h.mark shape hc
    exact ⟨t, more, hts, Or.inl hshape⟩
  cases hw with
  | null => exact absurd trivial hv
  | flag b => exact absurd trivial hv
  | text hs => exact absurd trivial hv
  | unreadable hs =>
      obtain ⟨t, more, hts, -, hstring, -⟩ := h.string hs
      exact ⟨t, more, hts, Or.inr hstring⟩
  | number _ hnumeral =>
      obtain ⟨c, cs, rfl, hc⟩ := head_numeral hnumeral
      obtain ⟨place, more, hts, -⟩ := h.first (by rintro _ ⟨rfl⟩; exact isBlank_numeral hc)
      exact ⟨_, more, hts, Or.inl (by rw [List.cons_append, shape_nextToken_numeral hc]; simp)⟩
  | emptyList _ => exact hmark .openBracket (by decide) rfl (by decide)
  | list _ => exact hmark .openBracket (by decide) rfl (by decide)
  | named hobject =>
      obtain ⟨cs, rfl⟩ := exists_cons_object hobject
      exact hmark .openBrace (by decide) rfl (by decide)
  | unnamed _ hobject =>
      obtain ⟨cs, rfl⟩ := exists_cons_object hobject
      exact hmark .openBrace (by decide) rfl (by decide)

end Cuts

end Softcode.Json
