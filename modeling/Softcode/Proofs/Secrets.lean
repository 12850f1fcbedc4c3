import Softcode.Security.Scan
import Softcode.Proofs.AlikeLines
import Softcode.Proofs.PatternLanguage

/-!
# Secrets in a script

A scan reports a password, a secret or a key of a service exactly if the script has one
(`secrets_reported`): a name, in any case and not in the middle of a word, with a text in quotes
assigned to it. What counts is said without patterns (`SecretAt`).

The patterns of the three rules have the same parts behind the name (`secretPattern`), and
`Pattern.Fits` takes them apart. Their letters have no case, so the table of case variants comes in:
the only characters outside ASCII that it takes to an ASCII letter are the long s and the kelvin
sign (`mem_caseVariants_iff`), and both belong to words like the letters.
-/

namespace Softcode

/-! ## Case variants of ASCII characters -/

namespace Text

/-- Simple case folding, as far as it leads to ASCII characters. Besides the capitals it takes the
long s and the kelvin sign there. -/
def foldToAscii (c : Char) : Char :=
  if c = '\u017f' then 's' else if c = '\u212a' then 'k' else c.toLower

/-- An ASCII character that folding leaves as it is, and not the zero character. -/
def isFoldedAscii (d : Char) : Bool := 0 < d.toNat && d.toNat < 128 && !d.isUpper

/-- An ASCII character that is no letter. -/
def isSign (d : Char) : Bool := isFoldedAscii d && !d.isAlpha

theorem isUpper_iff {c : Char} : c.isUpper ↔ 65 ≤ c.toNat ∧ c.toNat ≤ 90 := by
  simp [Char.isUpper, UInt32.le_iff_toNat_le]

theorem isFoldedAscii_iff {d : Char} :
    isFoldedAscii d ↔ 0 < d.toNat ∧ d.toNat < 128 ∧ ¬ d.isUpper := by
  simp [isFoldedAscii, and_assoc]

theorem isSign_iff {d : Char} : isSign d ↔ isFoldedAscii d ∧ d.isAlpha = false := by
  simp [isSign]

/-- A distance to a case variant comes from a run of the table that holds the character. -/
theorem exists_run_of_mem_variantDistances {n : Nat} {runs : List CaseRun} {distance : Int}
    (h : distance ∈ variantDistances n runs) :
    ∃ run ∈ runs, run.low ≤ n ∧ n ≤ run.high ∧ distance ∈ run.distances := by
  induction runs with
  | nil => exact absurd h (by simp [variantDistances])
  | cons run runs ih =>
      rw [variantDistances] at h
      split at h
      · exact absurd h List.not_mem_nil
      · rename_i hlow
        split at h
        · rename_i hrun
          simp only [Bool.and_eq_true, decide_eq_true_eq] at hrun
          exact ⟨run, List.mem_cons_self, by omega, hrun.1, h⟩
        · obtain ⟨later, hlater, hfacts⟩ := ih h
          exact ⟨later, List.mem_cons_of_mem _ hlater, hfacts⟩

/-- The runs with variants in ASCII: capitals, small letters, the long s and the kelvin sign. -/
theorem ascii_distances : ∀ run ∈ caseRuns, ∀ distance ∈ run.distances,
    (run.low : Int) + distance < 128 →
      65 ≤ run.low ∧ run.high ≤ 90 ∧ distance = 32
      ∨ 97 ≤ run.low ∧ run.high ≤ 122 ∧ distance = -32
      ∨ run.low = 0x17F ∧ run.high = 0x17F ∧ (distance = -300 ∨ distance = -268)
      ∨ run.low = 0x212A ∧ run.high = 0x212A ∧ (distance = -8415 ∨ distance = -8383) := by
  decide +kernel

/-- The code points of the characters that folding takes to ASCII letters. -/
def letterCodes : List Nat := [0x17F, 0x212A] ++ List.range' 65 26 ++ List.range' 97 26

/-- The fold of each of these letters is a case variant of it and stands in words, and a capital
folds to its small letter. -/
theorem letterCodes_folded : ∀ n ∈ letterCodes,
    foldToAscii (Char.ofNat n) ∈ caseVariants (Char.ofNat n)
      ∧ isWordLetter (Char.ofNat n) = true
      ∧ (n ≤ 90 → foldToAscii (Char.ofNat n) = Char.ofNat (n + 32)) := by
  decide +kernel

theorem mem_letterCodes_iff {n : Nat} :
    n ∈ letterCodes
      ↔ n = 0x17F ∨ n = 0x212A ∨ (65 ≤ n ∧ n ≤ 90) ∨ (97 ≤ n ∧ n ≤ 122) := by
  simp only [letterCodes, List.mem_append, List.mem_range'_1, List.mem_cons, List.not_mem_nil,
    or_false]
  omega

/-- What folding takes to another character it takes to a letter. -/
theorem foldToAscii_eq_or (c : Char) : foldToAscii c = c ∨ c.toNat ∈ letterCodes := by
  rw [mem_letterCodes_iff, foldToAscii]
  split
  · subst c
    exact Or.inr (Or.inl rfl)
  · split
    · subst c
      exact Or.inr (Or.inr (Or.inl rfl))
    · by_cases hupper : c.isUpper
      · exact Or.inr (Or.inr (Or.inr (Or.inl (isUpper_iff.mp hupper))))
      · exact Or.inl (Char.toLower_eq_of_not_isUpper hupper)

/-- Every character has its fold among its case variants. -/
theorem foldToAscii_mem_caseVariants (c : Char) : foldToAscii c ∈ caseVariants c := by
  rcases foldToAscii_eq_or c with hsame | hletter
  · rw [hsame]
    exact List.mem_cons_self
  · obtain ⟨hmem, -⟩ := letterCodes_folded c.toNat hletter
    rwa [Char.ofNat_toNat] at hmem

/-- The character of a number has that number as its code, or code zero. -/
theorem toNat_ofNat_or (n : Nat) : (Char.ofNat n).toNat = n ∨ (Char.ofNat n).toNat = 0 := by
  rw [Char.ofNat]
  split
  · exact Or.inl rfl
  · exact Or.inr rfl

/-- A folded character is its own fold. -/
theorem foldToAscii_of_isFoldedAscii {c : Char} (h : isFoldedAscii c) : foldToAscii c = c := by
  obtain ⟨-, hascii, hupper⟩ := isFoldedAscii_iff.mp h
  have hlong : c ≠ '\u017f' := by
    rintro rfl
    exact absurd hascii (by decide)
  have hkelvin : c ≠ '\u212a' := by
    rintro rfl
    exact absurd hascii (by decide)
  rw [foldToAscii, if_neg hlong, if_neg hkelvin, Char.toLower_eq_of_not_isUpper hupper]

/-- At a distance of the table, an ASCII character that is no capital is what folding leads to. -/
theorem foldToAscii_of_distance {c d : Char} {distance : Int} (hd : isFoldedAscii d)
    (h : distance ∈ variantDistances c.toNat caseRuns)
    (hcode : (c.toNat : Int) + distance = d.toNat) : foldToAscii c = d := by
  obtain ⟨-, hascii, hupper⟩ := isFoldedAscii_iff.mp hd
  rw [isUpper_iff] at hupper
  obtain ⟨run, hrun, hlow, hhigh, hdistance⟩ := exists_run_of_mem_variantDistances h
  have hruns := ascii_distances run hrun distance hdistance (by omega)
  have hcases : (65 ≤ c.toNat ∧ c.toNat ≤ 90 ∧ d.toNat = c.toNat + 32)
      ∨ (c.toNat = 0x17F ∧ d.toNat = 0x73) ∨ (c.toNat = 0x212A ∧ d.toNat = 0x6B) := by
    omega
  rw [← Char.ofNat_toNat c, ← Char.ofNat_toNat d]
  rcases hcases with ⟨hfirst, hlast, hd⟩ | ⟨hc, hd⟩ | ⟨hc, hd⟩
  · rw [hd]
    have hletter := mem_letterCodes_iff.mpr (Or.inr (Or.inr (Or.inl ⟨hfirst, hlast⟩)))
    exact (letterCodes_folded c.toNat hletter).2.2 hlast
  · rw [hc, hd]
    rfl
  · rw [hc, hd]
    rfl

/-- The characters with a given variant in ASCII are those that folding takes there. -/
theorem mem_caseVariants_iff {c d : Char} (hd : isFoldedAscii d) :
    d ∈ caseVariants c ↔ foldToAscii c = d := by
  constructor
  · intro h
    rcases List.mem_cons.mp h with rfl | hvariant
    · exact foldToAscii_of_isFoldedAscii hd
    · obtain ⟨distance, hdistance, hcode⟩ := List.mem_map.mp hvariant
      refine foldToAscii_of_distance hd hdistance ?_
      -- a code point that no character has would be read as the zero character
      obtain ⟨hpos, -⟩ := isFoldedAscii_iff.mp hd
      rcases toNat_ofNat_or ((c.toNat : Int) + distance).toNat with hsame | hzero
      · rw [hcode] at hsame
        omega
      · rw [hcode] at hzero
        omega
  · rintro rfl
    exact foldToAscii_mem_caseVariants c

/-- A sign of ASCII is in no other case. -/
theorem foldToAscii_eq_iff {c d : Char} (hd : isSign d) : foldToAscii c = d ↔ c = d := by
  obtain ⟨hascii, halpha⟩ := isSign_iff.mp hd
  constructor
  · intro h
    rw [foldToAscii] at h
    split at h
    · subst h
      exact absurd halpha (by decide)
    · split at h
      · subst h
        exact absurd halpha (by decide)
      · have hbeq := toLower_beq halpha c
        rw [h, beq_self_eq_true] at hbeq
        exact beq_iff_eq.mp hbeq.symm
  · rintro rfl
    exact foldToAscii_of_isFoldedAscii hascii

/-- Whatever folding takes to an ASCII letter belongs to words. -/
theorem isWordLetter_of_isAlpha_foldToAscii {c : Char} (h : (foldToAscii c).isAlpha = true) :
    isWordLetter c = true := by
  have hletter : c.toNat ∈ letterCodes := by
    rcases foldToAscii_eq_or c with hsame | hletter
    · rw [hsame] at h
      exact mem_letterCodes_iff.mpr (Or.inr (Or.inr (toNat_of_isAlpha h)))
    · exact hletter
  obtain ⟨-, hword, -⟩ := letterCodes_folded c.toNat hletter
  rwa [Char.ofNat_toNat] at hword

end Text

/-! ## Patterns without case -/

namespace Pattern

open Text

variable {front u back : List Char}

namespace CharSet

variable {c d : Char} {s t : CharSet}

theorem mem_single : (single d).mem c = (decide (d ≤ c) && decide (c ≤ d)) := rfl

theorem mem_union : (union s t).mem c = (s.mem c || t.mem c) := rfl

theorem mem_compl : (compl s).mem c = !s.mem c := rfl

theorem mem_single_iff : (single d).mem c = true ↔ c = d := by
  rw [mem_single, Bool.and_eq_true, decide_eq_true_eq, decide_eq_true_eq]
  constructor
  · rintro ⟨hlow, hhigh⟩
    exact Char.le_antisymm hhigh hlow
  · rintro rfl
    exact ⟨Char.le_refl c, Char.le_refl c⟩

/-- The set of several characters. -/
def oneOf (ds : List Char) : CharSet := ds.foldl (fun s d => union s (single d)) none

/-- Adding characters to a set one by one adds exactly those characters. -/
theorem mem_foldl_union_iff {ds : List Char} :
    (ds.foldl (fun s d => union s (single d)) s).mem c = true ↔ s.mem c = true ∨ c ∈ ds := by
  induction ds generalizing s with
  | nil => simp
  | cons d ds ih =>
      rw [List.foldl_cons, ih, mem_union, Bool.or_eq_true, mem_single_iff, List.mem_cons, or_assoc]

/-- The set of some characters holds exactly those. -/
theorem mem_oneOf_iff {ds : List Char} : (oneOf ds).mem c = true ↔ c ∈ ds := by
  rw [oneOf, mem_foldl_union_iff, or_iff_right]
  exact Bool.false_ne_true

theorem mem_compl_iff : (compl s).mem c = true ↔ ¬ s.mem c = true := by
  rw [mem_compl, Bool.not_eq_true', Bool.not_eq_true]

theorem mem_folded_iff :
    (folded s).mem c = true ↔ ∃ v ∈ caseVariants c, s.mem v = true := List.any_eq_true

/-- The caseless set of one folded character holds the characters that fold to it. -/
theorem mem_folded_single_iff (hd : isFoldedAscii d) :
    (folded (single d)).mem c = true ↔ foldToAscii c = d := by
  simp only [mem_folded_iff, mem_single_iff, exists_eq_right, mem_caseVariants_iff hd]

/-- ASCII signs as they are. -/
theorem mem_folded_oneOf_iff {ds : List Char} (hds : ds.all isSign) :
    (folded (oneOf ds)).mem c = true ↔ c ∈ ds := by
  simp only [mem_folded_iff, mem_oneOf_iff]
  constructor
  · rintro ⟨d, hvariant, hd⟩
    have hsign := List.all_eq_true.mp hds d hd
    rw [mem_caseVariants_iff (isSign_iff.mp hsign).1, foldToAscii_eq_iff hsign] at hvariant
    exact hvariant ▸ hd
  · exact fun hc => ⟨c, List.mem_cons_self, hc⟩

end CharSet

/-- A character in any case. -/
def letter (d : Char) : Pattern := set (.folded (.single d))

/-- The caseless pattern of a word fits the texts that fold to the word. -/
theorem fits_letters_iff {word : List Char} (hword : word.all isFoldedAscii) :
    Fits (sequence (word.map letter)) front u back ↔ u.map foldToAscii = word := by
  induction word generalizing front u with
  | nil => rw [List.map_nil, sequence, fits_empty_iff, List.map_eq_nil_iff]
  | cons d word ih =>
      rw [List.all_cons, Bool.and_eq_true] at hword
      obtain ⟨hd, hmore⟩ := hword
      simp only [List.map_cons, fits_sequence_cons_iff, ih hmore, letter, fits_set_iff,
        CharSet.mem_folded_single_iff hd]
      constructor
      · rintro ⟨-, w, rfl, ⟨c, rfl, rfl⟩, rfl⟩
        rfl
      · intro h
        obtain ⟨c, w, rfl, hc, hw⟩ := List.map_eq_cons_iff.mp h
        exact ⟨[c], w, rfl, ⟨c, rfl, hc⟩, hw⟩

/-- A place is outside of words when there is no character or it is no word letter. -/
theorem inWord_eq_false_iff {c : Option Char} :
    inWord c = false ↔ ∀ d ∈ c, isWordLetter d = false := by
  cases c <;> simp [inWord]

end Pattern

/-! ## What a secret is -/

namespace Security

open Text Pattern

/-- An equals sign or a colon, with blanks around it or without, and a text in quotes. The text is
not empty, and it has no quote and no line end in it. -/
def IsAssignment (s : List Char) : Prop :=
  ∃ gap sign gap' value, s = gap ++ [sign] ++ gap' ++ ['"'] ++ value ++ ['"']
    ∧ (∀ c ∈ gap, isBlank c = true) ∧ sign ∈ ['=', ':'] ∧ (∀ c ∈ gap', isBlank c = true)
    ∧ value ≠ [] ∧ ∀ c ∈ value, c ∉ ['"', '\r', '\n']

/-- The word, in any case. -/
def Spells (word : String) (name : List Char) : Prop := name.map foldToAscii = word.toList

/-- The words api and key, joined or with a sign between them. -/
def IsApiKey (name : List Char) : Prop :=
  ∃ api link key, name = api ++ link ++ key ∧ Spells "api" api ∧ link ∈ [[], ['_'], ['-']]
    ∧ Spells "key" key

/-- Behind `front` a text has a name, which is not in the middle of a word, and an assignment to it.
-/
structure SecretAt (IsName : List Char → Prop) (text front secret : List Char) : Prop where
  inText : front ++ secret <+: text
  startsWord : ∀ c ∈ front.getLast?, isWordLetter c = false
  assigns : ∃ name assignment, secret = name ++ assignment ∧ IsName name ∧ IsAssignment assignment

/-! ## The patterns of the rules -/

/-- The parts of the pattern of an assignment. -/
def assignmentPatterns : List Pattern :=
  [.star true (.set .blank), .set (.folded (.oneOf ['=', ':'])), .star true (.set .blank),
    .letter '"', .plus true (.set (.compl (.folded (.oneOf ['"', '\r', '\n'])))), .letter '"']

/-- The pattern of a rule for secrets with a name. -/
def secretPattern (name : List Pattern) : Pattern :=
  .sequence (.anchor .wordBoundary :: (name ++ assignmentPatterns))

/-- The parts of the pattern of the name of a key. -/
def apiKeyPatterns : List Pattern :=
  "api".toList.map letter
    ++ .opt true (.set (.folded (.oneOf ['_', '-']))) :: "key".toList.map letter

theorem pattern?_sensitiveRules :
    passwordRule.pattern? ofText? = some (secretPattern ("password".toList.map letter))
      ∧ secretsRule.pattern? ofText? = some (secretPattern ("secret".toList.map letter))
      ∧ apiKeyRule.pattern? ofText? = some (secretPattern apiKeyPatterns) := by
  decide +kernel

variable {front u back : List Char}

/-- The pattern of a double quote fits a double quote only. -/
theorem fits_quote_iff : Fits (.letter '"') front u back ↔ u = ['"'] := by
  have hquote : isSign '"' := by decide
  simp only [letter, fits_set_iff, CharSet.mem_folded_single_iff (isSign_iff.mp hquote).1,
    foldToAscii_eq_iff hquote, exists_eq_right]

/-- The caseless class of some signs fits each of the signs and nothing else. -/
theorem fits_sign_iff {ds : List Char} (hds : ds.all isSign) :
    Fits (.set (.folded (.oneOf ds))) front u back ↔ ∃ d ∈ ds, u = [d] := by
  simp only [fits_set_iff, CharSet.mem_folded_oneOf_iff hds, and_comm]

/-- The pattern of the value fits what is not empty and has no quote and no line break. -/
theorem fits_value_iff :
    Fits (.plus true (.set (.compl (.folded (.oneOf ['"', '\r', '\n']))))) front u back
      ↔ u ≠ [] ∧ ∀ c ∈ u, c ∉ ['"', '\r', '\n'] := by
  have hsigns : List.all ['"', '\r', '\n'] isSign := by decide
  simp only [fits_plus_set_iff, CharSet.mem_compl_iff, CharSet.mem_folded_oneOf_iff hsigns]

/-- The pattern behind the name fits the assignments. -/
theorem fits_assignment_iff :
    Fits (.sequence assignmentPatterns) front u back ↔ IsAssignment u := by
  have hsigns : List.all ['=', ':'] isSign := by decide
  simp only [assignmentPatterns, fits_sequence_cons_iff, fits_star_set_iff, fits_sign_iff hsigns,
    fits_quote_iff, fits_value_iff, fits_sequence_nil_iff]
  constructor
  · rintro ⟨gap, -, rfl, hgap, -, -, rfl, ⟨sign, hsign, rfl⟩, gap', -, rfl, hgap', -, -, rfl, rfl,
      value, -, rfl, ⟨hne, hvalue⟩, -, -, rfl, rfl, rfl⟩
    exact ⟨gap, sign, gap', value, by simp, hgap, hsign, hgap', hne, hvalue⟩
  · rintro ⟨gap, sign, gap', value, rfl, hgap, hsign, hgap', hne, hvalue⟩
    simp only [List.append_assoc]
    exact ⟨gap, _, rfl, hgap, [sign], _, rfl, ⟨sign, hsign, rfl⟩, gap', _, rfl, hgap', ['"'], _,
      rfl, rfl, value, _, rfl, ⟨hne, hvalue⟩, ['"'], [], rfl, rfl, rfl⟩

/-- The pattern of an API key's name fits the spellings of that name. -/
theorem fits_apiKey_iff : Fits (.sequence apiKeyPatterns) front u back ↔ IsApiKey u := by
  have hapi : List.all "api".toList isFoldedAscii := by decide
  have hkey : List.all "key".toList isFoldedAscii := by decide
  have hsigns : List.all ['_', '-'] isSign := by decide
  simp only [apiKeyPatterns, fits_sequence_append_iff, fits_sequence_cons_iff,
    fits_letters_iff hapi, fits_letters_iff hkey, fits_opt_iff, fits_sign_iff hsigns]
  constructor
  · rintro ⟨api, -, rfl, hapi, link, key, rfl, hlink, hkey⟩
    refine ⟨api, link, key, (List.append_assoc _ _ _).symm, hapi, ?_, hkey⟩
    rcases hlink with rfl | ⟨d, hd, rfl⟩
    · exact List.mem_cons_self
    · simpa using hd
  · rintro ⟨api, link, key, rfl, hapi, hlink, hkey⟩
    refine ⟨api, link ++ key, List.append_assoc _ _ _, hapi, link, key, rfl, ?_, hkey⟩
    simpa using hlink

/-! ## Names -/

/-- The parts of a pattern match just the names, and these start with characters that belong to
words. -/
structure MatchNames (parts : List Pattern) (IsName : List Char → Prop) : Prop where
  fits_iff : ∀ {front u back}, Fits (.sequence parts) front u back ↔ IsName u
  starts : ∀ {name}, IsName name → ∃ c rest, name = c :: rest ∧ isWordLetter c = true

/-- The caseless letters of a word match the names that spell it. -/
theorem matchNames_word {word : String} (hword : word.toList.all isFoldedAscii)
    (hfirst : word.toList.head?.any Char.isAlpha) :
    MatchNames (word.toList.map letter) (Spells word) where
  fits_iff := fits_letters_iff hword
  starts := by
    intro name hname
    rw [← hname, List.head?_map, Option.any_map] at hfirst
    cases name with
    | nil => exact absurd hfirst (by simp)
    | cons c rest => exact ⟨c, rest, rfl, isWordLetter_of_isAlpha_foldToAscii hfirst⟩

/-- The pattern of an API key's name matches those names. -/
theorem matchNames_apiKey : MatchNames apiKeyPatterns IsApiKey where
  fits_iff := fits_apiKey_iff
  starts := by
    rintro name ⟨api, link, key, rfl, hapi, -, -⟩
    obtain ⟨c, rest, rfl, hc⟩ := (matchNames_word (by decide) (by decide)).starts hapi
    exact ⟨c, rest ++ link ++ key, by simp, hc⟩

variable {parts : List Pattern} {IsName : List Char → Prop}

/-- A pattern of a rule for secrets matches a secret with its name. The name starts with a character
that belongs to words, so the boundary before it only asks for none before it. -/
theorem fits_secretPattern_iff (hparts : MatchNames parts IsName) :
    Fits (secretPattern parts) front u back
      ↔ (∀ c ∈ front.getLast?, isWordLetter c = false)
        ∧ ∃ name assignment, u = name ++ assignment ∧ IsName name ∧ IsAssignment assignment := by
  have hboundary : ∀ {name after : List Char}, IsName name →
      (Anchor.wordBoundary.holds front.getLast? (name ++ after).head? = true
        ↔ ∀ c ∈ front.getLast?, isWordLetter c = false) := by
    intro name after hname
    obtain ⟨c, rest, rfl, hc⟩ := hparts.starts hname
    rw [Anchor.holds, ← inWord_eq_false_iff]
    simp [inWord, hc]
  simp only [secretPattern, fits_sequence_cons_iff, fits_sequence_append_iff, fits_anchor_iff,
    hparts.fits_iff, fits_assignment_iff]
  constructor
  · rintro ⟨-, w, rfl, ⟨rfl, hholds⟩, name, assignment, rfl, hname, hassignment⟩
    rw [List.append_assoc, hboundary hname] at hholds
    exact ⟨hholds, name, assignment, rfl, hname, hassignment⟩
  · rintro ⟨hbefore, name, assignment, rfl, hname, hassignment⟩
    refine ⟨[], name ++ assignment, rfl, ⟨rfl, ?_⟩, name, assignment, rfl, hname, hassignment⟩
    rwa [List.append_assoc, hboundary hname]

/-- The pattern of a rule occurs where a secret of that name stands. -/
theorem occursAt_secretPattern_iff (hparts : MatchNames parts IsName)
    {text front secret : List Char} :
    (secretPattern parts).OccursAt text front secret ↔ SecretAt IsName text front secret := by
  simp only [OccursAt, fits_secretPattern_iff hparts]
  constructor
  · rintro ⟨back, htext, hstarts, hassigns⟩
    exact ⟨⟨back, htext.symm⟩, hstarts, hassigns⟩
  · rintro ⟨⟨back, htext⟩, hstarts, hassigns⟩
    exact ⟨back, htext.symm, hstarts, hassigns⟩

theorem IsAssignment.ne_nil {s : List Char} (h : IsAssignment s) : s ≠ [] := by
  obtain ⟨gap, sign, gap', value, rfl, -⟩ := h
  simp

/-- A secret is never empty. -/
theorem SecretAt.ne_nil {text front secret : List Char} (h : SecretAt IsName text front secret) :
    secret ≠ [] := by
  obtain ⟨name, assignment, rfl, -, hassignment⟩ := h.assigns
  exact List.append_ne_nil_of_right_ne_nil name hassignment.ne_nil

/-- The pattern of a rule does not fit the empty text, so its matches can be counted one by one. -/
theorem not_fits_secretPattern_nil (hparts : MatchNames parts IsName) (front back : List Char) :
    ¬ Fits (secretPattern parts) front [] back := by
  intro hfits
  obtain ⟨-, name, assignment, hnil, -, hassignment⟩ := (fits_secretPattern_iff hparts).mp hfits
  exact hassignment.ne_nil (List.append_eq_nil_iff.mp hnil.symm).2

/-! ## Findings for secrets -/

/-- The identifiers of the rules for secrets. -/
def sensitiveIds : List String := ["SENSITIVE-PASSWORD", "SENSITIVE-SECRET", "SENSITIVE-API-KEY"]

/-- A finding carries the id of the rule that reports it. -/
theorem ruleId_of_mem_findings {read : Reader} {rule : SecurityRule} {index : LineIndex}
    {totalLines : Nat} {f : SecurityFinding} (h : f ∈ rule.findings read index totalLines) :
    f.ruleId = rule.id := by
  rw [SecurityRule.findings] at h
  split at h
  · exact absurd h List.not_mem_nil
  · obtain ⟨span, -, rfl⟩ := List.mem_map.mp h
    rfl

/-- If no other rule has the identifier of a rule for secrets, the findings with it are those of
that rule. No dialect takes the rule away. -/
theorem mem_scan_iff {read : Reader} {c : Context} {rules : List SecurityRule}
    {rule : SecurityRule} {f : SecurityFinding}
    (hrules : ∀ other ∈ rules, other.id ∉ sensitiveIds) (hrule : rule ∈ sensitiveRules) :
    f ∈ scan read c rules ∧ f.ruleId = rule.id
      ↔ f ∈ rule.findings read (LineIndex.build c.text) c.totalLines := by
  have hids : sensitiveRules.map (·.id) = sensitiveIds := rfl
  have hnodup : (sensitiveRules.map (·.id)).Nodup := by decide
  constructor
  · rintro ⟨hscan, hid⟩
    obtain ⟨other, hother, hf⟩ := List.mem_flatMap.mp hscan
    have hsame : other.id = rule.id := (ruleId_of_mem_findings hf).symm.trans hid
    rcases List.mem_append.mp hother with happlies | hsensitive
    · refine absurd ?_ (hrules other (List.mem_filter.mp happlies).1)
      rw [hsame, ← hids]
      exact List.mem_map_of_mem hrule
    · rwa [← List.inj_on_of_nodup_map hnodup hsensitive hrule hsame]
  · intro hf
    refine ⟨List.mem_flatMap.mpr ⟨rule, ?_, hf⟩, ruleId_of_mem_findings hf⟩
    exact List.mem_append_right _ hrule

/-- The findings with an identifier are reports of secrets with such a name. -/
structure ReportsSecrets (read : Reader) (c : Context) (rules : List SecurityRule) (id : String)
    (IsName : List Char → Prop) : Prop where
  /-- there is a finding exactly if there is a secret -/
  reported : (∃ f ∈ scan read c rules, f.ruleId = id)
    ↔ ∃ front secret, SecretAt IsName c.text front secret
  /-- each finding points at a secret -/
  located : ∀ f ∈ scan read c rules, f.ruleId = id →
    ∃ front secret, SecretAt IsName c.text front secret ∧ f.PointsBehind c front
  /-- a secret that no finding points at starts inside one with a finding -/
  covered : ∀ front secret, SecretAt IsName c.text front secret →
    ∃ f ∈ scan read c rules, f.ruleId = id ∧ ∃ front' secret',
      SecretAt IsName c.text front' secret' ∧ f.PointsBehind c front'
        ∧ byteSize front' ≤ byteSize front ∧ byteSize front < byteSize (front' ++ secret')

section Findings

variable {read : Reader} {c : Context} {rule : SecurityRule}

/-- Where a rule for secrets finds something, a secret starts, and the finding points at it. -/
theorem exists_secretAt_of_mem_spans (rule : SecurityRule) (hparts : MatchNames parts IsName)
    {s : Span} (hs : s ∈ (secretPattern parts).spans c.text) :
    ∃ front secret, SecretAt IsName c.text front secret
      ∧ (rule.finding (LineIndex.build c.text) (max c.totalLines 1) s.start).PointsBehind c front
      ∧ s = ⟨byteSize front, byteSize (front ++ secret)⟩ := by
  obtain ⟨front, secret, hoccurs, rfl⟩ := exists_occursAt_of_mem_spans hs
  have hsecret := (occursAt_secretPattern_iff hparts).mp hoccurs
  obtain ⟨back, htext, -⟩ := hoccurs
  rw [List.append_assoc] at htext
  refine ⟨front, secret, hsecret, rule.finding_pointsBehind htext ?_, rfl⟩
  exact List.append_ne_nil_of_left_ne_nil hsecret.ne_nil back

/-- Each finding of such a rule points at a secret of the text. -/
theorem exists_secretAt_of_mem_findings (hparts : MatchNames parts IsName)
    (hpattern : rule.pattern? read = some (secretPattern parts)) {f : SecurityFinding}
    (hf : f ∈ rule.findings read (LineIndex.build c.text) c.totalLines) :
    ∃ front secret, SecretAt IsName c.text front secret ∧ f.PointsBehind c front := by
  rw [SecurityRule.findings_of_pattern? hpattern] at hf
  obtain ⟨s, hs, rfl⟩ := List.mem_map.mp hf
  obtain ⟨front, secret, hsecret, hpoints, -⟩ := exists_secretAt_of_mem_spans rule hparts hs
  exact ⟨front, secret, hsecret, hpoints⟩

/-- A secret has a finding, or it starts inside one that has. -/
theorem SecretAt.exists_finding (hparts : MatchNames parts IsName)
    (hpattern : rule.pattern? read = some (secretPattern parts)) {front secret : List Char}
    (h : SecretAt IsName c.text front secret) :
    ∃ f ∈ rule.findings read (LineIndex.build c.text) c.totalLines, ∃ front' secret',
      SecretAt IsName c.text front' secret' ∧ f.PointsBehind c front'
        ∧ byteSize front' ≤ byteSize front ∧ byteSize front < byteSize (front' ++ secret') := by
  have hoccurs := (occursAt_secretPattern_iff hparts).mpr h
  obtain ⟨s, hs, hstart, hstop⟩ := hoccurs.exists_span (not_fits_secretPattern_nil hparts)
  obtain ⟨front', secret', hsecret, hpoints, rfl⟩ := exists_secretAt_of_mem_spans rule hparts hs
  rw [SecurityRule.findings_of_pattern? hpattern]
  exact ⟨_, List.mem_map_of_mem hs, front', secret', hsecret, hpoints, hstart, hstop⟩

/-- Where no rule of the catalogue takes the id of a built-in one, the built-in rule alone decides
which secrets are reported under it. -/
theorem reportsSecrets {rules : List SecurityRule}
    (hrules : ∀ other ∈ rules, other.id ∉ sensitiveIds) (hrule : rule ∈ sensitiveRules)
    (hparts : MatchNames parts IsName)
    (hpattern : rule.pattern? read = some (secretPattern parts)) :
    ReportsSecrets read c rules rule.id IsName where
  reported := by
    constructor
    · rintro ⟨f, hf, hid⟩
      have hmem := (mem_scan_iff hrules hrule).mp ⟨hf, hid⟩
      obtain ⟨front, secret, hsecret, -⟩ := exists_secretAt_of_mem_findings hparts hpattern hmem
      exact ⟨front, secret, hsecret⟩
    · rintro ⟨front, secret, hsecret⟩
      obtain ⟨f, hmem, -⟩ := hsecret.exists_finding hparts hpattern
      exact ⟨f, (mem_scan_iff hrules hrule).mpr hmem⟩
  located := by
    intro f hf hid
    have hmem := (mem_scan_iff hrules hrule).mp ⟨hf, hid⟩
    exact exists_secretAt_of_mem_findings hparts hpattern hmem
  covered := by
    intro front secret hsecret
    obtain ⟨f, hmem, hcovers⟩ := hsecret.exists_finding hparts hpattern
    obtain ⟨hf, hid⟩ := (mem_scan_iff hrules hrule).mpr hmem
    exact ⟨f, hf, hid, hcovers⟩

end Findings

/-- **No secret is missed.** Whatever the text, the dialect and the rules of the catalogue, as long
as none of these has the identifier of a rule for secrets: a scan reports a password exactly if the
text has the word in any case, not in the middle of a word, with a text in quotes assigned to it.
Each finding points at the start of one, and one that has no finding of its own starts inside one
that has. The same holds of secrets and of keys of services. -/
theorem secrets_reported (c : Context) (rules : List SecurityRule)
    (h : ∀ rule ∈ rules, rule.id ∉ sensitiveIds) :
    ReportsSecrets ofText? c rules "SENSITIVE-PASSWORD" (Spells "password")
      ∧ ReportsSecrets ofText? c rules "SENSITIVE-SECRET" (Spells "secret")
      ∧ ReportsSecrets ofText? c rules "SENSITIVE-API-KEY" IsApiKey := by
  have hpassword : MatchNames ("password".toList.map letter) (Spells "password") :=
    matchNames_word (by decide) (by decide)
  have hsecret : MatchNames ("secret".toList.map letter) (Spells "secret") :=
    matchNames_word (by decide) (by decide)
  obtain ⟨hpassword?, hsecret?, hkey?⟩ := pattern?_sensitiveRules
  refine ⟨?_, ?_, ?_⟩
  · exact reportsSecrets h (by simp [sensitiveRules]) hpassword hpassword?
  · exact reportsSecrets h (by simp [sensitiveRules]) hsecret hsecret?
  · exact reportsSecrets h (by simp [sensitiveRules]) matchNames_apiKey hkey?

/-- A long s and a kelvin sign in names, a name in the middle of a word, an empty text in quotes,
and a password that starts inside another one, next to a rule for another dialect and one that
cannot be read. -/
theorem secrets_reported_in_any_case :
    ∃ (c : Context) (rules : List SecurityRule), (∀ rule ∈ rules, rule.id ∉ sensitiveIds)
      ∧ (scan ofText? c rules).map (fun f => (f.ruleId, f.line, f.column))
        = [("SENSITIVE-PASSWORD", 1, 15), ("SENSITIVE-API-KEY", 2, 3)]
      ∧ ReportsSecrets ofText? c rules "SENSITIVE-PASSWORD" (Spells "password")
      ∧ ReportsSecrets ofText? c rules "SENSITIVE-API-KEY" IsApiKey := by
  let c : Context :=
    { text := "xpassword=\"a\" PA\u017fSWORD : \"password=\"b\"\n".toList
        ++ "& Api-\u212aey\t= \"k\" secret:\"\"".toList
      dialect := some { id := "pennmush", name := "PennMUSH" } }
  let rules : List SecurityRule :=
    [{ id := "other", pattern := "password", risk := .high, category := "", recommendation := "",
       dialects := ["tinymux"] },
     { id := "unread", pattern := "(", risk := .high, category := "", recommendation := "" }]
  have hrules : ∀ rule ∈ rules, rule.id ∉ sensitiveIds := by decide
  obtain ⟨hpassword, -, hkey⟩ := secrets_reported c rules hrules
  exact ⟨c, rules, hrules, by decide +kernel, hpassword, hkey⟩

end Security

end Softcode
