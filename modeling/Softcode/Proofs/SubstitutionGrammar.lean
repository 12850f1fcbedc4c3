import Softcode.Proofs.AlikeLines
import Softcode.Proofs.LineEdits

/-!
# The grammar of substitutions

`Line.substitutions` walks over the glyphs of a line and looks ahead from every structural `%`. Here
it is shown to be the lexer of a grammar that knows nothing of roles. The maximal runs of structural
characters (`codeRuns`) are lexed one by one. `Refers` says how a reference is written behind its
`%`, and `Lexes` how a run is cut: at the left end stands a reference, a `%` with a character that
starts none, or a character to pass over. Every run has exactly one lexing (`existsUnique_lexes`),
and the walk over a line finds the references of these lexings in order (`exists_lexed`). The
lookahead never sees beyond a run because the character behind it is not structural.
-/

namespace Softcode.Line

/-- A reference in a run: the column of its `%`, and how it is written. -/
structure Token where
  column : Nat
  lexeme : List Char
  reference : Reference
  deriving DecidableEq, Repr

namespace Token

/-- What the walk reports about a token. -/
def substitution (t : Token) : Substitution := ⟨t.column, t.reference⟩

/-- The column after the last character of a token. -/
def stop (t : Token) : Nat := t.column + t.lexeme.length

end Token

/-- The letter that stands for a register. -/
def IsRegisterMark (c : Char) : Prop := c = 'q' ∨ c = 'Q'

/-- How a reference is written behind its `%`, and what may come after it in the run: a number goes
on as long as there are digits, and a name without its `>` as long as the run does. -/
inductive Refers : List Char → Reference → List Char → Prop where
  | positional {digits after : List Char} : digits ≠ [] → (∀ d ∈ digits, d.isDigit = true) →
      (∀ d ∈ after.head?, d.isDigit = false) →
      Refers digits (.positional (min (Text.decimalValue digits) (2 ^ 64 - 1))) after
  | closed {mark : Char} {name after : List Char} : IsRegisterMark mark → '>' ∉ name →
      Refers (mark :: '<' :: (name ++ ['>'])) (.named (String.ofList name) true) after
  | unclosed {mark : Char} {name : List Char} : IsRegisterMark mark → '>' ∉ name →
      Refers (mark :: '<' :: name) (.named (String.ofList name) false) []
  | short {mark register : Char} {after : List Char} : IsRegisterMark mark →
      register.isAlphanum = true → Refers [mark, register] (.short register.toLower) after

/-- The lexing of a run that starts at a column, from left to right. -/
inductive Lexes : Nat → List Char → List Token → Prop where
  | nil {column : Nat} : Lexes column [] []
  | token {column : Nat} {body after : List Char} {reference : Reference} {tokens : List Token} :
      Refers body reference after → Lexes (column + 1 + body.length) after tokens →
      Lexes column ('%' :: (body ++ after)) (⟨column, '%' :: body, reference⟩ :: tokens)
  /-- a `%` and a character with which no reference starts -/
  | pair {column : Nat} {c : Char} {rest : List Char} {tokens : List Token} :
      (∀ body reference after, Refers body reference after → c :: rest ≠ body ++ after) →
      Lexes (column + 2) rest tokens → Lexes column ('%' :: c :: rest) tokens
  /-- any other character, also a `%` at the end of the run -/
  | skip {column : Nat} {c : Char} {rest : List Char} {tokens : List Token} :
      c ≠ '%' ∨ rest = [] → Lexes (column + 1) rest tokens → Lexes column (c :: rest) tokens

/-- The maximal runs of structural characters among glyphs of which the first has column `first`,
each with the column where it starts. -/
def codeRunsFrom (first : Nat) (gs : List Glyph) : List (Nat × List Char) :=
  ((gs.zipIdx first).splitOnP fun place => !place.1.isCode).filterMap fun run =>
    run.head?.map fun place => (place.2, chars (run.map Prod.fst))

/-- The maximal runs of structural characters of a line. -/
def codeRuns (gs : List Glyph) : List (Nat × List Char) := codeRunsFrom 1 gs

/-! ## What the walk sees behind a `%` -/

/-- A run ends where the line does or before a glyph that is not structural. -/
def EndsRun (rest : List Glyph) : Prop := ∀ g ∈ rest.head?, g.isCode = false

theorem endsRun_nil : EndsRun [] := by simp [EndsRun]

theorem endsRun_cons {g : Glyph} (h : g.isCode = false) (rest : List Glyph) :
    EndsRun (g :: rest) := by
  simpa [EndsRun] using h

/-- Behind the letter that stands for a register, the walk looks for one. -/
theorem referenceAt_mark {mark : Char} (hmark : IsRegisterMark mark) (gs : List Glyph) :
    referenceAt (⟨mark, .code⟩ :: gs) = registerAt gs := by
  rw [referenceAt_cons]
  rcases hmark with rfl | rfl <;> rfl

section Lookahead

variable {rest : List Glyph} (hrest : EndsRun rest)

include hrest

/-- Looking for structural characters goes no further than the run. -/
theorem takeWhile_asCode_append {p : Char → Bool} {body after : List Char}
    (hbody : ∀ c ∈ body, p c = true) (hafter : ∀ c ∈ after.head?, p c = false) :
    (asCode (body ++ after) ++ rest).takeWhile (fun g => g.isCode && p g.char) = asCode body := by
  rw [asCode_append, List.append_assoc, List.takeWhile_append_of_pos]
  · cases after with
    | nil =>
        cases rest with
        | nil => simp [asCode]
        | cons g rest => simp [asCode, hrest g rfl]
    | cons c after => simp [asCode_cons, hafter c rfl]
  · intro g hg
    obtain ⟨c, hc, rfl⟩ := List.mem_map.mp hg
    exact hbody c hc

/-- No structural character follows the end of a run. -/
theorem isCodeChar_head?_of_endsRun (c : Char) : rest.head?.any (·.isCodeChar c) = false := by
  cases rest with
  | nil => rfl
  | cons g rest => simp [Glyph.isCodeChar, hrest g rfl]

/-- Nothing is referred to behind the end of a run. -/
theorem referenceAt_of_endsRun : referenceAt rest = (none, 0) := by
  cases rest with
  | nil => rfl
  | cons g rest => simp [referenceAt, hrest g rfl]

/-- The name of a register goes up to its `>`, or through the run if there is none. -/
theorem registerAt_named {name : List Char} (hname : '>' ∉ name) (after : List Char)
    (hafter : after.head? = none ∨ after.head? = some '>') :
    registerAt (asCode ('<' :: (name ++ after)) ++ rest)
      = (some (.named (String.ofList name) after.head?.isSome),
          name.length + if after.head?.isSome then 3 else 2) := by
  have hread : (asCode (name ++ after) ++ rest).takeWhile inRegisterName = asCode name := by
    refine takeWhile_asCode_append hrest (p := (· != '>')) ?_ ?_
    · intro c hc
      exact bne_iff_ne.mpr (ne_of_mem_of_not_mem hc hname)
    · intro c hc
      rcases hafter with hnone | hsome
      · exact absurd (hc.symm.trans hnone) (by simp)
      · rw [Option.some.inj (hc.symm.trans hsome)]
        rfl
  have hdrop : (asCode (name ++ after) ++ rest).drop name.length = asCode after ++ rest := by
    rw [asCode_append, List.append_assoc]
    exact List.drop_left' (length_asCode name)
  have hclosed : (asCode after ++ rest).head?.any (·.isCodeChar '>') = after.head?.isSome := by
    rcases hafter with hnone | hsome
    · rw [List.head?_eq_none_iff.mp hnone]
      exact isCodeChar_head?_of_endsRun hrest '>'
    · obtain ⟨more, rfl⟩ := List.head?_eq_some_iff.mp hsome
      rfl
  have hstart : (⟨'<', .code⟩ : Glyph).isCodeChar '<' = true := rfl
  rw [asCode_cons, List.cons_append, registerAt, if_pos hstart]
  simp only [hread, length_asCode, hdrop, hclosed, chars_asCode]

/-- The walk reads every way in which a reference can be written. -/
theorem referenceAt_of_refers {body after : List Char} {reference : Reference}
    (h : Refers body reference after) :
    referenceAt (asCode (body ++ after) ++ rest) = (some reference, body.length) := by
  cases h with
  | positional hne hdigits hafter =>
      have hread : (asCode (body ++ after) ++ rest).takeWhile Glyph.isCodeDigit = asCode body :=
        takeWhile_asCode_append hrest hdigits hafter
      obtain ⟨d, digits, rfl⟩ := List.exists_cons_of_ne_nil hne
      have hd : d.isDigit = true := hdigits d List.mem_cons_self
      have hcode : (⟨d, .code⟩ : Glyph).isCode = true := rfl
      rw [List.cons_append, asCode_cons, List.cons_append] at hread ⊢
      rw [referenceAt_cons, hread, hcode, hd]
      simp only [Bool.not_true, Bool.false_eq_true, if_false, if_true, chars_asCode]
      rfl
  | @closed mark name _ hmark hname =>
      have hregister := registerAt_named hrest hname ('>' :: after) (Or.inr rfl)
      have hbody : mark :: '<' :: (name ++ ['>']) ++ after
          = mark :: '<' :: (name ++ '>' :: after) := by simp
      rw [hbody, asCode_cons, List.cons_append, referenceAt_mark hmark, hregister]
      simp
  | @unclosed mark name hmark hname =>
      have hregister := registerAt_named hrest hname [] (Or.inl rfl)
      rw [List.append_nil] at hregister ⊢
      rw [asCode_cons, List.cons_append, referenceAt_mark hmark, hregister]
      simp
  | @short mark register _ hmark hregister =>
      have hne : register ≠ '<' := by
        rintro rfl
        exact absurd hregister (by decide)
      rw [List.cons_append, List.cons_append, asCode_cons, asCode_cons, List.cons_append,
        referenceAt_mark hmark, List.cons_append, registerAt]
      simp [Glyph.isCodeChar, Glyph.isCode, hne, hregister]

/-- Behind a `%` in a run stands a reference, or a character with which the walk finds none. -/
theorem exists_refers_or (c : Char) (run : List Char) :
    (∃ body reference after, Refers body reference after ∧ c :: run = body ++ after)
      ∨ referenceAt (asCode (c :: run) ++ rest) = (none, 1) := by
  by_cases hdigit : c.isDigit = true
  · left
    refine ⟨(c :: run).takeWhile Char.isDigit, _, (c :: run).dropWhile Char.isDigit,
      .positional ?_ ?_ ?_, List.takeWhile_append_dropWhile.symm⟩
    · simp [hdigit]
    · intro d hd
      exact List.mem_takeWhile_imp hd
    · intro d hd
      have := List.head?_dropWhile_not Char.isDigit (c :: run)
      rw [hd] at this
      exact this
  · by_cases hmark : IsRegisterMark c
    · cases run with
      | nil =>
          right
          rw [asCode_cons, List.cons_append, referenceAt_mark hmark]
          cases rest with
          | nil => rfl
          | cons g rest => simp [asCode, registerAt, Glyph.isCodeChar, hrest g rfl]
      | cons d run =>
          by_cases hname : d = '<'
          · subst hname
            left
            by_cases hend : '>' ∈ run
            · obtain ⟨name, after, rfl, hnot⟩ := List.eq_append_cons_of_mem hend
              exact ⟨_, _, after, .closed hmark hnot, by simp⟩
            · exact ⟨_, _, [], .unclosed hmark hend, by simp⟩
          · by_cases halnum : d.isAlphanum = true
            · left
              exact ⟨_, _, run, .short hmark halnum, rfl⟩
            · right
              rw [asCode_cons, List.cons_append, referenceAt_mark hmark, asCode_cons,
                List.cons_append, registerAt]
              simp [Glyph.isCodeChar, Glyph.isCode, hname, halnum]
    · right
      obtain ⟨hlower, hupper⟩ := not_or.mp hmark
      rw [asCode_cons, List.cons_append, referenceAt_cons]
      simp [Glyph.isCode, hdigit, hlower, hupper]

end Lookahead

/-! ## Every run has one lexing -/

theorem Refers.body_ne_nil {body after : List Char} {reference : Reference}
    (h : Refers body reference after) : body ≠ [] := by
  cases h with
  | positional hne _ _ => exact hne
  | closed _ _ => simp
  | unclosed _ _ => simp
  | short _ _ => simp

/-- A text is a reference and what follows it in one way at most. -/
theorem Refers.unique {body after body' after' : List Char} {reference reference' : Reference}
    (h : Refers body reference after) (h' : Refers body' reference' after')
    (htext : body ++ after = body' ++ after') :
    body = body' ∧ reference = reference' ∧ after = after' := by
  -- both are what the walk reads at the end of a line
  have hread := referenceAt_of_refers endsRun_nil h
  rw [htext, referenceAt_of_refers endsRun_nil h', Prod.mk.injEq, Option.some.injEq] at hread
  obtain ⟨hreference, hlength⟩ := hread
  obtain ⟨hbody, hafter⟩ := List.append_inj htext hlength.symm
  exact ⟨hbody, hreference.symm, hafter⟩

/-- Every run has a lexing. -/
theorem exists_lexes (column : Nat) (run : List Char) : ∃ tokens, Lexes column run tokens := by
  induction hlength : run.length using Nat.strong_induction_on generalizing column run with
  | _ n ih =>
      subst hlength
      cases run with
      | nil => exact ⟨[], .nil⟩
      | cons c run =>
          by_cases hskip : c ≠ '%' ∨ run = []
          · obtain ⟨tokens, htokens⟩ := ih run.length (by simp) (column + 1) run rfl
            exact ⟨tokens, .skip hskip htokens⟩
          · obtain ⟨hpercent, hrun⟩ := not_or.mp hskip
            obtain ⟨d, run, rfl⟩ := List.exists_cons_of_ne_nil hrun
            rw [not_not.mp hpercent]
            by_cases hrefers : ∃ body reference after, Refers body reference after
                ∧ d :: run = body ++ after
            · obtain ⟨body, reference, after, hrefers, hrun⟩ := hrefers
              have hshorter : after.length < (c :: d :: run).length := by
                rw [hrun]
                simp
              obtain ⟨tokens, htokens⟩ :=
                ih after.length hshorter (column + 1 + body.length) after rfl
              rw [hrun]
              exact ⟨_, .token hrefers htokens⟩
            · obtain ⟨tokens, htokens⟩ := ih run.length (by simp) (column + 2) run rfl
              refine ⟨tokens, .pair ?_ htokens⟩
              intro body reference after h hrun
              exact hrefers ⟨body, reference, after, h, hrun⟩

/-- A run has at most one lexing. -/
theorem Lexes.unique {column : Nat} {run : List Char} {tokens tokens' : List Token}
    (h : Lexes column run tokens) (h' : Lexes column run tokens') : tokens = tokens' := by
  induction h generalizing tokens' with
  | nil => cases h'; rfl
  | @token column body after reference tokens hrefers _ ih =>
      generalize hrun : '%' :: (body ++ after) = run at h'
      cases h' with
      | nil => exact absurd hrun (by simp)
      | token hrefers' htokens' =>
          obtain ⟨rfl, rfl, rfl⟩ := hrefers.unique hrefers' (List.cons.inj hrun).2
          rw [ih htokens']
      | pair hnone _ => exact absurd (List.cons.inj hrun).2.symm (hnone _ _ _ hrefers)
      | skip hskip _ =>
          obtain ⟨rfl, rfl⟩ := List.cons.inj hrun
          simp [hrefers.body_ne_nil] at hskip
  | @pair column c rest tokens hnone _ ih =>
      generalize hrun : '%' :: c :: rest = run at h'
      cases h' with
      | nil => exact absurd hrun (by simp)
      | token hrefers' _ => exact absurd (List.cons.inj hrun).2 (hnone _ _ _ hrefers')
      | pair _ htokens' =>
          obtain ⟨rfl, rfl⟩ := List.cons.inj (List.cons.inj hrun).2
          exact ih htokens'
      | skip hskip _ =>
          obtain ⟨rfl, rfl⟩ := List.cons.inj hrun
          simp at hskip
  | @skip column c rest tokens hskip _ ih =>
      generalize hrun : c :: rest = run at h'
      cases h' with
      | nil => exact absurd hrun (by simp)
      | token hrefers' _ =>
          obtain ⟨rfl, rfl⟩ := List.cons.inj hrun
          simp [hrefers'.body_ne_nil] at hskip
      | pair _ _ =>
          obtain ⟨rfl, rfl⟩ := List.cons.inj hrun
          simp at hskip
      | skip _ htokens' =>
          obtain ⟨rfl, rfl⟩ := List.cons.inj hrun
          exact ih htokens'

/-- Every run has exactly one lexing. -/
theorem existsUnique_lexes (column : Nat) (run : List Char) : ∃! tokens, Lexes column run tokens :=
  existsUnique_of_exists_of_unique (exists_lexes column run) fun _ _ h h' => h.unique h'

/-! ## The walk lexes every run -/

/-- Glyphs that belong to a reference already read are passed over. -/
theorem substitutionsFrom_skip (column skip : Nat) (gs : List Glyph) :
    substitutionsFrom column skip gs = substitutionsFrom (column + skip) 0 (gs.drop skip) := by
  induction gs generalizing column skip with
  | nil => simp [substitutionsFrom]
  | cons g gs ih =>
      cases skip with
      | zero => rfl
      | succ n => rw [substitutionsFrom, ih, List.drop_succ_cons, Nat.add_assoc, Nat.add_comm 1]

/-- A `%` is reported if a reference stands behind it, and what was read is passed over. -/
theorem substitutionsFrom_percent (column : Nat) {gs : List Glyph} {found : Option Reference}
    {n : Nat} (h : referenceAt gs = (found, n)) :
    substitutionsFrom column 0 (⟨'%', .code⟩ :: gs)
      = (found.map fun r => ⟨column, r⟩).toList
        ++ substitutionsFrom (column + 1 + n) 0 (gs.drop n) := by
  have hpercent : (⟨'%', .code⟩ : Glyph).isCodeChar '%' = true := rfl
  rw [← substitutionsFrom_skip, substitutionsFrom, if_pos hpercent, h]

/-- Over a run the walk finds the references of its lexing, and then it goes on behind the run. -/
theorem Lexes.substitutionsFrom_eq {column : Nat} {run : List Char} {tokens : List Token}
    (h : Lexes column run tokens) {rest : List Glyph} (hrest : EndsRun rest) :
    substitutionsFrom column 0 (asCode run ++ rest)
      = tokens.map Token.substitution ++ substitutionsFrom (column + run.length) 0 rest := by
  induction h with
  | nil => rfl
  | @token column body after reference tokens hrefers _ ih =>
      have hdrop : (asCode (body ++ after) ++ rest).drop body.length = asCode after ++ rest := by
        rw [asCode_append, List.append_assoc]
        exact List.drop_left' (length_asCode body)
      have hlength : column + ('%' :: (body ++ after)).length
          = column + 1 + body.length + after.length := by
        simp
        omega
      rw [asCode_cons, List.cons_append,
        substitutionsFrom_percent column (referenceAt_of_refers hrest hrefers), hdrop, ih, hlength]
      rfl
  | @pair column c run tokens hnone _ ih =>
      have hread : referenceAt (asCode (c :: run) ++ rest) = (none, 1) := by
        refine (exists_refers_or hrest c run).resolve_left ?_
        rintro ⟨body, reference, after, hrefers, hrun⟩
        exact hnone body reference after hrefers hrun
      have hlength : column + ('%' :: c :: run).length = column + 2 + run.length := by
        simp
        omega
      rw [asCode_cons, List.cons_append, substitutionsFrom_percent column hread, hlength, ← ih]
      rfl
  | @skip column c run tokens hskip _ ih =>
      have hlength : column + (c :: run).length = column + 1 + run.length := by
        simp
        omega
      rw [asCode_cons, List.cons_append, hlength, ← ih]
      by_cases hpercent : c = '%'
      · -- a `%` at the end of the run has nothing structural behind it
        obtain rfl : run = [] := hskip.resolve_left (not_not_intro hpercent)
        subst hpercent
        exact substitutionsFrom_percent column (referenceAt_of_endsRun hrest)
      · have hother : (⟨c, .code⟩ : Glyph).isCodeChar '%' = false := by
          simp [Glyph.isCodeChar, hpercent]
        rw [substitutionsFrom, hother]
        rfl

/-! ## Runs of structural characters -/

/-- A line is a run, or a run, a glyph that is not structural and what comes behind it. -/
@[elab_as_elim]
theorem run_induction {motive : List Glyph → Prop} (last : ∀ run, motive (asCode run))
    (split : ∀ run g rest, g.isCode = false → motive rest → motive (asCode run ++ g :: rest))
    (gs : List Glyph) : motive gs := by
  induction hlength : gs.length using Nat.strong_induction_on generalizing gs with
  | _ n ih =>
      subst hlength
      have hrun : asCode (chars (gs.takeWhile Glyph.isCode)) = gs.takeWhile Glyph.isCode :=
        asCode_chars fun g hg => List.mem_takeWhile_imp hg
      have hgs : asCode (chars (gs.takeWhile Glyph.isCode)) ++ gs.dropWhile Glyph.isCode = gs := by
        rw [hrun, List.takeWhile_append_dropWhile]
      rw [← hgs]
      cases hrest : gs.dropWhile Glyph.isCode with
      | nil =>
          rw [List.append_nil]
          exact last _
      | cons g rest =>
          have hg := List.head?_dropWhile_not Glyph.isCode gs
          rw [hrest] at hg
          refine split _ g rest hg (ih rest.length ?_ rest rfl)
          rw [← hgs, hrest, List.length_append, List.length_cons]
          omega

/-- The run that starts at a column, unless it is empty. -/
def runAt (column : Nat) (run : List Char) : Option (Nat × List Char) :=
  if run = [] then none else some (column, run)

theorem head?_zipIdx_asCode (first : Nat) (run : List Char) :
    (((asCode run).zipIdx first).head?.map fun place =>
      (place.2, chars (((asCode run).zipIdx first).map Prod.fst))) = runAt first run := by
  rw [List.zipIdx_map_fst, chars_asCode]
  cases run with
  | nil => rfl
  | cons c run => rfl

theorem isCode_of_mem_zipIdx_asCode {first : Nat} {run : List Char} {place : Glyph × Nat}
    (h : place ∈ (asCode run).zipIdx first) : (!place.1.isCode) = false := by
  have hmem : place.1 ∈ asCode run := by
    rw [← List.zipIdx_map_fst first (asCode run)]
    exact List.mem_map_of_mem h
  rw [isCode_of_mem_asCode hmem]
  rfl

/-- Structural characters alone are one run, or none if there are none. -/
theorem codeRunsFrom_asCode (first : Nat) (run : List Char) :
    codeRunsFrom first (asCode run) = (runAt first run).toList := by
  rw [codeRunsFrom, List.splitOnP_eq_singleton fun _ => isCode_of_mem_zipIdx_asCode,
    List.filterMap_cons, head?_zipIdx_asCode]
  cases runAt first run <;> rfl

/-- A glyph that is not structural ends a run. -/
theorem codeRunsFrom_append (first : Nat) (run : List Char) {g : Glyph} (hg : g.isCode = false)
    (rest : List Glyph) :
    codeRunsFrom first (asCode run ++ g :: rest)
      = (runAt first run).toList ++ codeRunsFrom (first + run.length + 1) rest := by
  rw [codeRunsFrom, List.zipIdx_append, List.zipIdx_cons, length_asCode,
    List.splitOnP_append_cons_of_forall_mem (fun _ => isCode_of_mem_zipIdx_asCode) _ (by simp [hg]),
    List.filterMap_cons, head?_zipIdx_asCode]
  cases runAt first run <;> rfl

/-! ## Where the tokens of a line stand -/

/-- Tokens that stand one behind the other on glyphs of which the first has column `first`, each on
structural characters that spell it. -/
structure Placed (first : Nat) (gs : List Glyph) (tokens : List Token) : Prop where
  ordered : tokens.Pairwise fun a b => a.stop ≤ b.column
  lexeme_ne_nil : ∀ t ∈ tokens, t.lexeme ≠ []
  first_le : ∀ t ∈ tokens, first ≤ t.column
  spelled : ∀ t ∈ tokens, asCode t.lexeme <+: gs.drop (t.column - first)

namespace Placed

variable {first : Nat} {gs : List Glyph} {tokens : List Token}

theorem nil (first : Nat) (gs : List Glyph) : Placed first gs [] :=
  ⟨.nil, by simp, by simp, by simp⟩

/-- A lexeme alone is a token in its place. -/
theorem single (column : Nat) {lexeme : List Char} (h : lexeme ≠ []) (reference : Reference) :
    Placed column (asCode lexeme) [⟨column, lexeme, reference⟩] :=
  ⟨List.pairwise_singleton _ _, by simpa using h, by simp, by simp⟩

/-- No token goes beyond the glyphs. -/
theorem stop_le (h : Placed first gs tokens) {t : Token} (ht : t ∈ tokens) :
    t.stop ≤ first + gs.length := by
  have hlength := (h.spelled t ht).length_le
  have hpos := List.length_pos_iff.mpr (h.lexeme_ne_nil t ht)
  have hfirst := h.first_le t ht
  rw [length_asCode, List.length_drop] at hlength
  rw [Token.stop]
  omega

/-- Tokens of one stretch and of the next are in their places together. -/
theorem append (h : Placed first gs tokens) {more : List Glyph} {others : List Token}
    (hmore : Placed (first + gs.length) more others) :
    Placed first (gs ++ more) (tokens ++ others) where
  ordered := by
    refine List.pairwise_append.mpr ⟨h.ordered, hmore.ordered, ?_⟩
    intro a ha b hb
    exact (h.stop_le ha).trans (hmore.first_le b hb)
  lexeme_ne_nil t ht := (List.mem_append.mp ht).elim (h.lexeme_ne_nil t) (hmore.lexeme_ne_nil t)
  first_le t ht := by
    rcases List.mem_append.mp ht with ht | ht
    · exact h.first_le t ht
    · exact (Nat.le_add_right _ _).trans (hmore.first_le t ht)
  spelled t ht := by
    rcases List.mem_append.mp ht with ht | ht
    · have hstop := h.stop_le ht
      rw [Token.stop] at hstop
      rw [List.drop_append_of_le_length (by omega)]
      exact (h.spelled t ht).trans (List.prefix_append _ _)
    · have hfirst := hmore.first_le t ht
      rw [List.drop_append, List.drop_of_length_le (by omega), List.nil_append, Nat.sub_sub]
      exact hmore.spelled t ht

end Placed

/-- The tokens of a lexing are in their places. -/
theorem Lexes.placed {column : Nat} {run : List Char} {tokens : List Token}
    (h : Lexes column run tokens) : Placed column (asCode run) tokens := by
  induction h with
  | nil => exact .nil _ _
  | @token column body after reference tokens hrefers _ ih =>
      have htoken := Placed.single column (List.cons_ne_nil '%' body) reference
      rw [← List.cons_append, asCode_append]
      refine htoken.append ?_
      rwa [length_asCode, List.length_cons, Nat.add_comm body.length, ← Nat.add_assoc]
  | @pair column c run tokens _ _ ih => exact (Placed.nil column (asCode ['%', c])).append ih
  | @skip column c run tokens _ _ ih => exact (Placed.nil column (asCode [c])).append ih

/-! ## The walk over a line -/

/-- The lexings of some runs. -/
def LexesAll (runs : List (Nat × List Char)) (lexed : List (List Token)) : Prop :=
  List.Forall₂ (fun run tokens => Lexes run.1 run.2 tokens) runs lexed

/-- A lexing of a run is one of the list that holds the run, also when the run is empty. -/
theorem exists_lexesAll_runAt {column : Nat} {run : List Char} {tokens : List Token}
    (h : Lexes column run tokens) :
    ∃ lexed, LexesAll (runAt column run).toList lexed ∧ lexed.flatten = tokens := by
  cases run with
  | nil =>
      cases h
      exact ⟨[], .nil, rfl⟩
  | cons c run => exact ⟨[tokens], .cons h .nil, by simp⟩

/-- The walk finds the references of the lexings of all runs, in order. -/
theorem exists_lexed (first : Nat) (gs : List Glyph) :
    ∃ lexed, LexesAll (codeRunsFrom first gs) lexed
      ∧ substitutionsFrom first 0 gs = lexed.flatten.map Token.substitution
      ∧ Placed first gs lexed.flatten := by
  induction gs using run_induction generalizing first with
  | last run =>
      obtain ⟨tokens, htokens⟩ := exists_lexes first run
      obtain ⟨lexed, hlexed, rfl⟩ := exists_lexesAll_runAt htokens
      have hwalk := htokens.substitutionsFrom_eq endsRun_nil
      rw [List.append_nil, substitutionsFrom, List.append_nil] at hwalk
      exact ⟨lexed, by rwa [codeRunsFrom_asCode], hwalk, htokens.placed⟩
  | split run g rest hg ih =>
      obtain ⟨tokens, htokens⟩ := exists_lexes first run
      obtain ⟨lexed, hlexed, rfl⟩ := exists_lexesAll_runAt htokens
      obtain ⟨more, hmore, hrest, hplaced⟩ := ih (first + run.length + 1)
      refine ⟨lexed ++ more, ?_, ?_, ?_⟩
      · rw [codeRunsFrom_append first run hg]
        exact List.rel_append hlexed hmore
      · rw [htokens.substitutionsFrom_eq (endsRun_cons hg rest), substitutionsFrom,
          if_neg (by simp [Glyph.isCodeChar, hg]), hrest, List.flatten_append, List.map_append]
      · rw [List.flatten_append]
        refine htokens.placed.append ?_
        rw [length_asCode]
        exact (Placed.nil _ [g]).append hplaced

/-- **Substitutions are the tokens of a grammar.** Every run of characters has exactly one lexing.
The substitutions of a line are the references of the lexings of its maximal runs of structural
characters, one run after the other. The tokens stand apart from each other in strictly increasing
columns, and each is spelled by structural characters of the line from its column on. -/
theorem substitutions_are_lexed (text : List Char) :
    (∀ column run, ∃! tokens, Lexes column run tokens)
      ∧ ∃ lexed, LexesAll (codeRuns (glyphs text)) lexed
          ∧ substitutions (glyphs text) = lexed.flatten.map Token.substitution
          ∧ lexed.flatten.Pairwise (fun a b => a.column < b.column ∧ a.stop ≤ b.column)
          ∧ ∀ t ∈ lexed.flatten, t.lexeme ≠ [] ∧ 1 ≤ t.column
              ∧ asCode t.lexeme <+: (glyphs text).drop (t.column - 1) := by
  obtain ⟨lexed, hlexed, hwalk, hplaced⟩ := exists_lexed 1 (glyphs text)
  refine ⟨existsUnique_lexes, lexed, hlexed, hwalk, ?_, fun t ht =>
    ⟨hplaced.lexeme_ne_nil t ht, hplaced.first_le t ht, hplaced.spelled t ht⟩⟩
  refine hplaced.ordered.imp_of_mem ?_
  intro a b ha _ hstop
  have hpos := List.length_pos_iff.mpr (hplaced.lexeme_ne_nil a ha)
  rw [Token.stop] at hstop ⊢
  omega

/-- Three runs, with a name that a quote cuts off, a number that is too large and pairs. -/
theorem substitutions_are_lexed_three_runs :
    let gs := glyphs "%q<ab\"%0\"%99999999999999999999%qZ%%1%q<c>\\%%".toList
    codeRuns gs = [(1, "%q<ab".toList), (10, "%99999999999999999999%qZ%%1%q<c>".toList),
        (44, "%".toList)]
      ∧ substitutions gs = [⟨1, .named "ab" false⟩, ⟨10, .positional (2 ^ 64 - 1)⟩,
          ⟨31, .short 'z'⟩, ⟨37, .named "c" true⟩]
      ∧ ∃ lexed, LexesAll (codeRuns gs) lexed
        ∧ substitutions gs = lexed.flatten.map Token.substitution := by
  intro gs
  obtain ⟨-, lexed, hlexed, hwalk, -, -⟩ :=
    substitutions_are_lexed "%q<ab\"%0\"%99999999999999999999%qZ%%1%q<c>\\%%".toList
  exact ⟨by decide, by decide, lexed, hlexed, hwalk⟩

end Softcode.Line
