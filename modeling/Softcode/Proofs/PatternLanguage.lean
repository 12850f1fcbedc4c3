import Softcode.Proofs.MatchLocations

/-!
# What a pattern matches

`Fits` says which texts a pattern matches, between what stands before and behind them, and knows
nothing of preference. The search follows all ways to match side by side and gives up the less
preferred ones when one is complete, and it never goes through a repetition without a character.
Neither loses a match: at every place it finds one exactly if there is one
(`isSome_matchLength?_iff`), and what it finds is one (`fits_of_matchLength?`).

The step lemma is `leads_enter_iff`: the moves into a pattern are those behind it, if it can be left
out, and those that take a character of it.
-/

namespace Softcode.Pattern

open Text

/-- The pattern matches the text `matched` between `front` and `back`. -/
inductive Fits : Pattern → List Char → List Char → List Char → Prop where
  | empty {front back : List Char} : Fits empty front [] back
  | set {s : CharSet} {c : Char} {front back : List Char} : s.mem c = true →
      Fits (set s) front [c] back
  | anchor {a : Anchor} {front back : List Char} : a.holds front.getLast? back.head? = true →
      Fits (anchor a) front [] back
  | seq {p q : Pattern} {front u v back : List Char} : Fits p front u (v ++ back) →
      Fits q (front ++ u) v back → Fits (seq p q) front (u ++ v) back
  | left {p q : Pattern} {front u back : List Char} : Fits p front u back →
      Fits (alt p q) front u back
  | right {p q : Pattern} {front u back : List Char} : Fits q front u back →
      Fits (alt p q) front u back
  | once {greedy : Bool} {p : Pattern} {front u back : List Char} : Fits p front u back →
      Fits (plus greedy p) front u back
  | again {greedy : Bool} {p : Pattern} {front u v back : List Char} : Fits p front u (v ++ back) →
      Fits (plus greedy p) (front ++ u) v back → Fits (plus greedy p) front (u ++ v) back

variable {p q : Pattern} {greedy : Bool} {front u back : List Char}

/-- The empty pattern fits the empty text. -/
theorem fits_empty_iff : Fits empty front u back ↔ u = [] := by
  constructor
  · rintro ⟨⟩
    rfl
  · rintro rfl
    exact .empty

/-- A set fits each of its characters. -/
theorem fits_set_iff {s : CharSet} :
    Fits (set s) front u back ↔ ∃ c, u = [c] ∧ s.mem c = true := by
  constructor
  · rintro ⟨⟩
    exact ⟨_, rfl, ‹_›⟩
  · rintro ⟨c, rfl, hc⟩
    exact .set hc

/-- An anchor fits the empty text where it holds. -/
theorem fits_anchor_iff {a : Anchor} :
    Fits (anchor a) front u back ↔ u = [] ∧ a.holds front.getLast? back.head? = true := by
  constructor
  · rintro ⟨⟩
    exact ⟨rfl, ‹_›⟩
  · rintro ⟨rfl, ha⟩
    exact .anchor ha

/-- Two patterns in a row fit what splits in two. -/
theorem fits_seq_iff :
    Fits (seq p q) front u back
      ↔ ∃ v w, u = v ++ w ∧ Fits p front v (w ++ back) ∧ Fits q (front ++ v) w back := by
  constructor
  · rintro ⟨⟩
    exact ⟨_, _, rfl, ‹_›, ‹_›⟩
  · rintro ⟨v, w, rfl, hp, hq⟩
    exact .seq hp hq

/-- Two alternatives fit what one of them fits. -/
theorem fits_alt_iff :
    Fits (alt p q) front u back ↔ Fits p front u back ∨ Fits q front u back := by
  constructor
  · rintro (_ | _)
    · exact Or.inl ‹_›
    · exact Or.inr ‹_›
  · rintro (h | h)
    · exact .left h
    · exact .right h

/-- An optional pattern fits the empty text too. -/
theorem fits_opt_iff :
    Fits (opt greedy p) front u back ↔ u = [] ∨ Fits p front u back := by
  rw [opt]
  split
  · rw [fits_alt_iff, fits_empty_iff, or_comm]
  · rw [fits_alt_iff, fits_empty_iff]

/-- A repetition fits the empty text, or one round and more. -/
theorem fits_star_iff :
    Fits (star greedy p) front u back ↔ u = [] ∨ Fits (plus greedy p) front u back :=
  fits_opt_iff

theorem fits_sequence_nil_iff : Fits (sequence []) front u back ↔ u = [] := fits_empty_iff

/-- A sequence fits what its first pattern and the rest fit in a row. -/
theorem fits_sequence_cons_iff {ps : List Pattern} :
    Fits (sequence (p :: ps)) front u back
      ↔ ∃ v w, u = v ++ w ∧ Fits p front v (w ++ back)
        ∧ Fits (sequence ps) (front ++ v) w back := by
  cases ps with
  | nil =>
      constructor
      · exact fun h => ⟨u, [], (List.append_nil u).symm, h, .empty⟩
      · rintro ⟨v, w, rfl, hp, hempty⟩
        obtain rfl := fits_empty_iff.mp hempty
        rwa [List.append_nil]
  | cons q ps => exact fits_seq_iff

/-- Sequences one behind the other fit what splits in two. -/
theorem fits_sequence_append_iff {ps qs : List Pattern} :
    Fits (sequence (ps ++ qs)) front u back
      ↔ ∃ v w, u = v ++ w ∧ Fits (sequence ps) front v (w ++ back)
        ∧ Fits (sequence qs) (front ++ v) w back := by
  induction ps generalizing front u with
  | nil =>
      constructor
      · exact fun h => ⟨[], u, rfl, .empty, by rwa [List.append_nil]⟩
      · rintro ⟨v, w, rfl, hempty, hqs⟩
        obtain rfl := fits_empty_iff.mp hempty
        rwa [List.append_nil] at hqs
  | cons p ps ih =>
      simp only [List.cons_append, fits_sequence_cons_iff, ih]
      constructor
      · rintro ⟨v, -, rfl, hp, w, x, rfl, hps, hqs⟩
        refine ⟨v ++ w, x, (List.append_assoc _ _ _).symm, ⟨v, w, rfl, ?_, hps⟩, ?_⟩
        · rwa [← List.append_assoc]
        · rwa [← List.append_assoc]
      · rintro ⟨-, x, rfl, ⟨v, w, rfl, hp, hps⟩, hqs⟩
        refine ⟨v, w ++ x, List.append_assoc _ _ _, ?_, w, x, rfl, hps, ?_⟩
        · rwa [List.append_assoc]
        · rwa [List.append_assoc]

/-- Rounds of a set are any characters of it. -/
theorem fits_plus_set_iff {s : CharSet} :
    Fits (plus greedy (set s)) front u back ↔ u ≠ [] ∧ ∀ c ∈ u, s.mem c = true := by
  constructor
  · intro h
    generalize hpattern : plus greedy (set s) = r at h
    induction h with
    | once hset =>
        obtain ⟨-, rfl⟩ := Pattern.plus.inj hpattern
        obtain ⟨c, rfl, hc⟩ := fits_set_iff.mp hset
        simp [hc]
    | again hset _ _ ih =>
        obtain ⟨rfl, rfl⟩ := Pattern.plus.inj hpattern
        obtain ⟨c, rfl, hc⟩ := fits_set_iff.mp hset
        simpa [hc] using (ih rfl).2
    | _ => exact absurd hpattern (by simp)
  · rintro ⟨hne, hall⟩
    induction u generalizing front with
    | nil => exact absurd rfl hne
    | cons c u ih =>
        obtain ⟨hc, hmore⟩ := List.forall_mem_cons.mp hall
        by_cases hu : u = []
        · subst hu
          exact .once (.set hc)
        · exact .again (u := [c]) (.set hc) (ih hu hmore)

/-- A repeated set fits the texts of its characters. -/
theorem fits_star_set_iff {s : CharSet} :
    Fits (star greedy (set s)) front u back ↔ ∀ c ∈ u, s.mem c = true := by
  rw [fits_star_iff, fits_plus_set_iff]
  by_cases hu : u = [] <;> simp [hu]

/-! ## Rounds of a repetition -/

/-- A repetition can be left out only if a round of it can. -/
theorem Fits.of_plus_nil (h : Fits (plus greedy p) front [] back) : Fits p front [] back := by
  generalize hpattern : plus greedy p = r, htext : [] = u at h
  cases h with
  | once hp =>
      obtain ⟨-, rfl⟩ := Pattern.plus.inj hpattern
      exact hp
  | again hp _ =>
      obtain ⟨-, rfl⟩ := Pattern.plus.inj hpattern
      obtain ⟨rfl, rfl⟩ := List.append_eq_nil_iff.mp htext.symm
      exact hp
  | _ => exact absurd hpattern (by simp)

/-- Rounds without a character can be left out of a repetition. -/
theorem Fits.exists_round (h : Fits (plus greedy p) front u back) (hu : u ≠ []) :
    ∃ v w, v ≠ [] ∧ u = v ++ w ∧ Fits p front v (w ++ back)
      ∧ Fits (star greedy p) (front ++ v) w back := by
  generalize hpattern : plus greedy p = r at h
  induction h with
  | @once _ q front u back hp =>
      obtain ⟨-, rfl⟩ := Pattern.plus.inj hpattern
      exact ⟨u, [], hu, by simp, hp, fits_star_iff.mpr (Or.inl rfl)⟩
  | @again _ q front u v back hp hmore _ ih =>
      obtain ⟨rfl, rfl⟩ := Pattern.plus.inj hpattern
      by_cases hempty : u = []
      · subst hempty
        rw [List.append_nil] at ih
        exact ih hu rfl
      · exact ⟨u, v, hempty, rfl, hp, fits_star_iff.mpr (Or.inr hmore)⟩
  | _ => exact absurd hpattern (by simp)

/-- A repetition with a character is a round with a character and any number of further rounds. -/
theorem fits_plus_seq_iff :
    (∃ v w, v ≠ [] ∧ u = v ++ w ∧ Fits (plus greedy p) front v (w ++ back)
        ∧ Fits q (front ++ v) w back)
      ↔ ∃ v w, v ≠ [] ∧ u = v ++ w ∧ Fits p front v (w ++ back)
        ∧ Fits (seq (star greedy p) q) (front ++ v) w back := by
  constructor
  · rintro ⟨v, w, hv, rfl, hplus, hq⟩
    obtain ⟨first, more, hfirst, rfl, hp, hstar⟩ := hplus.exists_round hv
    refine ⟨first, more ++ w, hfirst, List.append_assoc _ _ _, ?_, ?_⟩
    · rwa [List.append_assoc]
    · rw [← List.append_assoc] at hq
      exact .seq hstar hq
  · rintro ⟨v, w, hv, rfl, hp, hseq⟩
    obtain ⟨more, rest, rfl, hstar, hq⟩ := fits_seq_iff.mp hseq
    rcases fits_star_iff.mp hstar with rfl | hplus
    · rw [List.append_nil] at hq
      exact ⟨v, rest, hv, rfl, .once hp, hq⟩
    · refine ⟨v ++ more, rest, by simp [hv], (List.append_assoc _ _ _).symm, ?_, ?_⟩
      · rw [List.append_assoc] at hp
        exact .again hp hplus
      · rwa [← List.append_assoc]

/-! ## Ways and moves -/

/-- What a step of a way stands for. -/
def Step.pattern : Step → Pattern
  | one p => p
  | rounds greedy p => star greedy p

/-- What is left to match on a way. -/
def wayPattern : List Step → Pattern
  | [] => empty
  | step :: rest => seq step.pattern (wayPattern rest)

/-- The move leads to a match. -/
def Move.Fits (front u back : List Char) : Move → Prop
  | accept => u = []
  | eat s rest => ∃ c v, u = c :: v ∧ s.mem c = true
      ∧ (wayPattern rest).Fits (front ++ [c]) v back

/-- One of the moves leads to a match. -/
def Leads (ms : List Move) (front u back : List Char) : Prop := ∃ m ∈ ms, m.Fits front u back

theorem leads_nil : ¬ Leads [] front u back := by
  rintro ⟨m, hm, -⟩
  exact absurd hm List.not_mem_nil

/-- Joined moves are the moves of both lists. -/
theorem mem_joinMoves {first second : List Move} {m : Move} :
    m ∈ joinMoves first second ↔ m ∈ first ∨ m ∈ second := by
  simp only [joinMoves, List.mem_append, List.mem_filter]
  by_cases hm : m ∈ first <;> simp [hm]

/-- Joined moves lead where one of the lists leads. -/
theorem leads_joinMoves {first second : List Move} :
    Leads (joinMoves first second) front u back
      ↔ Leads first front u back ∨ Leads second front u back := by
  simp only [Leads, mem_joinMoves, or_and_right, exists_or]

/-- The text starts with a character that a pattern takes, and then a way matches. -/
def TakesFirst (p : Pattern) (rest : List Step) (front u back : List Char) : Prop :=
  ∃ v w, v ≠ [] ∧ u = v ++ w ∧ Fits p front v (w ++ back)
    ∧ Fits (wayPattern rest) (front ++ v) w back

/-- A pattern before a way takes no character, or it takes the first one. -/
theorem fits_seq_way_iff {rest : List Step} :
    Fits (seq p (wayPattern rest)) front u back
      ↔ Fits p front [] (u ++ back) ∧ Fits (wayPattern rest) front u back
        ∨ TakesFirst p rest front u back := by
  rw [fits_seq_iff]
  constructor
  · rintro ⟨v, w, rfl, hp, hrest⟩
    by_cases hv : v = []
    · subst hv
      rw [List.append_nil] at hrest
      exact Or.inl ⟨hp, hrest⟩
    · exact Or.inr ⟨v, w, hv, rfl, hp, hrest⟩
  · rintro (⟨hp, hrest⟩ | ⟨v, w, -, rfl, hp, hrest⟩)
    · exact ⟨[], u, rfl, hp, by rwa [List.append_nil]⟩
    · exact ⟨v, w, rfl, hp, hrest⟩

section TakesFirst

variable {rest : List Step}

/-- A set that takes the first character is the move that eats it. -/
theorem takesFirst_set_iff {s : CharSet} :
    TakesFirst (set s) rest front u back ↔ (Move.eat s rest).Fits front u back := by
  constructor
  · rintro ⟨v, w, -, rfl, hset, hrest⟩
    obtain ⟨c, rfl, hc⟩ := fits_set_iff.mp hset
    exact ⟨c, w, rfl, hc, hrest⟩
  · rintro ⟨c, w, rfl, hc, hrest⟩
    exact ⟨[c], w, by simp, rfl, .set hc, hrest⟩

/-- Alternatives take the first character when one of them does. -/
theorem takesFirst_alt_iff :
    TakesFirst (alt p q) rest front u back
      ↔ TakesFirst p rest front u back ∨ TakesFirst q rest front u back := by
  simp only [TakesFirst, fits_alt_iff, or_and_right, and_or_left, exists_or]

/-- A repetition of one round and more takes it in its first round. -/
theorem takesFirst_plus_iff :
    TakesFirst (plus greedy p) rest front u back
      ↔ TakesFirst p (.rounds greedy p :: rest) front u back :=
  fits_plus_seq_iff

/-- A repetition takes the first character as one of one round and more does. -/
theorem takesFirst_star_iff :
    TakesFirst (star greedy p) rest front u back
      ↔ TakesFirst (plus greedy p) rest front u back := by
  constructor
  · rintro ⟨v, w, hv, rfl, hstar, hrest⟩
    exact ⟨v, w, hv, rfl, (fits_star_iff.mp hstar).resolve_left hv, hrest⟩
  · rintro ⟨v, w, hv, rfl, hplus, hrest⟩
    exact ⟨v, w, hv, rfl, fits_star_iff.mpr (Or.inr hplus), hrest⟩

/-- The first character is taken by the first of two patterns, or by the second if the first takes
none. -/
theorem takesFirst_seq_iff :
    TakesFirst (seq p q) rest front u back
      ↔ Fits p front [] (u ++ back) ∧ TakesFirst q rest front u back
        ∨ TakesFirst p (.one q :: rest) front u back := by
  constructor
  · rintro ⟨v, w, hv, rfl, hseq, hrest⟩
    obtain ⟨first, second, rfl, hp, hq⟩ := fits_seq_iff.mp hseq
    by_cases hfirst : first = []
    · subst hfirst
      rw [List.nil_append] at hv
      rw [List.append_nil] at hq
      rw [← List.append_assoc] at hp
      exact Or.inl ⟨hp, second, w, hv, rfl, hq, hrest⟩
    · rw [← List.append_assoc] at hp hrest
      exact Or.inr ⟨first, second ++ w, hfirst, List.append_assoc _ _ _, hp, .seq hq hrest⟩
  · rintro (⟨hp, v, w, hv, rfl, hq, hrest⟩ | ⟨v, w, hv, rfl, hp, hseq⟩)
    · refine ⟨v, w, hv, rfl, ?_, hrest⟩
      rw [List.append_assoc] at hp
      exact .seq hp (by rwa [List.append_nil])
    · obtain ⟨second, w, rfl, hq, hrest⟩ := fits_seq_iff.mp hseq
      rw [List.append_assoc] at hp hrest
      exact ⟨v ++ second, w, by simp [hv], (List.append_assoc _ _ _).symm, .seq hp hq, hrest⟩

end TakesFirst

/-- Two patterns in a row fit the empty text when both do. -/
theorem fits_seq_nil_iff :
    Fits (seq p q) front [] back ↔ Fits p front [] back ∧ Fits q front [] back := by
  rw [fits_seq_iff]
  constructor
  · rintro ⟨v, w, hnil, hp, hq⟩
    obtain ⟨rfl, rfl⟩ := List.append_eq_nil_iff.mp hnil.symm
    rw [List.append_nil] at hq
    exact ⟨hp, hq⟩
  · rintro ⟨hp, hq⟩
    exact ⟨[], [], rfl, hp, by rwa [List.append_nil]⟩

/-- The moves into a pattern are those behind it, if it can take no character, and those that take
one. -/
theorem leads_enter_iff {rest : List Step} {after : List Move} :
    Leads (enter front.getLast? (u ++ back).head? rest after p) front u back
      ↔ Fits p front [] (u ++ back) ∧ Leads after front u back
        ∨ TakesFirst p rest front u back := by
  induction p generalizing rest after with
  | empty =>
      rw [enter]
      constructor
      · exact fun h => Or.inl ⟨.empty, h⟩
      · rintro (⟨-, h⟩ | ⟨v, w, hv, -, hempty, -⟩)
        · exact h
        · exact absurd (fits_empty_iff.mp hempty) hv
  | set s =>
      rw [enter, takesFirst_set_iff, Leads]
      constructor
      · rintro ⟨m, hm, hfits⟩
        rw [List.mem_singleton.mp hm] at hfits
        exact Or.inr hfits
      · rintro (⟨hset, -⟩ | hfits)
        · obtain ⟨c, hc, -⟩ := fits_set_iff.mp hset
          exact absurd hc (by simp)
        · exact ⟨_, List.mem_singleton_self _, hfits⟩
  | anchor a =>
      have hnone : ¬ TakesFirst (anchor a) rest front u back := by
        rintro ⟨v, w, hv, -, hanchor, -⟩
        exact hv (fits_anchor_iff.mp hanchor).1
      rw [enter, or_iff_left hnone, fits_anchor_iff]
      split
      · rename_i ha
        exact ⟨fun h => ⟨⟨rfl, ha⟩, h⟩, And.right⟩
      · rename_i ha
        exact ⟨fun h => absurd h leads_nil, fun h => absurd h.1.2 ha⟩
  | seq p q ihp ihq =>
      rw [enter, ihp, ihq, fits_seq_nil_iff, takesFirst_seq_iff]
      tauto
  | alt p q ihp ihq =>
      rw [enter, leads_joinMoves, ihp, ihq, fits_alt_iff, takesFirst_alt_iff]
      tauto
  | plus greedy p ih =>
      rw [enter, ih, takesFirst_plus_iff]
      have hnil : Fits p front [] (u ++ back) ↔ Fits (plus greedy p) front [] (u ++ back) :=
        ⟨.once, Fits.of_plus_nil⟩
      rw [hnil]

/-- The moves into a way lead to a match exactly if the way matches. -/
theorem leads_moves_iff {way : List Step} :
    Leads (moves front.getLast? (u ++ back).head? way) front u back
      ↔ Fits (wayPattern way) front u back := by
  induction way with
  | nil =>
      rw [moves, wayPattern, fits_empty_iff, Leads]
      simp [Move.Fits]
  | cons step rest ih =>
      cases step with
      | one p => rw [moves, leads_enter_iff, ih, wayPattern, Step.pattern, fits_seq_way_iff]
      | rounds greedy p =>
          have hagain :
              Leads (enter front.getLast? (u ++ back).head? (.rounds greedy p :: rest) [] p)
                front u back ↔ TakesFirst (plus greedy p) rest front u back := by
            rw [leads_enter_iff, takesFirst_plus_iff, or_iff_right (fun h => leads_nil h.2)]
          have hway : Fits (wayPattern (.rounds greedy p :: rest)) front u back
              ↔ Fits (wayPattern rest) front u back
                ∨ TakesFirst (plus greedy p) rest front u back := by
            rw [wayPattern, Step.pattern, fits_seq_way_iff, takesFirst_star_iff,
              and_iff_right (fits_star_iff.mpr (Or.inl rfl))]
          rw [hway, ← ih, ← hagain, moves]
          split
          · rw [leads_joinMoves, or_comm]
          · rw [leads_joinMoves]

/-! ## Following the ways -/

/-- One of the ways matches. -/
def AnyFits (ways : List (List Step)) (front u back : List Char) : Prop :=
  ∃ way ∈ ways, Fits (wayPattern way) front u back

/-- Joining the moves of several ways leads where one of the ways leads. -/
theorem leads_foldl_joinMoves {before next : Option Char} {ways : List (List Step)}
    {ms : List Move} :
    Leads (ways.foldl (fun ms way => joinMoves ms (moves before next way)) ms) front u back
      ↔ Leads ms front u back ∨ ∃ way ∈ ways, Leads (moves before next way) front u back := by
  induction ways generalizing ms with
  | nil => simp
  | cons way ways ih =>
      rw [List.foldl_cons, ih, leads_joinMoves, or_assoc]
      simp

/-- The moves of all ways lead to what one of the ways fits. -/
theorem leads_allMoves_iff {ways : List (List Step)} :
    Leads (allMoves front.getLast? (u ++ back).head? ways) front u back
      ↔ AnyFits ways front u back := by
  rw [allMoves, leads_foldl_joinMoves, or_iff_right leads_nil]
  simp only [leads_moves_iff, AnyFits]

/-- Moves lead to the empty text when one accepts. -/
theorem leads_nil_iff {ms : List Move} : Leads ms front [] back ↔ Move.accept ∈ ms := by
  constructor
  · rintro ⟨_ | ⟨s, rest⟩, hm, hfits⟩
    · exact hm
    · obtain ⟨c, v, hnil, -⟩ := hfits
      exact absurd hnil (by simp)
  · exact fun hm => ⟨_, hm, rfl⟩

/-- Past a character, the ways left fit what the moves lead to behind it. -/
theorem anyFits_advance_iff {ms : List Move} {c : Char} {v : List Char} :
    AnyFits (advance c ms) (front ++ [c]) v back ↔ Leads ms front (c :: v) back := by
  simp only [AnyFits, advance, List.mem_eraseDups, List.mem_filterMap]
  constructor
  · rintro ⟨way, ⟨_ | ⟨s, rest⟩, hm, hway⟩, hfits⟩
    · exact absurd hway (by simp)
    · obtain ⟨hc, hrest⟩ := Option.ite_none_right_eq_some.mp hway
      rw [← Option.some.inj hrest] at hfits
      exact ⟨_, hm, c, v, rfl, hc, hfits⟩
  · rintro ⟨_ | ⟨s, rest⟩, hm, hfits⟩
    · exact absurd hfits (by simp [Move.Fits])
    · obtain ⟨d, w, heq, hd, hfits⟩ := hfits
      obtain ⟨rfl, rfl⟩ := List.cons.inj heq
      exact ⟨rest, ⟨_, hm, by simp [hd]⟩, hfits⟩

/-- More moves lead to no less. -/
theorem Leads.mono {ms ms' : List Move} (h : Leads ms front u back) (hsub : ms ⊆ ms') :
    Leads ms' front u back := by
  obtain ⟨m, hm, hfits⟩ := h
  exact ⟨m, hsub hm, hfits⟩

/-- Where nothing accepts, all moves are preferred. -/
theorem preferred_of_not_mem {ms : List Move} (h : .accept ∉ ms) : preferred ms = ms := by
  rw [preferred, List.takeWhile_eq_self_iff]
  intro m hm
  simpa using fun heq : m = .accept => h (heq ▸ hm)

section Search

variable {ways : List (List Step)} {count n : Nat} {best : Option Nat} {text : List Char}

/-- The match found so far, after a look at whether a way is complete here. -/
def bestHere (front : List Char) (ways : List (List Step)) (count : Nat) (best : Option Nat)
    (text : List Char) : Option Nat :=
  if (allMoves front.getLast? text.head? ways).contains .accept then some count else best

/-- The ways to follow behind the next character. -/
def waysBehind (front : List Char) (ways : List (List Step)) (c : Char) : List (List Step) :=
  advance c (preferred (allMoves front.getLast? (some c) ways))

theorem follow_nil :
    follow front.getLast? ways count best [] = bestHere front ways count best [] := rfl

/-- One step of following the ways, by the character it passes. -/
theorem follow_cons {c : Char} {rest : List Char} :
    follow front.getLast? ways count best (c :: rest)
      = if (waysBehind front ways c).isEmpty then bestHere front ways count best (c :: rest)
        else follow (front ++ [c]).getLast? (waysBehind front ways c) (count + 1)
          (bestHere front ways count best (c :: rest)) rest := by
  rw [List.getLast?_concat]
  rfl

/-- A way is complete at a place exactly if it matches without a character. -/
theorem accept_mem_allMoves_iff :
    .accept ∈ allMoves front.getLast? text.head? ways ↔ AnyFits ways front [] text := by
  rw [← leads_allMoves_iff, leads_nil_iff, List.nil_append]

/-- The best length so far is the one before or that of a fit that ends here. -/
theorem bestHere_eq_some (h : bestHere front ways count best text = some n) :
    best = some n ∨ n = count ∧ AnyFits ways front [] text := by
  rw [bestHere] at h
  split at h
  · rename_i haccept
    exact Or.inr ⟨(Option.some.inj h).symm,
      accept_mem_allMoves_iff.mp (List.contains_iff_mem.mp haccept)⟩
  · exact Or.inl h

/-- There is a best length when there was one or a way ends here. -/
theorem isSome_bestHere (h : best.isSome ∨ AnyFits ways front [] text) :
    (bestHere front ways count best text).isSome := by
  rw [bestHere]
  split
  · rfl
  · rename_i hnone
    refine h.resolve_right fun hfits => hnone ?_
    exact List.contains_iff_mem.mpr (accept_mem_allMoves_iff.mpr hfits)

/-- A fit behind a character is a fit that starts with it. -/
theorem AnyFits.of_waysBehind {c : Char}
    (h : AnyFits (waysBehind front ways c) (front ++ [c]) u back) :
    AnyFits ways front (c :: u) back := by
  have hleads := (anyFits_advance_iff.mp h).mono (List.takeWhile_subset _)
  exact leads_allMoves_iff.mp hleads

/-- Only a way that is complete makes the search give up others. -/
theorem AnyFits.waysBehind {c : Char} (h : AnyFits ways front (c :: u) back)
    (hnone : ¬ AnyFits ways front [] (c :: (u ++ back))) :
    AnyFits (waysBehind front ways c) (front ++ [c]) u back := by
  have hkept := preferred_of_not_mem (fun haccept => hnone (accept_mem_allMoves_iff.mp haccept))
  rw [Pattern.waysBehind, anyFits_advance_iff]
  rw [List.head?_cons] at hkept
  rw [hkept]
  exact leads_allMoves_iff.mpr h

/-- What the search ends with was there before, or one of the ways matches it. -/
theorem follow_fits (h : follow front.getLast? ways count best text = some n) :
    best = some n
      ∨ ∃ u back, text = u ++ back ∧ n = count + u.length ∧ AnyFits ways front u back := by
  have hhere : ∀ {front ways count best text}, bestHere front ways count best text = some n →
      best = some n
        ∨ ∃ u back, text = u ++ back ∧ n = count + u.length ∧ AnyFits ways front u back := by
    intro front ways count best text hbest
    exact (bestHere_eq_some hbest).imp_right fun ⟨hn, hfits⟩ => ⟨[], text, rfl, hn, hfits⟩
  -- on the text, with what has been passed of it in `front`
  induction text generalizing front ways count best with
  | nil => exact hhere h
  | cons c rest ih =>
      rw [follow_cons] at h
      split at h
      · exact hhere h
      · rcases ih h with hbest | ⟨u, back, rfl, rfl, hfits⟩
        · exact hhere hbest
        · refine Or.inr ⟨c :: u, back, rfl, ?_, hfits.of_waysBehind⟩
          rw [List.length_cons]
          omega

/-- No match is lost: the search ends with one if it has one or one of the ways matches. -/
theorem isSome_follow (h : best.isSome ∨ ∃ u back, text = u ++ back ∧ AnyFits ways front u back) :
    (follow front.getLast? ways count best text).isSome := by
  induction text generalizing front ways count best with
  | nil =>
      rw [follow_nil]
      refine isSome_bestHere (h.imp_right ?_)
      rintro ⟨u, back, hnil, hfits⟩
      obtain ⟨rfl, rfl⟩ := List.append_eq_nil_iff.mp hnil.symm
      exact hfits
  | cons c rest ih =>
      rw [follow_cons]
      by_cases hhere : best.isSome ∨ AnyFits ways front [] (c :: rest)
      · have hbest : (bestHere front ways count best (c :: rest)).isSome := isSome_bestHere hhere
        split
        · exact hbest
        · exact ih (Or.inl hbest)
      · obtain ⟨hnone, hincomplete⟩ := not_or.mp hhere
        obtain ⟨u, back, htext, hfits⟩ := h.resolve_left hnone
        cases u with
        | nil =>
            rw [List.nil_append] at htext
            exact absurd (htext ▸ hfits) hincomplete
        | cons d u =>
            obtain ⟨rfl, rfl⟩ := List.cons.inj htext
            have hbehind := hfits.waysBehind hincomplete
            have hne : (waysBehind front ways c).isEmpty = false := by
              obtain ⟨way, hway, -⟩ := hbehind
              simp [List.ne_nil_of_mem hway]
            rw [hne]
            exact ih (Or.inr ⟨u, back, rfl, hbehind⟩)

end Search

/-- A single pattern is a single way. -/
theorem anyFits_singleton : AnyFits [[.one p]] front u back ↔ Fits p front u back := by
  simp only [AnyFits, List.mem_singleton, exists_eq_left, wayPattern, Step.pattern]
  rw [fits_seq_iff]
  constructor
  · rintro ⟨v, w, rfl, hp, hempty⟩
    obtain rfl := fits_empty_iff.mp hempty
    rwa [List.append_nil]
  · exact fun hp => ⟨u, [], (List.append_nil u).symm, hp, .empty⟩

/-- What the search finds at a place, the pattern matches there. -/
theorem fits_of_matchLength? {text : List Char} {n : Nat}
    (h : p.matchLength? front.getLast? text = some n) :
    ∃ u back, text = u ++ back ∧ n = u.length ∧ Fits p front u back := by
  obtain ⟨u, back, htext, hn, hfits⟩ := (follow_fits h).resolve_left (by simp)
  exact ⟨u, back, htext, by rw [hn, Nat.zero_add], anyFits_singleton.mp hfits⟩

/-- Where the pattern matches, the search finds a match. -/
theorem isSome_matchLength?_iff {text : List Char} :
    (p.matchLength? front.getLast? text).isSome
      ↔ ∃ u back, text = u ++ back ∧ Fits p front u back := by
  constructor
  · intro h
    obtain ⟨n, hn⟩ := Option.isSome_iff_exists.mp h
    obtain ⟨u, back, htext, -, hfits⟩ := fits_of_matchLength? hn
    exact ⟨u, back, htext, hfits⟩
  · rintro ⟨u, back, htext, hfits⟩
    exact isSome_follow (Or.inr ⟨u, back, htext, anyFits_singleton.mpr hfits⟩)

/-! ## Matches in a text -/

/-- A match that the search takes is one of the pattern. -/
theorem Matches.fits {matched : List Char} (h : p.Matches front matched back) :
    Fits p front matched back := by
  obtain ⟨u, rest, htext, hlength, hfits⟩ := fits_of_matchLength? h.length
  obtain ⟨rfl, rfl⟩ := List.append_inj htext hlength
  exact hfits

/-- Where a pattern that needs a character matches, the search takes a match. -/
theorem Fits.exists_matches (hp : ∀ front back, ¬ Fits p front [] back)
    (h : Fits p front u back) :
    ∃ matched rest, u ++ back = matched ++ rest ∧ p.Matches front matched rest := by
  obtain ⟨n, hn⟩ := Option.isSome_iff_exists.mp (isSome_matchLength?_iff.mpr ⟨u, back, rfl, h⟩)
  obtain ⟨matched, rest, htext, rfl, hfits⟩ := fits_of_matchLength? hn
  refine ⟨matched, rest, htext, ?_, by rw [← htext, hn]⟩
  rintro rfl
  exact hp _ _ hfits

/-- The pattern matches the part `matched` of the text, which stands behind the part `front`. -/
def OccursAt (p : Pattern) (text front matched : List Char) : Prop :=
  ∃ back, text = front ++ matched ++ back ∧ Fits p front matched back

/-- What the search gives are places where the pattern matches. -/
theorem exists_occursAt_of_mem_spans {text : List Char} {s : Span} (hs : s ∈ p.spans text) :
    ∃ front matched, p.OccursAt text front matched
      ∧ s = ⟨byteSize front, byteSize (front ++ matched)⟩ := by
  obtain ⟨front, matched, back, htext, hspan, hmatches⟩ := (p.findsAll_spans text).isMatch s hs
  exact ⟨front, matched, ⟨back, htext, hmatches.fits⟩, hspan⟩

/-- Wherever a pattern that needs a character matches, the search gives a span that starts there or
goes over that place. -/
theorem OccursAt.exists_span {text : List Char} (h : p.OccursAt text front u)
    (hp : ∀ front back, ¬ Fits p front [] back) :
    ∃ s ∈ p.spans text, s.start ≤ byteSize front ∧ byteSize front < s.stop := by
  obtain ⟨back, htext, hfits⟩ := h
  obtain ⟨matched, rest, hrest, hmatches⟩ := hfits.exists_matches hp
  have hmatch : p.IsMatch text ⟨byteSize front, byteSize (front ++ matched)⟩ :=
    ⟨front, matched, rest, by rw [htext, List.append_assoc, hrest, ← List.append_assoc], rfl,
      hmatches⟩
  rcases (p.findsAll_spans text).complete _ hmatch with hmem | ⟨t, ht, hbefore, hinside⟩
  · exact ⟨_, hmem, Nat.le_refl _, hmatch.start_lt_stop⟩
  · exact ⟨t, ht, hbefore.le, hinside⟩

end Softcode.Pattern
