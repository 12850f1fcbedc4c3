import Softcode.Proofs.ExactScore
import Softcode.Proofs.LineInsertion

/-!
# Documentation never hurts

Full-line comments put into a script, anywhere, never lower its maintainability score
(`comments_never_lower_maintainability`). Three things could move. The length tiers and the bonus
for short scripts count code lines, which stay. The share of comments can only grow. And of the
advice only the one on branches without a comment looks beyond its own line, at the line above it:
a comment put in between can end that advice, never start it, so the advice after the insertion is
part of the advice before it, renumbered (`review_sublist`).
-/

namespace Softcode

/-- The improvement with its line renumbered. -/
def Improvement.renumber (ρ : Nat → Nat) (f : Improvement) : Improvement :=
  { f with line := ρ f.line }

namespace Practice

/-! ## Advice after an insertion -/

/-- A pass over the code lines alone gives the same advice on the renumbered lines. -/
theorem pass_renumber (c : Context) (text : List Char)
    (e : Insertion Line.isComment c.lines (Text.lines text)) (tips : List Char → List Tip) :
    pass { c with text } tips = (pass c tips).map (Improvement.renumber e.renumber) := by
  have hcode := c.codeLines_eq_map_renumber (fun _ => Line.isCode_eq_false_of_isComment) text e
  simp only [pass, hcode, List.flatMap_map, List.map_flatMap, List.map_map]
  rfl

/-- A branch needs no comment of its own on a line that got one above it. -/
theorem branchComment_sublist {above above' : Option (List Char)}
    (h : above.any Line.isComment = true → above'.any Line.isComment = true) (line : List Char) :
    (branchComment above' line).toList.Sublist (branchComment above line).toList := by
  simp only [branchComment]
  split
  · exact List.Sublist.refl _
  · by_cases hold : (hasCommentMark line || above.any Line.isComment) = true
    · have hnew : (hasCommentMark line || above'.any Line.isComment) = true := by
        rw [Bool.or_eq_true_iff] at hold ⊢
        exact hold.imp_right h
      rw [if_pos hnew]
      exact List.nil_sublist _
    · rw [if_neg hold]
      split
      · exact List.nil_sublist _
      · exact List.Sublist.refl _

/-- Along an insertion of comments the style advice can only get less. The line above a kept line is
the old one, or a comment that was put in before it. -/
theorem styleFrom_sublist (unit : Nat) {old new : List (List Char)}
    (e : Insertion Line.isComment old new) {ρ : Nat → Nat} {first first' : Nat}
    (hρ : e.Carries ρ first first') {above above' : Option (List Char)}
    (habove : above.any Line.isComment = true → above'.any Line.isComment = true) :
    (styleFrom unit first' above' new).Sublist
      ((styleFrom unit first above old).map (Improvement.renumber ρ)) := by
  induction e generalizing first first' above above' with
  | done => exact List.Sublist.refl _
  | keep line e ih =>
      obtain ⟨hfirst, hrest⟩ := hρ.of_keep
      simp only [styleFrom, List.map_append]
      refine List.Sublist.append ?_ (ih hrest id)
      split
      · have htips : (style unit above' line).Sublist (style unit above line) :=
          (List.Sublist.refl _).append (branchComment_sublist habove line)
        rw [List.map_map, ← hfirst]
        exact htips.map _
      · exact List.Sublist.refl _
  | insert line hline e ih =>
      have hcode : ¬ Line.isCode line = true := by
        simp [Line.isCode_eq_false_of_isComment hline]
      rw [styleFrom, if_neg hcode, List.nil_append]
      exact ih hρ.of_insert fun _ => hline

/-- After comments have been put in, the advice is part of what it was, on the renumbered lines. -/
theorem review_sublist (c : Context) (text : List Char)
    (e : Insertion Line.isComment c.lines (Text.lines text)) :
    (review { c with text }).Sublist ((review c).map (Improvement.renumber e.renumber)) := by
  simp only [review, pass_renumber c text e, List.map_append]
  have hstyle : (styleFrom c.settings.indentUnit 1 none (Text.lines text)).Sublist
      ((styleFrom c.settings.indentUnit 1 none c.lines).map (Improvement.renumber e.renumber)) :=
    styleFrom_sublist _ e e.carries_renumber id
  exact (((hstyle.append_right _).append_right _).append_right _).append_right _

end Practice

/-! ## The score -/

/-- What the score looks at besides the advice: as many code lines, and only comments more. -/
theorem Score.measures_of_comments (c : Context) (text : List Char)
    (e : Insertion Line.isComment c.lines (Text.lines text)) :
    (measures { c with text }).codeLines = (measures c).codeLines
      ∧ (commentRatio (measures c) : ℚ) ≤ commentRatio (measures { c with text }) := by
  have hcode := c.codeLines_eq_map_renumber (fun _ => Line.isCode_eq_false_of_isComment) text e
  obtain ⟨k, htotal, hcomments⟩ := e.exists_count
  refine ⟨?_, commentRatio_le_of_added List.countP_le_length htotal hcomments⟩
  simp only [measures, hcode, List.length_map]

/-- The exact maintainability score of a context never drops when comments are put in. -/
theorem Context.maintainability_le_of_comments {w : Weights ℚ} (hw : w.RewardsComments)
    (c : Context) (text : List Char) (e : Insertion Line.isComment c.lines (Text.lines text))
    (read : Pattern.Reader) (rules : List SecurityRule) :
    Score.maintainability w (Score.measures c)
        ((c.analyze read rules).improvements.map Improvement.aspect)
      ≤ Score.maintainability w (Score.measures { c with text })
        ((Context.analyze { c with text } read rules).improvements.map Improvement.aspect) := by
  obtain ⟨hcode, hratio⟩ := Score.measures_of_comments c text e
  refine Score.maintainability_mono hw hcode hratio ?_
  simp only [Context.analyze]
  split
  · -- renumbering an improvement does not touch its aspect
    have hsublist := (Practice.review_sublist c text e).map Improvement.aspect
    rw [List.map_map] at hsublist
    exact hsublist
  · exact List.Sublist.refl _

/-- Under these weights no script scores lower in maintainability once full-line comments are put
into its text: if both analyses succeed, the exact scores compare. -/
def Weights.CommentsNeverHurt (w : Weights ℚ) : Prop :=
  ∀ (r : Request) (text : String) (read : Pattern.Reader) (catalogue : Catalogue)
    (settings : Settings) (result result' : AnalysisResult),
    Insertion Line.isComment (Text.lines r.text.toList) (Text.lines text.toList) →
    r.analyze read catalogue settings = .ok result →
    Request.analyze { r with text } read catalogue settings = .ok result' →
    ∃ s s', r.scoresWith w read catalogue settings = .ok s
      ∧ Request.scoresWith w { r with text } read catalogue settings = .ok s'
      ∧ s.maintainability ≤ s'.maintainability

/-- The dialect that a request is analysed for does not depend on its text. -/
theorem Request.context_with_text {r : Request} {text : String} {catalogue : Catalogue}
    {settings : Settings} {c c' : Context} (h : r.context catalogue settings = .ok c)
    (h' : Request.context { r with text } catalogue settings = .ok c') :
    c' = { c with text := text.toList } := by
  obtain ⟨-, -, dialect, hdialect, rfl⟩ := Request.context_eq_ok_iff.mp h
  obtain ⟨-, -, dialect', hdialect', rfl⟩ := Request.context_eq_ok_iff.mp h'
  have hsame : dialect' = dialect := Except.ok.inj (hdialect'.symm.trans hdialect)
  rw [hsame]

/-- **Documentation never hurts.** Full-line comments put anywhere into a script never lower its
maintainability score in exact arithmetic, under the standard weights and under all others for which
the penalties for few comments, the bonus for many and what a piece of advice costs are not
negative. -/
theorem comments_never_lower_maintainability :
    (Weights.standard : Weights ℚ).CommentsNeverHurt
      ∧ ∀ w : Weights ℚ, w.RewardsComments → w.CommentsNeverHurt := by
  have hgeneral : ∀ w : Weights ℚ, w.RewardsComments → w.CommentsNeverHurt := by
    intro w hw r text read catalogue settings result result' e h h'
    obtain ⟨c, hc, -⟩ := Request.exists_context_of_analyze_ok h
    obtain ⟨c', hc', -⟩ := Request.exists_context_of_analyze_ok h'
    obtain rfl := Request.context_with_text hc hc'
    obtain ⟨htext, -, -⟩ := Request.context_of_ok hc
    rw [← htext] at e
    refine ⟨_, _, by rw [Request.scoresWith, hc], by rw [Request.scoresWith, hc'], ?_⟩
    exact Score.bounded_mono
      (c.maintainability_le_of_comments hw text.toList e read catalogue.rules)
  exact ⟨hgeneral _ Weights.rewardsComments_standard, hgeneral⟩

/-- A comment above a branch under the standard weights: the advice to write one goes, both
penalties for few comments turn into the bonus for many, and the score rises from 78 to its upper
bound. -/
theorem comments_never_lower_maintainability_branch :
    ∃ s s',
      Request.scoresWith (Weights.standard : Weights ℚ) { text := "think switch(%0,1,2)" }
        Pattern.ofText? {} {} = .ok s
      ∧ Request.scoresWith (Weights.standard : Weights ℚ)
          { text := "@@ why\nthink switch(%0,1,2)" } Pattern.ofText? {} {} = .ok s'
      ∧ s.maintainability ≤ s'.maintainability
      ∧ s.maintainability = 78 ∧ s'.maintainability = 100 := by
  have hcomment : Line.isComment "@@ why".toList = true := by decide
  obtain ⟨s, s', hs, hs', hle⟩ :=
    comments_never_lower_maintainability.2 _ Weights.rewardsComments_standard
      { text := "think switch(%0,1,2)" } "@@ why\nthink switch(%0,1,2)" Pattern.ofText? {} {} _ _
      (.insert _ hcomment (.keep _ .done)) rfl rfl
  refine ⟨s, s', hs, hs', hle, ?_, ?_⟩
  · rw [← Except.ok.inj hs]
    decide +kernel
  · rw [← Except.ok.inj hs']
    decide +kernel

end Softcode
