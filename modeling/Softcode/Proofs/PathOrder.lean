import Mathlib.Data.List.Sort
import Softcode.Batch

/-!
# The order of paths

Paths are compared part by part. The comparison is lexicographic on the lists of parts, so it is a
linear order on these (`compareParts_eq_compareLex`), and two paths are level exactly if they have
the same parts (`Path.order_eq_eq_iff`). Arranging paths leaves one path for each list of parts, in
strictly ascending order (`pairwise_arrange`); as lists of parts, the result is therefore determined
by the set of paths alone (`map_parts_arrange`).
-/

namespace Softcode

/-! ## A linear order on lists of parts -/

/-- The name of a part, if it is one. -/
def Part.label : Part → String
  | .name s => s
  | _ => ""

/-- Parts are compared by their kind and then by their name. -/
theorem Part.order_eq_compareLex :
    Part.order = compareLex (compareOn Part.rank) (compareOn Part.label) := by
  funext a b
  cases a <;> cases b <;> rfl

instance : Std.TransCmp Part.order := by
  rw [Part.order_eq_compareLex]
  infer_instance

instance : Std.LawfulEqCmp Part.order where
  compare_self {a} := by
    rw [Part.order_eq_compareLex]
    exact Std.ReflCmp.compare_self
  eq_of_compare {a b} h := by
    rw [Part.order_eq_compareLex, compareLex_eq_eq] at h
    have hrank : a.rank = b.rank := Std.LawfulEqOrd.eq_of_compare h.1
    have hlabel : a.label = b.label := Std.LawfulEqOrd.eq_of_compare h.2
    cases a <;> cases b <;> simp_all [Part.rank, Part.label]

/-- Lists of parts are compared from left to right, and a front part comes first. -/
theorem compareParts_eq_compareLex : Path.compareParts = List.compareLex Part.order := by
  funext as bs
  induction as generalizing bs with
  | nil =>
      cases bs with
      | nil => rw [Path.compareParts, List.compareLex_nil_nil]
      | cons b bs => rw [Path.compareParts, List.compareLex_nil_cons]
  | cons a as ih =>
      cases bs with
      | nil => rw [Path.compareParts, List.compareLex_cons_nil]
      | cons b bs => rw [Path.compareParts, List.compareLex_cons_cons, ih]

instance : Std.TransCmp Path.compareParts := by
  rw [compareParts_eq_compareLex]
  infer_instance

instance : Std.LawfulEqCmp Path.compareParts := by
  rw [compareParts_eq_compareLex]
  infer_instance

namespace Path

theorem same_iff {p q : Path} : p.same q = true ↔ p.parts = q.parts := beq_iff_eq

instance : Std.TransCmp Path.order where
  eq_swap {p q} := by
    show compareParts p.parts q.parts = (compareParts q.parts p.parts).swap
    exact Std.OrientedCmp.eq_swap
  isLE_trans {p q r} hpq hqr := by
    show (compareParts p.parts r.parts).isLE
    exact Std.TransCmp.isLE_trans hpq hqr

/-- Paths are equal in the order when their parts are. -/
theorem order_eq_eq_iff {p q : Path} : p.order q = .eq ↔ p.parts = q.parts := by
  show compareParts p.parts q.parts = .eq ↔ _
  exact Std.LawfulEqCmp.compare_eq_iff_eq

/-- Paths in order with different parts are in strict order. -/
theorem order_eq_lt_of_isLE {p q : Path} (hle : (p.order q).isLE) (hne : p.parts ≠ q.parts) :
    p.order q = .lt := by
  rcases Ordering.isLE_iff_eq_lt_or_eq_eq.mp hle with hlt | heq
  · exact hlt
  · exact absurd (order_eq_eq_iff.mp heq) hne

/-- Paths in strict order have different parts. -/
theorem parts_ne_of_order_eq_lt {p q : Path} (h : p.order q = .lt) : p.parts ≠ q.parts := by
  intro hparts
  rw [order_eq_eq_iff.mpr hparts] at h
  exact absurd h (by decide)

end Path

/-! ## Arranged paths -/

namespace Batch

/-- Dropping repeats keeps the order of the rest. -/
theorem dropRepeats_sublist (last : Path) (paths : List Path) :
    (dropRepeats last paths).Sublist paths := by
  induction paths generalizing last with
  | nil => exact List.Sublist.refl []
  | cons p rest ih =>
      rw [dropRepeats]
      split
      · exact (ih last).cons p
      · exact (ih p).cons_cons p

/-- A path that is dropped has the parts of one that stays. -/
theorem exists_mem_dropRepeats (last : Path) {paths : List Path} {p : Path} (h : p ∈ paths) :
    ∃ q ∈ last :: dropRepeats last paths, q.parts = p.parts := by
  induction paths generalizing last with
  | nil => exact absurd h List.not_mem_nil
  | cons first rest ih =>
      rw [dropRepeats]
      by_cases hsame : last.same first = true
      · rw [if_pos hsame]
        rcases List.mem_cons.mp h with rfl | hrest
        · exact ⟨last, List.mem_cons_self, Path.same_iff.mp hsame⟩
        · exact ih last hrest
      · rw [if_neg hsame]
        rcases List.mem_cons.mp h with rfl | hrest
        · exact ⟨p, by simp, rfl⟩
        · obtain ⟨q, hq, hparts⟩ := ih first hrest
          exact ⟨q, List.mem_cons_of_mem last hq, hparts⟩

/-- The induction is on the paths, with the last one that was kept in front of them. -/
theorem pairwise_dropRepeats {last : Path} {paths : List Path}
    (h : (last :: paths).Pairwise fun p q => (p.order q).isLE) :
    (last :: dropRepeats last paths).Pairwise fun p q => p.order q = .lt := by
  induction paths generalizing last with
  | nil => exact List.pairwise_singleton _ _
  | cons p rest ih =>
      obtain ⟨hlast, hrest⟩ := List.pairwise_cons.mp h
      rw [dropRepeats]
      by_cases hsame : last.same p = true
      · rw [if_pos hsame]
        refine ih (List.pairwise_cons.mpr ⟨?_, (List.pairwise_cons.mp hrest).2⟩)
        intro q hq
        exact hlast q (List.mem_cons_of_mem p hq)
      · have hkept := ih hrest
        have hlt : last.order p = .lt := by
          refine Path.order_eq_lt_of_isLE (hlast p List.mem_cons_self) ?_
          exact fun hparts => hsame (Path.same_iff.mpr hparts)
        rw [if_neg hsame]
        refine List.pairwise_cons.mpr ⟨?_, hkept⟩
        intro q hq
        rcases List.mem_cons.mp hq with rfl | hq
        · exact hlt
        · exact Std.TransCmp.lt_trans hlt ((List.pairwise_cons.mp hkept).1 q hq)

/-- The sorted paths are in order. -/
theorem pairwise_sorted (paths : List Path) :
    (paths.mergeSort fun p q => (p.order q).isLE).Pairwise fun p q => (p.order q).isLE := by
  refine List.pairwise_mergeSort ?_ ?_ paths
  · intro p q r hpq hqr
    exact Std.TransCmp.isLE_trans hpq hqr
  · intro p q
    have hswap : p.order q = (q.order p).swap := Std.OrientedCmp.eq_swap
    rw [hswap]
    cases q.order p <;> rfl

/-- Arranged paths ascend strictly, so none has the parts of another. -/
theorem pairwise_arrange (paths : List Path) :
    (arrange paths).Pairwise fun p q => p.order q = .lt := by
  have hsorted := pairwise_sorted paths
  rw [arrange]
  split
  · exact List.Pairwise.nil
  · next p rest hp =>
    rw [hp] at hsorted
    exact pairwise_dropRepeats hsorted

/-- Every arranged path is one of the paths. -/
theorem mem_of_mem_arrange {paths : List Path} {p : Path} (h : p ∈ arrange paths) : p ∈ paths := by
  rw [arrange] at h
  split at h
  · exact absurd h List.not_mem_nil
  · next first rest hp =>
    rw [← List.mem_mergeSort, hp]
    exact ((dropRepeats_sublist first rest).cons_cons first).subset h

/-- Every path is arranged, perhaps in another spelling. -/
theorem exists_mem_arrange {paths : List Path} {p : Path} (h : p ∈ paths) :
    ∃ q ∈ arrange paths, q.parts = p.parts := by
  have hsorted : p ∈ paths.mergeSort fun p q => (p.order q).isLE := List.mem_mergeSort.mpr h
  rw [arrange]
  split
  · next hp =>
    rw [hp] at hsorted
    exact absurd hsorted List.not_mem_nil
  · next first rest hp =>
    rw [hp] at hsorted
    rcases List.mem_cons.mp hsorted with rfl | hrest
    · exact ⟨p, List.mem_cons_self, rfl⟩
    · exact exists_mem_dropRepeats first hrest

/-- The arranged paths have the parts that the paths have. -/
theorem mem_map_parts_arrange {paths : List Path} {parts : List Part} :
    parts ∈ (arrange paths).map Path.parts ↔ parts ∈ paths.map Path.parts := by
  constructor
  · intro h
    obtain ⟨p, hp, rfl⟩ := List.mem_map.mp h
    exact List.mem_map_of_mem (mem_of_mem_arrange hp)
  · intro h
    obtain ⟨p, hp, rfl⟩ := List.mem_map.mp h
    obtain ⟨q, hq, hparts⟩ := exists_mem_arrange hp
    exact List.mem_map.mpr ⟨q, hq, hparts⟩

/-- Order and repetition of paths do not show after they have been arranged. -/
theorem map_parts_arrange {paths others : List Path}
    (h : ∀ parts, parts ∈ paths.map Path.parts ↔ parts ∈ others.map Path.parts) :
    (arrange paths).map Path.parts = (arrange others).map Path.parts := by
  have hascends : ∀ l : List Path, ((arrange l).map Path.parts).Pairwise
      fun as bs => Path.compareParts as bs = .lt := by
    intro l
    exact List.pairwise_map.mpr (pairwise_arrange l)
  -- two strictly ascending lists with the same members are equal
  have hself : ∀ as, Path.compareParts as as ≠ .lt := by
    intro as hlt
    have heq : Path.compareParts as as = .eq := Std.ReflCmp.compare_self
    rw [heq] at hlt
    exact absurd hlt (by decide)
  have hirrefl : Std.Irrefl fun as bs => Path.compareParts as bs = .lt := ⟨hself⟩
  have hantisymm : Std.Antisymm fun as bs => Path.compareParts as bs = .lt := by
    constructor
    intro as bs hlt hgt
    exact absurd (Std.TransCmp.lt_trans hlt hgt) (hself as)
  refine (hascends paths).eq_of_mem_iff (hascends others) ?_
  intro parts
  rw [mem_map_parts_arrange, mem_map_parts_arrange]
  exact h parts

end Batch

end Softcode
