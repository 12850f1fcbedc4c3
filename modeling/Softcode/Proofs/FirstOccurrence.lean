import Mathlib.Data.List.Basic

/-!
# First occurrences

Where something is to be said once for each key, a pass goes through a list with the keys it has
seen and leaves out what has one of them (`firstBy`). That is the library's `List.eraseDupsBy`
(`firstBy_nil`), which commutes with maps and with every choice that only looks at the key.
-/

namespace Softcode

variable {α β κ : Type}

/-- Elements that give nothing can be left out. -/
theorem flatMap_filter_of_nil {p : α → Bool} {f : α → List β} (as : List α)
    (h : ∀ a ∈ as, p a = false → f a = []) : (as.filter p).flatMap f = as.flatMap f := by
  induction as with
  | nil => rfl
  | cons a as ih =>
      have hrest := ih fun b hb => h b (List.mem_cons_of_mem a hb)
      cases ha : p a with
      | false =>
          rw [List.filter_cons_of_neg (by simp [ha]), List.flatMap_cons,
            h a List.mem_cons_self ha, List.nil_append, hrest]
      | true => rw [List.filter_cons_of_pos ha, List.flatMap_cons, List.flatMap_cons, hrest]

/-- Erasing repeats keeps the order of the rest. -/
theorem eraseDupsBy_sublist (r : α → α → Bool) (as : List α) :
    (as.eraseDupsBy r).Sublist as := by
  match as with
  | [] => exact List.Sublist.refl []
  | a :: as =>
      have ih := eraseDupsBy_sublist r (as.filter fun b => r b a = false)
      rw [List.eraseDupsBy_cons]
      exact (ih.trans List.filter_sublist).cons_cons a
termination_by as.length
decreasing_by exact Nat.lt_succ_of_le (List.length_filter_le _ _)

/-- Keeping the first of each kind commutes with a choice that only looks at the kind. -/
theorem filter_eraseDupsBy {r : α → α → Bool} {p : α → Bool}
    (hr : ∀ a b, r a b = true → p a = p b) (as : List α) :
    (as.eraseDupsBy r).filter p = (as.filter p).eraseDupsBy r := by
  match as with
  | [] => rfl
  | a :: as =>
      have ih := filter_eraseDupsBy hr (as.filter fun b => r b a = false)
      rw [List.eraseDupsBy_cons]
      cases ha : p a with
      | true =>
          rw [List.filter_cons_of_pos ha, List.filter_cons_of_pos ha, List.eraseDupsBy_cons, ih,
            List.filter_filter, List.filter_filter]
          simp only [Bool.and_comm]
      | false =>
          -- nothing of the kind of `a` is chosen, so nothing is lost with it
          have hkind : (as.filter fun b => r b a = false).filter p = as.filter p := by
            rw [List.filter_filter]
            refine List.filter_congr fun b _ => ?_
            cases hb : r b a with
            | true => simp [hr b a hb, ha]
            | false => simp
          rw [List.filter_cons_of_neg (by simp [ha]), List.filter_cons_of_neg (by simp [ha]), ih,
            hkind]
termination_by as.length
decreasing_by exact Nat.lt_succ_of_le (List.length_filter_le _ _)

/-- Kinds may be told apart before or after a map. -/
theorem map_eraseDupsBy (r : β → β → Bool) (f : α → β) (as : List α) :
    (as.eraseDupsBy fun a b => r (f a) (f b)).map f = (as.map f).eraseDupsBy r := by
  match as with
  | [] => rfl
  | a :: as =>
      have ih := map_eraseDupsBy r f (as.filter fun b => r (f b) (f a) = false)
      rw [List.eraseDupsBy_cons, List.map_cons, List.map_cons, List.eraseDupsBy_cons, ih,
        List.filter_map]
      rfl
termination_by as.length
decreasing_by exact Nat.lt_succ_of_le (List.length_filter_le _ _)

theorem nodup_eraseDups [BEq α] [LawfulBEq α] (as : List α) : as.eraseDups.Nodup := by
  match as with
  | [] => exact List.nodup_nil
  | a :: as =>
      have ih := nodup_eraseDups (as.filter fun b => !b == a)
      rw [List.eraseDups_cons, List.nodup_cons]
      refine ⟨?_, ih⟩
      intro hmem
      simpa using (List.mem_filter.mp (List.mem_eraseDups.mp hmem)).2
termination_by as.length
decreasing_by exact Nat.lt_succ_of_le (List.length_filter_le _ _)

/-- Nothing is left out where nothing is repeated. -/
theorem eraseDups_of_nodup [BEq α] [LawfulBEq α] {as : List α} (h : as.Nodup) :
    as.eraseDups = as := by
  induction as with
  | nil => rfl
  | cons a as ih =>
      obtain ⟨ha, has⟩ := List.nodup_cons.mp h
      have hkept : (as.filter fun b => !b == a) = as := by
        refine List.filter_eq_self.mpr fun b hb => ?_
        have hne : b ≠ a := fun heq => ha (heq ▸ hb)
        simpa using hne
      rw [List.eraseDups_cons, hkept, ih has]

variable [BEq κ]

/-- The elements whose keys are not among those seen and did not come before. -/
def firstBy (key : α → κ) (seen : List κ) : List α → List α
  | [] => []
  | a :: rest =>
    if seen.contains (key a) then firstBy key seen rest
    else a :: firstBy key (key a :: seen) rest

/-- The induction is on the list; what has a key already seen is gone from the list that the library
walks. -/
theorem firstBy_eq (key : α → κ) (seen : List κ) (as : List α) :
    firstBy key seen as
      = (as.filter fun a => !seen.contains (key a)).eraseDupsBy fun a b => key a == key b := by
  induction as generalizing seen with
  | nil => rfl
  | cons a rest ih =>
      rw [firstBy]
      by_cases hseen : seen.contains (key a) = true
      · rw [if_pos hseen, List.filter_cons_of_neg (by simp only [hseen]; decide), ih]
      · have hlater : ∀ b, (!(key a :: seen).contains (key b))
            = (decide ((key b == key a) = false) && !seen.contains (key b)) := by
          intro b
          rw [List.contains_cons, Bool.not_or]
          cases key b == key a <;> rfl
        rw [if_neg hseen, List.filter_cons_of_pos (by simpa using hseen), List.eraseDupsBy_cons,
          List.filter_filter, ih]
        simp only [hlater]

/-- With nothing seen, the first of each key are the members without repeats. -/
theorem firstBy_nil (key : α → κ) (as : List α) :
    firstBy key [] as = as.eraseDupsBy fun a b => key a == key b := by
  have hall : (as.filter fun a => !([] : List κ).contains (key a)) = as :=
    List.filter_eq_self.mpr fun _ _ => rfl
  rw [firstBy_eq, hall]

end Softcode
