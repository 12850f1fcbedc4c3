import Softcode.Proofs.Overlay

/-!
# Looking up a dialect of an overlay

A catalogue is laid over another by identifiers as they are spelled, and a dialect is looked up by
its identifier without regard to case. So an overlay wins the look-up of its own dialects unless the
catalogue below has the identifier first in another spelling: that entry is not replaced, and it
comes before the new one (`overlay_wins_lookup`).

Only entries whose key meets a condition matter for what is found first under that condition. Of
the entries laid down, one does. It takes the place of the entry that was found before, or comes
after it (`find?_overlay`).
-/

namespace Softcode

variable {α : Type} {key : α → String} {p : String → Bool} {entry : α}

/-! ## What an overlay does to a search -/

/-- What a search finds once an entry that it looks for is laid over the list: the entry found
before stays in front, unless it has the same key. -/
def overFound (key : α → String) (entry : α) : Option α → α
  | none => entry
  | some found => if key found = key entry then entry else found

/-- An entry that the search passes over changes nothing: it has the key of what it replaces. -/
theorem find?_overlayEntry_of_not (h : p (key entry) = false) (entries : List α) :
    (overlayEntry key entries entry).find? (fun e => p (key e))
      = entries.find? fun e => p (key e) := by
  induction entries with
  | nil => simp [overlayEntry, h]
  | cons e rest ih =>
      rw [overlayEntry]
      by_cases he : key e = key entry
      · rw [if_pos (beq_iff_eq.mpr he), List.find?_cons_of_neg (by simp [h]),
          List.find?_cons_of_neg (by simp [he, h])]
      · rw [if_neg (by simpa using he), List.find?_cons, List.find?_cons, ih]

/-- An entry that answers a search is found once it is laid over, unless the search found one with
another key before. -/
theorem find?_overlayEntry (h : p (key entry) = true) (entries : List α) :
    (overlayEntry key entries entry).find? (fun e => p (key e))
      = some (overFound key entry (entries.find? fun e => p (key e))) := by
  induction entries with
  | nil => simp [overlayEntry, overFound, h]
  | cons e rest ih =>
      rw [overlayEntry]
      by_cases he : key e = key entry
      · rw [if_pos (beq_iff_eq.mpr he), List.find?_cons_of_pos (by simp [h]),
          List.find?_cons_of_pos (by simp [he, h]), overFound, if_pos he]
      · rw [if_neg (by simpa using he), List.find?_cons, List.find?_cons, ih]
        split
        · rw [overFound, if_neg he]
        · rfl

/-- Entries that do not answer a search do not change what it finds. -/
theorem find?_overlay_of_not {top : List α} (h : ∀ e ∈ top, p (key e) = false) (base : List α) :
    (overlay key base top).find? (fun e => p (key e)) = base.find? fun e => p (key e) := by
  induction top generalizing base with
  | nil => rfl
  | cons entry rest ih =>
      obtain ⟨hentry, hrest⟩ := List.forall_mem_cons.mp h
      rw [overlay, List.foldl_cons, ← overlay, ih hrest, find?_overlayEntry_of_not hentry]

/-- Of the entries laid down only one counts for the search. -/
theorem find?_overlay {front back : List α} (h : p (key entry) = true)
    (hfront : ∀ e ∈ front, p (key e) = false) (hback : ∀ e ∈ back, p (key e) = false)
    (base : List α) :
    (overlay key base (front ++ entry :: back)).find? (fun e => p (key e))
      = some (overFound key entry (base.find? fun e => p (key e))) := by
  have hsplit : overlay key base (front ++ entry :: back)
      = overlay key (overlayEntry key (overlay key base front) entry) back := by
    simp only [overlay, List.foldl_append, List.foldl_cons]
  rw [hsplit, find?_overlay_of_not hback, find?_overlayEntry h, find?_overlay_of_not hfront]

/-! ## Dialects -/

theorem Text.sameName_comm (a b : String) : sameName a b = sameName b a := by
  simp only [sameName, Bool.beq_comm]

theorem Text.sameName_self (a : String) : sameName a a = true := beq_self_eq_true _

namespace Catalogue

/-- Identifiers that name the dialects of a catalogue in a look-up: they have no blanks around them,
and no two differ in case alone. -/
structure HasPlainIds (c : Catalogue) : Prop where
  trimmed : ∀ d ∈ c.dialects, Text.trim d.id.toList = d.id.toList
  distinct : c.dialects.Pairwise fun d e => Text.sameName d.id e.id = false

/-- The first dialect with an identifier, in any spelling. -/
def spelled? (c : Catalogue) (id : String) : Option Dialect :=
  c.dialects.find? fun e => Text.sameName e.id id

/-- A dialect found by its identifier is found, whatever the display names are. -/
theorem dialect?_of_spelled? {c : Catalogue} {id : String} {d : Dialect}
    (hid : Text.trim id.toList = id.toList) (h : c.spelled? id = some d) :
    c.dialect? id = some d := by
  rw [dialect?, hid, String.ofList_toList]
  rw [spelled?] at h
  rw [h]
  rfl

/-- A dialect of the top is found by its spelling, over what the base has. -/
theorem spelled?_merge {base top : Catalogue} (h : top.HasPlainIds) {d : Dialect}
    (hd : d ∈ top.dialects) :
    (base.merge top).spelled? d.id = some (overFound Dialect.id d (base.spelled? d.id)) := by
  obtain ⟨front, back, hsplit⟩ := List.append_of_mem hd
  obtain ⟨-, hback, hfront⟩ := List.pairwise_append.mp (hsplit ▸ h.distinct)
  rw [spelled?, merge, hsplit]
  refine find?_overlay (p := fun id => Text.sameName id d.id) (Text.sameName_self _) ?_ ?_ _
  · intro e he
    exact hfront e he d List.mem_cons_self
  · intro e he
    rw [Text.sameName_comm]
    exact (List.pairwise_cons.mp hback).1 e he

/-- **An overlay wins the look-up of its dialects, unless the catalogue below spells the identifier
otherwise.** A dialect of the overlay is found under its identifier exactly if the first entry below
with that identifier, in any case, spells it the same way, or there is none. Otherwise the entry
below is found. -/
theorem overlay_wins_lookup (base : Catalogue) {top : Catalogue} (h : top.HasPlainIds)
    {d : Dialect} (hd : d ∈ top.dialects) :
    ((base.merge top).dialect? d.id = some d ↔ ∀ e, base.spelled? d.id = some e → e.id = d.id)
      ∧ ∀ e, base.spelled? d.id = some e → e.id ≠ d.id →
        (base.merge top).dialect? d.id = some e := by
  have hfound : (base.merge top).dialect? d.id
      = some (overFound Dialect.id d (base.spelled? d.id)) :=
    dialect?_of_spelled? (h.trimmed d hd) (spelled?_merge h hd)
  rw [hfound]
  cases hbelow : base.spelled? d.id with
  | none => simp [overFound]
  | some e =>
      by_cases hid : e.id = d.id
      · simp [overFound, hid]
      · have hne : e ≠ d := fun heq => hid (congrArg Dialect.id heq)
        simp [overFound, hid, hne]

/-- Below there is one dialect with the identifier of the overlay and one that spells it otherwise.
-/
theorem overlay_wins_lookup_two_spellings :
    ∃ base top : Catalogue, top.HasPlainIds
      ∧ (base.merge top).dialects.map (fun d => (d.id, d.name))
        = [("mux", "TinyMUX 2"), ("PENN", "PennMUSH"), ("penn", "PennMUSH 2")]
      ∧ (base.merge top).dialect? "mux" = some { id := "mux", name := "TinyMUX 2" }
      ∧ (base.merge top).dialect? "penn" = some { id := "PENN", name := "PennMUSH" } := by
  let dialect (id name : String) : Dialect := { id, name }
  let base : Catalogue := { dialects := [dialect "mux" "TinyMUX", dialect "PENN" "PennMUSH"] }
  let top : Catalogue :=
    { dialects := [dialect "mux" "TinyMUX 2", dialect "penn" "PennMUSH 2"] }
  have htop : top.HasPlainIds := ⟨by decide, by decide⟩
  have hmux : dialect "mux" "TinyMUX 2" ∈ top.dialects := List.mem_cons_self
  have hpenn : dialect "penn" "PennMUSH 2" ∈ top.dialects :=
    List.mem_cons_of_mem _ List.mem_cons_self
  refine ⟨base, top, htop, by decide, ?_, ?_⟩
  · have hbelow : base.spelled? "mux" = some (dialect "mux" "TinyMUX") := by decide
    refine (overlay_wins_lookup base htop hmux).1.mpr fun e he => ?_
    rw [← Option.some.inj (hbelow.symm.trans he)]
  · exact (overlay_wins_lookup base htop hpenn).2 _ (by decide) (by decide)

/-- The look-up of a dialect of an overlay can give the dialect below it. -/
theorem overlay_loses_lookup :
    ∃ (base top : Catalogue) (d : Dialect), top.HasPlainIds ∧ (∀ e ∈ top.dialects, e.id ≠ "")
      ∧ d ∈ top.dialects ∧ (base.merge top).dialect? d.id ≠ some d := by
  let below : Dialect := { id := "PENN", name := "PennMUSH" }
  let d : Dialect := { id := "penn", name := "PennMUSH 2" }
  exact ⟨{ dialects := [below] }, { dialects := [d] }, d, ⟨by decide, by decide⟩, by decide,
    List.mem_cons_self, by decide⟩

end Catalogue

end Softcode
