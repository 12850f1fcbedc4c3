import Mathlib.Data.List.Nodup
import Softcode.Catalogue.Basic
import Softcode.Proofs.FirstOccurrence

/-!
# The algebra of overlays

An overlay searches the list that it changes, so an entry laid down early can be replaced by a later
one of the same overlay. Two facts say all that comes of it: which keys the result has, in order
(`map_key_overlay`), and which entry it has for a key (`firstWith?_overlay`). A list without
repeated keys is determined by these two (`eq_of_entries`), and the laws of overlays follow: laying
down one entry after an overlay is the same as laying it on the overlay first
(`overlay_overlayEntry`), which makes overlays associative, and lists without repeated keys have the
empty list as identity and are idempotent.
-/

namespace Softcode

variable {α : Type} {key : α → String}

/-- The first entry with a key. -/
def firstWith? (key : α → String) (entries : List α) (id : String) : Option α :=
  entries.find? fun e => key e == id

/-- The last entry with a key. -/
def lastWith? (key : α → String) (entries : List α) (id : String) : Option α :=
  entries.findRev? fun e => key e == id

/-- The keys that are not among those known, each where it first occurs. -/
def newKeys (known keys : List String) : List String :=
  (keys.filter fun id => !known.contains id).eraseDups

/-! ## Keys and entries -/

/-- New keys are those among the keys that are not known. -/
theorem mem_newKeys {known keys : List String} {id : String} :
    id ∈ newKeys known keys ↔ id ∈ keys ∧ id ∉ known := by
  simp [newKeys, List.mem_eraseDups]

/-- A known key is not new. -/
theorem newKeys_cons_of_mem {known keys : List String} {id : String} (h : id ∈ known) :
    newKeys known (id :: keys) = newKeys known keys := by
  rw [newKeys, List.filter_cons_of_neg (by simpa using h), newKeys]

/-- A key that is not known is new, and known from there on. -/
theorem newKeys_cons_of_not_mem {known keys : List String} {id : String} (h : id ∉ known) :
    newKeys known (id :: keys) = id :: newKeys (known ++ [id]) keys := by
  rw [newKeys, List.filter_cons_of_pos (by simpa using h), List.eraseDups_cons,
    List.filter_filter, newKeys]
  congr 3
  funext other
  by_cases hother : other = id <;> simp [hother]

/-- A key at the end is new unless it is known or came before. -/
theorem newKeys_append_singleton (known keys : List String) (id : String) :
    newKeys known (keys ++ [id])
      = if id ∈ known ++ newKeys known keys then newKeys known keys
        else newKeys known keys ++ [id] := by
  rw [newKeys, List.filter_append, List.eraseDups_append, ← newKeys]
  by_cases hknown : id ∈ known
  · simp [hknown, List.removeAll]
  · by_cases hkeys : id ∈ keys
    · simp [hknown, hkeys, List.removeAll, mem_newKeys]
    · simp [hknown, hkeys, List.removeAll, mem_newKeys, List.eraseDups_cons]

/-- One entry changes no key, or adds its own at the end. -/
theorem map_key_overlayEntry (entries : List α) (entry : α) :
    (overlayEntry key entries entry).map key
      = if key entry ∈ entries.map key then entries.map key
        else entries.map key ++ [key entry] := by
  induction entries with
  | nil => rfl
  | cons e rest ih =>
      rw [overlayEntry]
      by_cases he : key e = key entry
      · rw [if_pos (beq_iff_eq.mpr he), if_pos (by simp [he]), List.map_cons, List.map_cons, he]
      · have hmem : key entry ∈ (e :: rest).map key ↔ key entry ∈ rest.map key := by
          rw [List.map_cons, List.mem_cons]
          exact ⟨fun h => h.resolve_left (Ne.symm he), Or.inr⟩
        rw [if_neg (by simpa using he), List.map_cons, ih, if_congr hmem rfl rfl, List.map_cons]
        split
        · rfl
        · rfl

/-- The entry laid down is the one found under its key, and all others are found as before. -/
theorem firstWith?_overlayEntry (entries : List α) (entry : α) (id : String) :
    firstWith? key (overlayEntry key entries entry) id
      = if key entry = id then some entry else firstWith? key entries id := by
  induction entries with
  | nil =>
      by_cases hid : key entry = id
      · simp [overlayEntry, firstWith?, hid]
      · simp [overlayEntry, firstWith?, hid]
  | cons e rest ih =>
      rw [overlayEntry]
      by_cases he : key e = key entry
      · rw [if_pos (beq_iff_eq.mpr he)]
        by_cases hid : key entry = id
        · simp [firstWith?, hid]
        · simp [firstWith?, hid, he]
      · rw [if_neg (by simpa using he)]
        by_cases hid : key e = id
        · have hother : key entry ≠ id := fun h => he (hid.trans h.symm)
          simp [firstWith?, hid, hother]
        · have hskip (more : List α) : firstWith? key (e :: more) id = firstWith? key more id := by
            simp [firstWith?, hid]
          rw [hskip, hskip, ih]

/-- The keys below keep their order, and the new ones follow. -/
theorem map_key_overlay (base top : List α) :
    (overlay key base top).map key = base.map key ++ newKeys (base.map key) (top.map key) := by
  induction top generalizing base with
  | nil => simp [overlay, newKeys]
  | cons entry rest ih =>
      have hstep := ih (overlayEntry key base entry)
      rw [map_key_overlayEntry] at hstep
      rw [overlay, List.foldl_cons, ← overlay, hstep, List.map_cons]
      by_cases hmem : key entry ∈ base.map key
      · rw [if_pos hmem, newKeys_cons_of_mem hmem]
      · rw [if_neg hmem, newKeys_cons_of_not_mem hmem, List.append_assoc, List.singleton_append]

/-- The last entry of the overlay wins; a key that it does not have is found below. -/
theorem firstWith?_overlay (base top : List α) (id : String) :
    firstWith? key (overlay key base top) id
      = (lastWith? key top id).or (firstWith? key base id) := by
  induction top generalizing base with
  | nil => rfl
  | cons entry rest ih =>
      rw [overlay, List.foldl_cons, ← overlay, ih, firstWith?_overlayEntry]
      simp only [lastWith?, List.findRev?_eq_find?_reverse, List.reverse_cons, List.find?_append,
        List.find?_singleton, beq_iff_eq]
      rw [Option.or_assoc]
      by_cases hid : key entry = id
      · simp [hid]
      · simp [hid]

/-- An overlay on different keys has different keys. -/
theorem nodup_overlay {base : List α} (h : (base.map key).Nodup) (top : List α) :
    ((overlay key base top).map key).Nodup := by
  rw [map_key_overlay, List.nodup_append']
  refine ⟨h, nodup_eraseDups _, ?_⟩
  intro id hbase hnew
  exact (mem_newKeys.mp hnew).2 hbase

/-! ## Lists without repeated keys -/

/-- Among different keys, an entry is found by its key. -/
theorem firstWith?_eq_some_iff {entries : List α} (h : (entries.map key).Nodup) {id : String}
    {e : α} : firstWith? key entries id = some e ↔ e ∈ entries ∧ key e = id := by
  constructor
  · intro hfind
    exact ⟨List.mem_of_find?_eq_some hfind, by simpa using List.find?_some hfind⟩
  · rintro ⟨hmem, rfl⟩
    have hsome : (firstWith? key entries (key e)).isSome :=
      List.find?_isSome.mpr ⟨e, hmem, beq_self_eq_true _⟩
    obtain ⟨found, hfound⟩ := Option.isSome_iff_exists.mp hsome
    have hkey : key found = key e := by simpa using List.find?_some hfound
    rw [hfound, List.inj_on_of_nodup_map h (List.mem_of_find?_eq_some hfound) hmem hkey]

/-- Without repeated keys, the first entry with a key is the last one. -/
theorem lastWith?_eq_firstWith? {entries : List α} (h : (entries.map key).Nodup) (id : String) :
    lastWith? key entries id = firstWith? key entries id := by
  have hrev : (entries.reverse.map key).Nodup := by
    rw [List.map_reverse]
    exact List.nodup_reverse.mpr h
  have hlast : lastWith? key entries id = firstWith? key entries.reverse id :=
    List.findRev?_eq_find?_reverse
  ext e
  rw [hlast, firstWith?_eq_some_iff hrev, firstWith?_eq_some_iff h, List.mem_reverse]

/-- Looking up the keys of a list in their order gives back the list. -/
theorem filterMap_firstWith? {entries : List α} (h : (entries.map key).Nodup) :
    (entries.map key).filterMap (firstWith? key entries) = entries := by
  have hfound : ∀ e ∈ entries, (firstWith? key entries ∘ key) e = some e := by
    intro e he
    exact (firstWith?_eq_some_iff h).mpr ⟨he, rfl⟩
  rw [List.filterMap_map, List.filterMap_congr hfound, List.filterMap_some]

/-- A list without repeated keys is determined by its keys and by what is found under them. -/
theorem eq_of_entries {as bs : List α} (has : (as.map key).Nodup) (hkeys : as.map key = bs.map key)
    (hentries : ∀ id, firstWith? key as id = firstWith? key bs id) : as = bs := by
  have hbs : (bs.map key).Nodup := hkeys ▸ has
  rw [← filterMap_firstWith? has, ← filterMap_firstWith? hbs, hkeys, funext hentries]

/-- Different keys are all new where none is known. -/
theorem newKeys_nil_of_nodup {keys : List String} (h : keys.Nodup) : newKeys [] keys = keys := by
  rw [newKeys, List.filter_eq_self.mpr (by simp), eraseDups_of_nodup h]

/-- Known keys are not new. -/
theorem newKeys_self (keys : List String) : newKeys keys keys = [] := by
  refine List.eq_nil_iff_forall_not_mem.mpr ?_
  intro id hid
  exact (mem_newKeys.mp hid).2 (mem_newKeys.mp hid).1

/-! ## Laws -/

/-- The step of associativity: an entry that comes last may as well be laid on the overlay first. -/
theorem overlay_overlayEntry {base top : List α} (hbase : (base.map key).Nodup)
    (htop : (top.map key).Nodup) (entry : α) :
    overlay key base (overlayEntry key top entry)
      = overlayEntry key (overlay key base top) entry := by
  have hentry : overlayEntry key top entry = overlay key top [entry] := rfl
  have htop' : ((overlayEntry key top entry).map key).Nodup := by
    rw [hentry]
    exact nodup_overlay htop _
  refine eq_of_entries (nodup_overlay hbase _) ?_ ?_
  · rw [map_key_overlay, map_key_overlayEntry, map_key_overlayEntry, map_key_overlay]
    by_cases hmem : key entry ∈ top.map key
    · -- a key of the overlay is one of the result, from below or as a new one
      have hthere : key entry ∈ base.map key ++ newKeys (base.map key) (top.map key) := by
        by_cases hbelow : key entry ∈ base.map key
        · exact List.mem_append_left _ hbelow
        · exact List.mem_append_right _ (mem_newKeys.mpr ⟨hmem, hbelow⟩)
      rw [if_pos hmem, if_pos hthere]
    · rw [if_neg hmem, newKeys_append_singleton]
      split
      · rfl
      · rw [List.append_assoc]
  · intro id
    rw [firstWith?_overlay, lastWith?_eq_firstWith? htop', firstWith?_overlayEntry,
      firstWith?_overlayEntry, firstWith?_overlay, lastWith?_eq_firstWith? htop]
    split
    · rfl
    · rfl

/-- The induction is on the entries laid down last, over every list they are laid on. -/
theorem overlay_assoc {base middle : List α} (hbase : (base.map key).Nodup)
    (hmiddle : (middle.map key).Nodup) (top : List α) :
    overlay key (overlay key base middle) top = overlay key base (overlay key middle top) := by
  induction top generalizing middle with
  | nil => rfl
  | cons entry rest ih =>
      have hnext : ((overlayEntry key middle entry).map key).Nodup := nodup_overlay hmiddle [entry]
      calc overlay key (overlay key base middle) (entry :: rest)
          = overlay key (overlayEntry key (overlay key base middle) entry) rest := rfl
        _ = overlay key (overlay key base (overlayEntry key middle entry)) rest := by
            rw [overlay_overlayEntry hbase hmiddle]
        _ = overlay key base (overlay key (overlayEntry key middle entry) rest) := ih hnext
        _ = overlay key base (overlay key middle (entry :: rest)) := rfl

/-- An overlay on nothing is the top. -/
theorem overlay_nil_left {top : List α} (h : (top.map key).Nodup) : overlay key [] top = top := by
  have hnil : (([] : List α).map key).Nodup := List.nodup_nil
  refine eq_of_entries (nodup_overlay hnil _) ?_ ?_
  · rw [map_key_overlay, List.map_nil, List.nil_append, newKeys_nil_of_nodup h]
  · intro id
    rw [firstWith?_overlay, lastWith?_eq_firstWith? h]
    exact Option.or_none

/-- An overlay of a list on itself changes nothing. -/
theorem overlay_self {entries : List α} (h : (entries.map key).Nodup) :
    overlay key entries entries = entries := by
  refine eq_of_entries (nodup_overlay h _) ?_ ?_
  · rw [map_key_overlay, newKeys_self, List.append_nil]
  · intro id
    rw [firstWith?_overlay, lastWith?_eq_firstWith? h, Option.or_self]

/-! ## Catalogues -/

/-- What an overlay makes of two lists: the keys below in their order before the new ones, and for
each key the last entry of the overlay, or else the one below. -/
structure IsOverlay (key : α → String) (base top result : List α) : Prop where
  keys : result.map key = base.map key ++ newKeys (base.map key) (top.map key)
  entry : ∀ id, firstWith? key result id = (lastWith? key top id).or (firstWith? key base id)

/-- The overlay has the keys and entries that an overlay is to have. -/
theorem isOverlay_overlay (base top : List α) :
    IsOverlay key base top (overlay key base top) :=
  ⟨map_key_overlay base top, firstWith?_overlay base top⟩

namespace Catalogue

/-- No two dialects have the same identifier, and no two rules. -/
structure HasDistinctIds (c : Catalogue) : Prop where
  dialects : (c.dialects.map Dialect.id).Nodup
  rules : (c.rules.map SecurityRule.id).Nodup

theorem merge_assoc {a b : Catalogue} (ha : a.HasDistinctIds) (hb : b.HasDistinctIds)
    (c : Catalogue) : (a.merge b).merge c = a.merge (b.merge c) := by
  simp only [merge, overlay_assoc ha.dialects hb.dialects, overlay_assoc ha.rules hb.rules]

theorem empty_merge {a : Catalogue} (ha : a.HasDistinctIds) : empty.merge a = a := by
  show Catalogue.mk (overlay Dialect.id [] a.dialects) (overlay SecurityRule.id [] a.rules) = a
  rw [overlay_nil_left ha.dialects, overlay_nil_left ha.rules]

theorem merge_self {a : Catalogue} (ha : a.HasDistinctIds) : a.merge a = a := by
  rw [merge, overlay_self ha.dialects, overlay_self ha.rules]

/-- **Catalogues form an algebra under merging.** Laying any catalogue over one with distinct
identifiers keeps them distinct and in order, and the last entry laid down wins. Among catalogues
with distinct identifiers merging is associative and idempotent, and the empty catalogue is its
identity on both sides. -/
theorem merge_algebra (a : Catalogue) (ha : a.HasDistinctIds) :
    (∀ b : Catalogue, (a.merge b).HasDistinctIds ∧
        IsOverlay Dialect.id a.dialects b.dialects (a.merge b).dialects ∧
        IsOverlay SecurityRule.id a.rules b.rules (a.merge b).rules) ∧
      (∀ b c : Catalogue, b.HasDistinctIds → (a.merge b).merge c = a.merge (b.merge c)) ∧
      empty.merge a = a ∧ a.merge empty = a ∧ a.merge a = a := by
  refine ⟨?_, ?_, empty_merge ha, rfl, merge_self ha⟩
  · intro b
    have hdistinct : (a.merge b).HasDistinctIds :=
      ⟨nodup_overlay ha.dialects b.dialects, nodup_overlay ha.rules b.rules⟩
    exact ⟨hdistinct, isOverlay_overlay _ _, isOverlay_overlay _ _⟩
  · intro b c hb
    exact merge_assoc ha hb c

/-- An overlay that replaces an entry of the base, and then one of its own. -/
theorem merge_algebra_repeated_id :
    ∃ a b c : Catalogue, a.HasDistinctIds ∧ c.HasDistinctIds
      ∧ (a.merge b).dialects.map (fun d => (d.id, d.name))
        = [("penn", "PennMUSH 2"), ("mux", "TinyMUX"), ("rhost", "RhostMUSH 2")]
      ∧ IsOverlay Dialect.id a.dialects b.dialects (a.merge b).dialects
      ∧ (a.merge c).merge b = a.merge (c.merge b) := by
  let dialect (id name : String) : Dialect := { id, name }
  let a : Catalogue := { dialects := [dialect "penn" "PennMUSH", dialect "mux" "TinyMUX"] }
  let b : Catalogue :=
    { dialects := [dialect "rhost" "RhostMUSH", dialect "penn" "PennMUSH 2",
        dialect "rhost" "RhostMUSH 2"] }
  let c : Catalogue := { dialects := [dialect "rhost" "RhostMUSH", dialect "mux" "TinyMUX 2"] }
  have ha : a.HasDistinctIds := ⟨by decide, by decide⟩
  have hc : c.HasDistinctIds := ⟨by decide, by decide⟩
  refine ⟨a, b, c, ha, hc, by decide, ((merge_algebra a ha).1 b).2.1, ?_⟩
  exact (merge_algebra a ha).2.1 c b hc

end Catalogue

end Softcode
