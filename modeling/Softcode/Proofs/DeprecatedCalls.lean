import Softcode.Proofs.FirstOccurrence
import Softcode.Proofs.Validity

/-!
# Deprecated calls

Two passes look for functions that a dialect has given up. The check of a line reports every call of
one, and the notes on a script name each function once. They read the calls for themselves, and what
they leave out differs: the notes drop a name that came before even if it is not deprecated, and
only then look it up.

Both orders come to the same, because looking up a name has no regard to case, nor has dropping it:
dropping the names that came before commutes with keeping those that are deprecated
(`filter_eraseDupsBy`). So the notes can be read off the findings, whose messages quote the names
(`map_quoted_deprecations`).
-/

namespace Softcode

theorem Text.sameName_iff {a b : String} :
    sameName a b = true ↔ lower a.toList = lower b.toList := beq_iff_eq

/-- A dialect finds the same function under each spelling of a name. -/
theorem Dialect.function?_of_sameName (d : Dialect) {a b : String}
    (h : Text.sameName a b = true) : d.function? a = d.function? b := by
  simp only [function?, Text.sameName, Text.sameName_iff.mp h]

/-- The dialect has given up the function of this name. -/
def Dialect.gaveUp (d : Dialect) (name : String) : Bool :=
  (d.function? name).any DialectFunction.deprecated

/-! ## Names of calls -/

/-- The name of a call is a word, so there is no quotation mark in it. -/
theorem isWordChar_of_mem_callAt? {past rest : List Glyph} {call : Call}
    (h : callAt? past rest = some call) : ∀ c ∈ call.name.toList, Text.isWordChar c = true := by
  have hword : ∀ c ∈ Line.chars (past.takeWhile Glyph.isCodeWord).reverse,
      Text.isWordChar c = true := by
    intro c hc
    obtain ⟨g, hg, rfl⟩ := List.mem_map.mp hc
    have hcode : g.isCodeWord = true := List.mem_takeWhile_imp (List.mem_reverse.mp hg)
    rw [Glyph.isCodeWord, Bool.and_eq_true] at hcode
    exact hcode.2
  simp only [callAt?] at h
  split at h
  · exact absurd h (by simp)
  · split at h
    · exact absurd h (by simp)
    · split at h
      · exact absurd h (by simp)
      · rw [← Option.some.inj h, String.toList_ofList]
        exact hword

/-- The name of a call is made of word characters. -/
theorem isWordChar_of_mem_callsFrom {past gs : List Glyph} {call : Call}
    (h : call ∈ Line.callsFrom past gs) : ∀ c ∈ call.name.toList, Text.isWordChar c = true := by
  induction gs generalizing past with
  | nil => exact absurd h List.not_mem_nil
  | cons g rest ih =>
      simp only [Line.callsFrom] at h
      split at h
      · rcases List.mem_append.mp h with hcall | hrest
        · exact isWordChar_of_mem_callAt? (Option.mem_toList.mp hcall)
        · exact ih hrest
      · exact ih h

/-- The text that a finding quotes first: what stands between the first two quotation marks of its
message. -/
def SyntaxFinding.quoted (f : SyntaxFinding) : String :=
  String.ofList
    (((f.message.toList.dropWhile (· != '\'')).drop 1).takeWhile (· != '\''))

/-- The finding of a deprecated call quotes the name as it is called. -/
theorem quoted_deprecatedFunction (line column : Nat) {name : String} (dialect : String)
    (replacement : Option String) (h : ∀ c ∈ name.toList, Text.isWordChar c = true) :
    (Flaw.finding line ⟨column, .deprecatedFunction name dialect replacement⟩).quoted = name := by
  have hmessage : (Defect.deprecatedFunction name dialect replacement).message.toList
      = "Function '".toList ++ (name.toList
        ++ '\'' :: (" is deprecated in ".toList ++ dialect.toList)) := by
    show ("Function '" ++ name ++ "' is deprecated in " ++ dialect).toList = _
    simp only [String.toList_append, List.append_assoc]
    rfl
  have hopen : ∀ text : List Char,
      (("Function '".toList ++ text).dropWhile (· != '\'')).drop 1 = text := fun text => rfl
  have hname : ∀ c ∈ name.toList, (c != '\'') = true := by
    intro c hc
    by_contra hquote
    obtain rfl : c = '\'' := by simpa using hquote
    exact absurd (h _ hc) (by decide)
  have hclose : ((name.toList ++ '\'' :: (" is deprecated in ".toList ++ dialect.toList)).takeWhile
      (· != '\'')) = name.toList := by
    rw [List.takeWhile_append_of_pos hname, List.takeWhile_cons_of_neg (by decide),
      List.append_nil]
  rw [SyntaxFinding.quoted, Flaw.finding]
  simp only
  rw [hmessage, hopen, hclose, String.ofList_toList]

/-! ## Findings of deprecated calls -/

/-- The code of calls that a dialect has given up. -/
def Code.isDeprecation (code : Code) : Bool := code == .deprecatedFunction

namespace LineCheck

/-- The flaw of a call that the dialect has given up. -/
def deprecatedCall? (d : Dialect) (call : Call) : Option Flaw :=
  ((d.function? call.name).filter DialectFunction.deprecated).map fun function =>
    ⟨call.column, .deprecatedFunction call.name d.name function.replacement⟩

/-- Of the checks of one call, deprecation gives at most one flaw. -/
theorem filter_catalogued (d : Dialect) (strict : Bool) (call : Call) :
    (catalogued d strict call).filter (fun flaw => flaw.defect.code.isDeprecation)
      = (deprecatedCall? d call).toList := by
  rw [catalogued, deprecatedCall?]
  cases d.function? call.name with
  | none =>
      simp only
      split <;> rfl
  | some function =>
      cases hdeprecated : function.deprecated with
      | true => simp [Option.filter, hdeprecated, Defect.code, Code.isDeprecation]
      | false => simp [Option.filter, hdeprecated]

/-- The deprecated calls of a line are its calls of deprecated functions, in their order. -/
theorem filter_calls (d : Dialect) (strict : Bool) (gs : List Glyph) :
    (calls (some d) strict gs).filter (fun flaw => flaw.defect.code.isDeprecation)
      = (Line.calls gs).filterMap (deprecatedCall? d) := by
  rw [calls, List.filter_flatMap, List.filterMap_eq_flatMap_toList]
  refine List.flatMap_congr fun call _ => ?_
  rw [List.filter_append, Option.toList_some, List.flatMap_singleton, filter_catalogued]
  split <;> rfl

/-- No other check of a line reports a deprecated call. -/
theorem filter_flaws (c : Context) {d : Dialect} (hd : c.dialect = some d) (line : List Char) :
    (flaws c line).filter (fun flaw => flaw.defect.code.isDeprecation)
      = (Line.calls (Line.glyphs line)).filterMap (deprecatedCall? d) := by
  simp only [flaws, List.filter_append, hd, filter_calls]
  -- no other check has the code
  rw [filter_code_eq_nil (fun _ => code_of_mem_characters) (by decide),
    filter_code_eq_nil (fun _ => code_of_mem_brackets) (by decide),
    filter_code_eq_nil (fun _ => code_of_mem_string) (by decide),
    filter_code_eq_nil (fun _ => code_of_mem_attributeName) (by decide),
    filter_code_eq_nil (fun _ => code_of_mem_references) (by decide),
    filter_code_eq_nil (fun _ => code_of_mem_command) (by decide),
    filter_code_eq_nil (fun _ => code_of_mem_strict_length) (by decide)]
  simp only [List.nil_append, List.append_nil]

end LineCheck

namespace Syntax

open LineCheck

/-- The findings of deprecated calls. -/
def deprecations (c : Context) : List SyntaxFinding :=
  (findings c).filter fun f => f.code == .deprecatedFunction

/-- The findings on deprecated calls come line by line and call by call. -/
theorem deprecations_eq (c : Context) {d : Dialect} (hd : c.dialect = some d) :
    deprecations c = c.codeLines.flatMap fun line =>
        ((Line.calls (Line.glyphs line.2)).filterMap (deprecatedCall? d)).map
          (Flaw.finding line.1) := by
  have hscript : (scriptFindings c).filter (fun f => f.code == .deprecatedFunction) = [] := by
    refine List.filter_eq_nil_iff.mpr fun f hf => ?_
    rcases List.mem_append.mp hf with h | h
    · rw [code_of_mem_unbalanced h]
      decide
    · rw [code_of_mem_nesting h]
      decide
  rw [deprecations, findings, List.filter_append, hscript, List.append_nil, List.filter_flatMap]
  refine List.flatMap_congr fun line _ => ?_
  rw [lineFindings, List.filter_map, ← filter_flaws c hd]
  rfl

/-- A line's findings of deprecated calls quote the names of these calls. -/
theorem map_quoted_deprecatedCall? (d : Dialect) (number : Nat) {calls : List Call}
    (h : ∀ call ∈ calls, ∀ c ∈ call.name.toList, Text.isWordChar c = true) :
    ((calls.filterMap (deprecatedCall? d)).map (Flaw.finding number)).map SyntaxFinding.quoted
      = (calls.map Call.name).filter d.gaveUp := by
  induction calls with
  | nil => rfl
  | cons call calls ih =>
      have hrest := ih fun other hother => h other (List.mem_cons_of_mem call hother)
      have hname := h call List.mem_cons_self
      rw [List.filterMap_cons, List.map_cons, List.filter_cons, deprecatedCall?, Dialect.gaveUp]
      cases d.function? call.name with
      | none => exact hrest
      | some function =>
          cases hdeprecated : function.deprecated with
          | false =>
              simp only [Option.filter, hdeprecated, Option.any_some]
              exact hrest
          | true =>
              simp only [Option.filter, hdeprecated, Option.any_some, Option.map_some, if_true,
                List.map_cons, hrest, quoted_deprecatedFunction _ _ _ _ hname]

/-- The findings of deprecated calls quote, call by call, the names that the dialect has given up.
-/
theorem map_quoted_deprecations (c : Context) {d : Dialect} (hd : c.dialect = some d) :
    (deprecations c).map SyntaxFinding.quoted
      = ((Deprecation.scriptCalls c).map Call.name).filter d.gaveUp := by
  rw [deprecations_eq c hd, Deprecation.scriptCalls, List.map_flatMap,
    List.map_flatMap, List.filter_flatMap]
  refine List.flatMap_congr fun line _ => ?_
  exact map_quoted_deprecatedCall? d line.1 fun call hcall => isWordChar_of_mem_callsFrom hcall

/-- A finding of a deprecated call quotes a name that leads to a deprecated entry. -/
theorem entry_of_mem_deprecations {c : Context} {d : Dialect} (hd : c.dialect = some d)
    {f : SyntaxFinding} (hf : f ∈ deprecations c) :
    ∃ entry, d.function? f.quoted = some entry ∧ entry.deprecated = true
      ∧ f.message = "Function '" ++ f.quoted ++ "' is deprecated in " ++ d.name := by
  rw [deprecations_eq c hd] at hf
  obtain ⟨line, -, hline⟩ := List.mem_flatMap.mp hf
  obtain ⟨flaw, hflaw, rfl⟩ := List.mem_map.mp hline
  obtain ⟨call, hcall, hdeprecated⟩ := List.mem_filterMap.mp hflaw
  obtain ⟨entry, hentry, rfl⟩ := Option.map_eq_some_iff.mp hdeprecated
  obtain ⟨hfunction, hgiven⟩ := Option.filter_eq_some_iff.mp hentry
  have hquoted := quoted_deprecatedFunction line.1 call.column d.name entry.replacement
    (isWordChar_of_mem_callsFrom hcall)
  exact ⟨entry, hquoted.symm ▸ hfunction, hgiven, by rw [hquoted]; rfl⟩

end Syntax

/-! ## Notes -/

namespace Deprecation

/-- The notes on an entry of a catalogue that the dialect has given up: that it is deprecated, and
then what replaces it, if that is known. -/
def entryNotes (d : Dialect) (entry : DialectFunction) : List String :=
  [entry.name ++ "() is deprecated in " ++ d.name]
    ++ match entry.replacement with
      | none => []
      | some replacement => ["Replace " ++ entry.name ++ "() with " ++ replacement ++ "()"]

/-- The notes on a deprecated function are those of its entry. -/
theorem notesOn_of_deprecated {d : Dialect} {name : String} {entry : DialectFunction}
    (hentry : d.function? name = some entry) (h : entry.deprecated = true) :
    notesOn d name = entryNotes d entry := by
  rw [notesOn, hentry, entryNotes]
  simp only [h, if_true]
  cases entry.replacement <;> rfl

/-- There are no notes on a function that the dialect has not given up. -/
theorem notesOn_eq_nil {d : Dialect} {name : String} (h : d.gaveUp name = false) :
    notesOn d name = [] := by
  rw [Dialect.gaveUp] at h
  rw [notesOn]
  cases hentry : d.function? name with
  | none => rfl
  | some entry =>
      rw [hentry, Option.any_some] at h
      simp [h]

/-- First uses are the first names of each spelling without case. -/
theorem firstUses_eq_firstBy (seen : List (List Char)) (names : List String) :
    firstUses seen names = firstBy (fun name => Text.lower name.toList) seen names := by
  induction names generalizing seen with
  | nil => rfl
  | cons name rest ih => simp only [firstUses, firstBy, ih]

/-- Passing over the names that came before is keeping the first of each. -/
theorem firstUses_nil (names : List String) :
    firstUses [] names = names.eraseDupsBy Text.sameName := by
  rw [firstUses_eq_firstBy, firstBy_nil]
  rfl

/-- A dialect has given up all spellings of a name or none. -/
theorem gaveUp_of_sameName (d : Dialect) (a b : String) (h : Text.sameName a b = true) :
    d.gaveUp a = d.gaveUp b := by
  rw [Dialect.gaveUp, Dialect.gaveUp, d.function?_of_sameName h]

/-- The notes are those on the quoted names, each name once. -/
theorem notes_eq_flatMap_quoted (c : Context) {d : Dialect} (hd : c.dialect = some d) :
    notes c
      = ((Syntax.deprecations c).eraseDupsBy fun f g => Text.sameName f.quoted g.quoted).flatMap
        fun f => notesOn d f.quoted := by
  have hnotes : notes c
      = (firstUses [] ((scriptCalls c).map Call.name)).flatMap (notesOn d) := by
    rw [notes, hd]
  -- first each name once, then those given up; the other way round; then both off the findings
  calc notes c
      = (((scriptCalls c).map Call.name).eraseDupsBy Text.sameName).flatMap (notesOn d) := by
        rw [hnotes, firstUses_nil]
    _ = ((((scriptCalls c).map Call.name).eraseDupsBy Text.sameName).filter d.gaveUp).flatMap
          (notesOn d) := by
        rw [flatMap_filter_of_nil _ fun name _ h => notesOn_eq_nil h]
    _ = ((((scriptCalls c).map Call.name).filter d.gaveUp).eraseDupsBy Text.sameName).flatMap
          (notesOn d) := by
        rw [filter_eraseDupsBy (gaveUp_of_sameName d)]
    _ = (((Syntax.deprecations c).map SyntaxFinding.quoted).eraseDupsBy Text.sameName).flatMap
          (notesOn d) := by
        rw [Syntax.map_quoted_deprecations c hd]
    _ = _ := by
        rw [← map_eraseDupsBy, List.flatMap_map]

end Deprecation

/-- **Notes and findings agree.** The notes on a script for a dialect are read off its findings of
deprecated calls: walk them in order, keep the first one for each name whatever its case, look the
name up, and say that the entry is deprecated and what replaces it. Every such finding leads to an
entry, so there are notes exactly if there is a finding. -/
theorem notes_agree_with_findings (text : List Char) (d : Dialect) (options : Options)
    (settings : Settings) :
    let c : Context := ⟨text, some d, options, settings⟩
    Deprecation.notes c
        = ((Syntax.deprecations c).eraseDupsBy fun f g => Text.sameName f.quoted g.quoted).flatMap
          (fun f => (d.function? f.quoted).toList.flatMap (Deprecation.entryNotes d))
      ∧ (∀ f ∈ Syntax.deprecations c, ∃ entry,
        d.function? f.quoted = some entry ∧ entry.deprecated = true
          ∧ f.message = "Function '" ++ f.quoted ++ "' is deprecated in " ++ d.name)
      ∧ (Deprecation.notes c ≠ [] ↔ ∃ f ∈ Syntax.findings c, f.code = .deprecatedFunction) := by
  intro c
  have hentries : ∀ f ∈ Syntax.deprecations c, ∃ entry, d.function? f.quoted = some entry
      ∧ entry.deprecated = true
      ∧ f.message = "Function '" ++ f.quoted ++ "' is deprecated in " ++ d.name :=
    fun f hf => Syntax.entry_of_mem_deprecations rfl hf
  have hnotes : Deprecation.notes c
      = ((Syntax.deprecations c).eraseDupsBy fun f g => Text.sameName f.quoted g.quoted).flatMap
        fun f => (d.function? f.quoted).toList.flatMap (Deprecation.entryNotes d) := by
    rw [Deprecation.notes_eq_flatMap_quoted c rfl]
    refine List.flatMap_congr fun f hf => ?_
    obtain ⟨entry, hentry, hgiven, -⟩ := hentries f ((eraseDupsBy_sublist _ _).subset hf)
    rw [Deprecation.notesOn_of_deprecated hentry hgiven, hentry, Option.toList_some,
      List.flatMap_singleton]
  refine ⟨hnotes, hentries, ?_⟩
  have hfindings : (∃ f ∈ Syntax.findings c, f.code = .deprecatedFunction)
      ↔ Syntax.deprecations c ≠ [] := by
    simp only [Syntax.deprecations, ne_eq, List.filter_eq_nil_iff, beq_iff_eq, not_forall,
      not_not, exists_prop]
  rw [hfindings, hnotes]
  cases hcase : Syntax.deprecations c with
  | nil => simp [List.eraseDupsBy, List.eraseDupsBy.loop]
  | cons f rest =>
      obtain ⟨entry, hentry, -⟩ := hentries f (hcase ▸ List.mem_cons_self)
      rw [List.eraseDupsBy_cons, List.flatMap_cons, hentry]
      simp [Deprecation.entryNotes]

example :
    let switch : DialectFunction :=
      { name := "switch", deprecated := true, replacement := some "case" }
    let c : Context :=
      { text := "think Switch(1)[case(2)]\n&a b=SWITCH(3)".toList
        dialect := some { id := "d", name := "D", functions := [switch] } }
    (Syntax.deprecations c).map (fun f => (f.line, f.quoted)) = [(1, "Switch"), (2, "SWITCH")]
      ∧ Deprecation.notes c = ["switch() is deprecated in D", "Replace switch() with case()"] := by
  decide

end Softcode
