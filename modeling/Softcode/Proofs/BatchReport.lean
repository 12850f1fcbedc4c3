import Softcode.Pattern.Reader
import Softcode.Proofs.AlikeScripts
import Softcode.Proofs.FileLocations
import Softcode.Proofs.PathOrder

/-!
# Reports of runs over files

A run analyses each file once and lists the outcomes by a key, the number of errors and the path, so
its report hangs on the set of files alone (`FileReport.Alike`, `report_alike`). What is left of the
order in which paths were given is the spelling of a path: of several spellings of one path one is
kept, and the text of an error quotes it. Where no path is found in two spellings, the reports are
equal (`outcomes_of_one_spelling`).

A run has no report exactly if a path leads nowhere or to a directory that is not listed down to its
files (`run_eq_error_iff`). A file that cannot be read is an outcome of its own and does not end it.

The counts of a report add up because an outcome is either an error or a result
(`isSome_error_analyzeFile`, `FileReport.length_eq_counts`).
-/

namespace Softcode

namespace FileTree

variable {t : FileTree} {p : Path}

/-- The path leads to a file, or to a directory in which all names down to the files are given. -/
def isSearchable (t : FileTree) (p : Path) : Bool :=
  t.isFile p || t.isDirectory p && t.isListed p

/-- Why the files at a path that is not searchable are not found. -/
def searchError (t : FileTree) (p : Path) : SearchError :=
  if t.isDirectory p then .unlisted p else .missing p

/-- A searchable path leads somewhere. -/
theorem isSome_locate?_of_isSearchable (h : t.isSearchable p = true) :
    (t.locate? p).isSome := by
  rw [isSearchable, isFile, isDirectory] at h
  cases hp : t.locate? p with
  | none => simp [hp] at h
  | some place => rfl

end FileTree

namespace Batch

/-! ## The files of a batch -/

/-- The files that a searchable path stands for. -/
def filesAt (extensions : List String) (files : FileTree) (p : Path) : List Path :=
  if files.isFile p then [p] else (files.walk p).filter (hasExtension extensions)

/-- The files that the paths of a batch lead to, in the order in which they are found. -/
def found (b : Batch) (files : FileTree) : List Path :=
  b.paths.flatMap (filesAt b.extensions files)

section Search

variable {extensions : List String} {files : FileTree} {p : Path} {paths : List Path}

/-- A path is expanded into its files if it is searchable, and into an error otherwise. -/
theorem expand_eq (extensions : List String) (files : FileTree) (p : Path) :
    expand extensions files p
      = if files.isSearchable p then .ok (filesAt extensions files p)
        else .error (files.searchError p) := by
  rw [expand, FileTree.isSearchable, filesAt, FileTree.searchError]
  by_cases hfile : files.isFile p = true
  · simp [hfile]
  · by_cases hdirectory : files.isDirectory p = true
    · by_cases hlisted : files.isListed p = true <;> simp [hfile, hdirectory, hlisted]
    · simp [hfile, hdirectory]

/-- Searchable paths are all expanded. -/
theorem mapM_expand (h : ∀ p ∈ paths, files.isSearchable p = true) :
    paths.mapM (expand extensions files) = .ok (paths.map (filesAt extensions files)) := by
  induction paths with
  | nil => rfl
  | cons p rest ih =>
      have hrest := ih fun q hq => h q (List.mem_cons_of_mem p hq)
      rw [List.mapM_cons, expand_eq, if_pos (h p List.mem_cons_self), hrest]
      rfl

/-- The first path that is not searchable ends the search. -/
theorem mapM_expand_append {front back : List Path}
    (hfront : ∀ q ∈ front, files.isSearchable q = true) (hp : files.isSearchable p = false) :
    (front ++ p :: back).mapM (expand extensions files) = .error (files.searchError p) := by
  have hhead : expand extensions files p = .error (files.searchError p) := by
    rw [expand_eq, hp]
    rfl
  rw [List.mapM_append, mapM_expand hfront, List.mapM_cons, hhead]
  rfl

/-- Either all paths are searchable, or there is a first one that is not. -/
theorem forall_isSearchable_or (files : FileTree) (paths : List Path) :
    (∀ p ∈ paths, files.isSearchable p = true)
      ∨ ∃ front p back, paths = front ++ p :: back
        ∧ (∀ q ∈ front, files.isSearchable q = true) ∧ files.isSearchable p = false := by
  induction paths with
  | nil => exact Or.inl fun p hp => absurd hp List.not_mem_nil
  | cons p rest ih =>
      by_cases hp : files.isSearchable p = true
      · rcases ih with hall | ⟨front, q, back, rfl, hfront, hq⟩
        · exact Or.inl (List.forall_mem_cons.mpr ⟨hp, hall⟩)
        · exact Or.inr ⟨p :: front, q, back, rfl, List.forall_mem_cons.mpr ⟨hp, hfront⟩, hq⟩
      · exact Or.inr ⟨[], p, rest, rfl, fun q hq => absurd hq List.not_mem_nil,
          Bool.eq_false_of_not_eq_true hp⟩

end Search

/-- A search gives the files of all paths in order, if the paths are searchable. -/
theorem discover_of_isSearchable {b : Batch} {files : FileTree}
    (h : ∀ p ∈ b.paths, files.isSearchable p = true) :
    b.discover files = .ok (arrange (b.found files)) := by
  rw [discover, mapM_expand h]
  rfl

/-- The outcomes of a run, in the order of the paths. -/
def outcomes (b : Batch) (read : Pattern.Reader) (catalogue : Catalogue) (settings : Settings)
    (files : FileTree) : List FileReport :=
  (arrange (b.found files)).map (b.analyzeFile read catalogue settings files)

section Run

variable {b : Batch} {read : Pattern.Reader} {catalogue : Catalogue} {settings : Settings}
  {files : FileTree}

/-- A run over searchable paths reports on all files that these lead to. -/
theorem run_of_isSearchable (h : ∀ p ∈ b.paths, files.isSearchable p = true) :
    b.run read catalogue settings files
      = .ok (Report.ofResults ((b.outcomes read catalogue settings files).mergeSort precedes)) := by
  rw [run, discover_of_isSearchable h]
  rfl

/-- The first path that is not searchable ends a run. -/
theorem run_of_not_isSearchable {front back : List Path} {p : Path}
    (hpaths : b.paths = front ++ p :: back) (hfront : ∀ q ∈ front, files.isSearchable q = true)
    (hp : files.isSearchable p = false) :
    b.run read catalogue settings files = .error (files.searchError p) := by
  rw [run, discover, hpaths, mapM_expand_append hfront hp]
  rfl

/-- A run gives a report exactly if all of its paths are searchable. -/
theorem run_eq_ok_iff {report : Report} :
    b.run read catalogue settings files = .ok report
      ↔ (∀ p ∈ b.paths, files.isSearchable p = true)
        ∧ report
          = Report.ofResults ((b.outcomes read catalogue settings files).mergeSort precedes) := by
  rcases forall_isSearchable_or files b.paths with hall | ⟨front, p, back, hpaths, hfront, hp⟩
  · rw [run_of_isSearchable hall, Except.ok.injEq, eq_comm]
    exact ⟨fun h => ⟨hall, h⟩, And.right⟩
  · rw [run_of_not_isSearchable hpaths hfront hp]
    refine ⟨fun h => absurd h (by simp), ?_⟩
    rintro ⟨hall, -⟩
    have hmem : p ∈ b.paths := by
      rw [hpaths]
      exact List.mem_append_right front List.mem_cons_self
    exact absurd (hall p hmem) (by simp [hp])

/-- A run fails exactly if some path is not searchable, and the first such path is the error. -/
theorem run_eq_error_iff {e : SearchError} :
    b.run read catalogue settings files = .error e
      ↔ ∃ front p back, b.paths = front ++ p :: back
        ∧ (∀ q ∈ front, files.isSearchable q = true) ∧ files.isSearchable p = false
        ∧ e = files.searchError p := by
  constructor
  · intro h
    rcases forall_isSearchable_or files b.paths with hall | ⟨front, p, back, hpaths, hfront, hp⟩
    · rw [run_of_isSearchable hall] at h
      exact absurd h (by simp)
    · rw [run_of_not_isSearchable hpaths hfront hp, Except.error.injEq] at h
      exact ⟨front, p, back, hpaths, hfront, hp, h.symm⟩
  · rintro ⟨front, p, back, hpaths, hfront, hp, rfl⟩
    exact run_of_not_isSearchable hpaths hfront hp

example :
    let files : FileTree :=
      { entries := [(["d", "a.mush"], .file [])]
        refused := [(["d"], "Permission denied (os error 13)")] }
    files.isSearchable ⟨"d/a.mush"⟩ = true ∧ files.isSearchable ⟨"d"⟩ = false
      ∧ (files.searchError ⟨"d"⟩).message = "walking directory d"
      ∧ (files.searchError ⟨"e"⟩).message = "Path does not exist: e" := by
  decide +kernel

end Run

/-! ## Outcomes of one file -/

/-- An outcome is an error or a result, and not both. -/
theorem isSome_error_analyzeFile (b : Batch) (read : Pattern.Reader) (catalogue : Catalogue)
    (settings : Settings) (files : FileTree) (p : Path) :
    (b.analyzeFile read catalogue settings files p).error.isSome
      = !(b.analyzeFile read catalogue settings files p).result.isSome := by
  rw [analyzeFile]
  split
  · rfl
  · simp only
    split <;> rfl

/-- An outcome has the path that was analysed. -/
theorem path_analyzeFile (b : Batch) (read : Pattern.Reader) (catalogue : Catalogue)
    (settings : Settings) (files : FileTree) (p : Path) :
    (b.analyzeFile read catalogue settings files p).path = p := by
  rw [analyzeFile]
  split
  · rfl
  · simp only
    split <;> rfl

end Batch

/-- Two outcomes that differ at most in how the path of the file is spelled: in the path itself and
where the text of an error quotes it. -/
structure FileReport.Alike (f g : FileReport) : Prop where
  path : f.path.same g.path = true
  result : f.result = g.result
  error : f.error = none ∧ g.error = none ∨
    ∃ before after : String, f.error = some (before ++ f.path.spelling ++ after)
      ∧ g.error = some (before ++ g.path.spelling ++ after)

namespace Batch

/-- Two batches that ask for the same analyses: their paths differ in order, repetition and spelling
at most. -/
structure SamePaths (b c : Batch) : Prop where
  dialectId : b.dialectId = c.dialectId
  options : b.options = c.options
  extensions : b.extensions = c.extensions
  left : ∀ p ∈ b.paths, ∃ q ∈ c.paths, p.same q = true
  right : ∀ q ∈ c.paths, ∃ p ∈ b.paths, p.same q = true

/-- Having the same paths is symmetric. -/
theorem SamePaths.symm {b c : Batch} (h : b.SamePaths c) : c.SamePaths b where
  dialectId := h.dialectId.symm
  options := h.options.symm
  extensions := h.extensions.symm
  left q hq := by
    obtain ⟨p, hp, hsame⟩ := h.right q hq
    exact ⟨p, hp, Path.same_iff.mpr (Path.same_iff.mp hsame).symm⟩
  right p hp := by
    obtain ⟨q, hq, hsame⟩ := h.left p hp
    exact ⟨q, hq, Path.same_iff.mpr (Path.same_iff.mp hsame).symm⟩

variable {b c : Batch} {read : Pattern.Reader} {catalogue : Catalogue} {settings : Settings}
  {files : FileTree}

/-- A file that is reached by two spellings has the same outcome, but for the spelling. -/
theorem analyzeFile_alike (h : b.SamePaths c) {p q : Path} (hparts : p.parts = q.parts)
    (hplace : files.locate? p = files.locate? q) :
    (b.analyzeFile read catalogue settings files p).Alike
      (c.analyzeFile read catalogue settings files q) := by
  have hsame : p.same q = true := Path.same_iff.mpr hparts
  have hread : files.read? p = files.read? q := by rw [FileTree.read?, FileTree.read?, hplace]
  cases hbytes : files.read? q with
  | none =>
      let reason := ": " ++ files.refusal q
      have hrefusal : files.refusal p = files.refusal q := by
        rw [FileTree.refusal, FileTree.refusal, hplace]
      have hp : script files p = .error ("reading " ++ p.spelling ++ reason) := by
        simp [script, hread, hbytes, hrefusal, toString, String.append_assoc, reason]
      have hq : script files q = .error ("reading " ++ q.spelling ++ reason) := by
        simp [script, hbytes, toString, String.append_assoc, reason]
      rw [analyzeFile, analyzeFile, hp, hq]
      exact ⟨hsame, rfl, Or.inr ⟨"reading ", reason, rfl, rfl⟩⟩
  | some bytes =>
      cases htext : Text.decode? bytes with
      | none =>
          let reason := " is neither UTF-8 nor Windows-1252 text"
          have hp : script files p = .error (p.spelling ++ reason) := by
            simp [script, hread, hbytes, htext, toString, reason]
          have hq : script files q = .error (q.spelling ++ reason) := by
            simp [script, hbytes, htext, toString, reason]
          rw [analyzeFile, analyzeFile, hp, hq]
          exact ⟨hsame, rfl, Or.inr ⟨"", reason, by simp, by simp⟩⟩
      | some text =>
          have hp : script files p = .ok (String.ofList text) := by
            simp [script, hread, hbytes, htext]
          have hq : script files q = .ok (String.ofList text) := by
            simp [script, hbytes, htext]
          rw [analyzeFile, analyzeFile, hp, hq, h.dialectId, h.options]
          simp only
          split
          · next failure _ =>
            refine ⟨hsame, rfl, Or.inr ⟨"rejected ", ": " ++ failure.message, ?_, ?_⟩⟩
            · simp [toString, String.append_assoc]
            · simp [toString, String.append_assoc]
          · exact ⟨hsame, rfl, Or.inl ⟨rfl, rfl⟩⟩

example :
    let files : FileTree :=
      { entries := [(["a.mush"], .file [])]
        refused := [(["a.mush"], "Permission denied (os error 13)")] }
    (analyzeFile { paths := [] } Pattern.ofText? .empty {} files ⟨"./a.mush"⟩).error
      = some "reading ./a.mush: Permission denied (os error 13)" := by
  decide +kernel

/-! ## Files under another spelling -/

/-- Two spellings of one path that lead somewhere lead to the same place. -/
theorem locate?_of_parts {p q : Path} (hparts : p.parts = q.parts) (hp : (files.locate? p).isSome)
    (hq : (files.locate? q).isSome) : files.locate? p = files.locate? q := by
  obtain ⟨place, hplace⟩ := Option.isSome_iff_exists.mp hp
  obtain ⟨other, hother⟩ := Option.isSome_iff_exists.mp hq
  rw [hplace, hother, FileTree.locate?_unique hparts hplace hother]

/-- Two spellings of one path both lead to a file, or neither does. -/
theorem isFile_of_parts {p q : Path} (hparts : p.parts = q.parts)
    (hp : files.isSearchable p = true) (hq : files.isSearchable q = true) :
    files.isFile p = files.isFile q := by
  rw [FileTree.isFile, FileTree.isFile,
    locate?_of_parts hparts (FileTree.isSome_locate?_of_isSearchable hp)
      (FileTree.isSome_locate?_of_isSearchable hq)]

/-- The extension of a path does not depend on its spelling. -/
theorem hasExtension_of_parts (extensions : List String) {p q : Path} (h : p.parts = q.parts) :
    hasExtension extensions p = hasExtension extensions q := by
  simp only [hasExtension, Path.extension?, Path.fileName?, h]

/-- What is found at one spelling of a path is found at another, spelled differently. -/
theorem exists_mem_filesAt (hfiles : files.HasProperNames) (extensions : List String) {p q : Path}
    (hparts : p.parts = q.parts) (hp : files.isSearchable p = true)
    (hq : files.isSearchable q = true) {f : Path} (hf : f ∈ filesAt extensions files p) :
    ∃ g ∈ filesAt extensions files q, f.parts = g.parts := by
  rw [filesAt] at hf
  rw [filesAt, ← isFile_of_parts hparts hp hq]
  split at hf
  · next hfile =>
    obtain rfl := List.mem_singleton.mp hf
    exact ⟨q, by simp [hfile], hparts⟩
  · next hfile =>
    obtain ⟨hwalk, hextension⟩ := List.mem_filter.mp hf
    obtain ⟨g, hg, hfg⟩ :=
      FileTree.exists_mem_walk hfiles hparts (FileTree.isSome_locate?_of_isSearchable hq) hwalk
    refine ⟨g, ?_, hfg⟩
    rw [if_neg hfile]
    exact List.mem_filter.mpr ⟨hg, hasExtension_of_parts extensions hfg ▸ hextension⟩

/-- What one batch finds, a batch with the same paths finds, spelled differently. -/
theorem exists_mem_found (hfiles : files.HasProperNames) (h : b.SamePaths c)
    (hb : ∀ p ∈ b.paths, files.isSearchable p = true)
    (hc : ∀ p ∈ c.paths, files.isSearchable p = true) {f : Path}
    (hf : f ∈ b.found files) : ∃ g ∈ c.found files, f.parts = g.parts := by
  obtain ⟨p, hp, hfp⟩ := List.mem_flatMap.mp hf
  obtain ⟨q, hq, hsame⟩ := h.left p hp
  obtain ⟨g, hg, hparts⟩ :=
    exists_mem_filesAt hfiles b.extensions (Path.same_iff.mp hsame) (hb p hp) (hc q hq) hfp
  rw [h.extensions] at hg
  exact ⟨g, List.mem_flatMap.mpr ⟨q, hq, hg⟩, hparts⟩

/-- A file that is found leads somewhere. -/
theorem isSome_locate?_of_mem_found (hfiles : files.HasProperNames) {f : Path}
    (hf : f ∈ b.found files) : (files.locate? f).isSome := by
  obtain ⟨p, -, hfp⟩ := List.mem_flatMap.mp hf
  rw [filesAt] at hfp
  split at hfp
  · next hfile =>
    obtain rfl := List.mem_singleton.mp hfp
    exact FileTree.isSome_locate?_of_isSearchable (by simp [FileTree.isSearchable, hfile])
  · obtain ⟨place, hplace⟩ := FileTree.locate?_of_mem_walk hfiles (List.mem_filter.mp hfp).1
    rw [hplace]
    rfl

/-- Two spellings under which a file is found lead to the same place. -/
theorem locate?_of_mem_found (hfiles : files.HasProperNames) {f g : Path} (hf : f ∈ b.found files)
    (hg : g ∈ c.found files) (hparts : f.parts = g.parts) : files.locate? f = files.locate? g :=
  locate?_of_parts hparts (isSome_locate?_of_mem_found hfiles hf)
    (isSome_locate?_of_mem_found hfiles hg)

end Batch

/-! ## Sorted outcomes -/

section Pairs

variable {α β γ : Type}

/-- Lists with the same keys in the same order are related if elements with the same key are. -/
theorem forall₂_map_of_keys {key : α → γ} {R : β → β → Prop} {f g : α → β} {as bs : List α}
    (hkeys : as.map key = bs.map key)
    (h : ∀ a ∈ as, ∀ b ∈ bs, key a = key b → R (f a) (g b)) :
    List.Forall₂ R (as.map f) (bs.map g) := by
  induction as generalizing bs with
  | nil =>
      rw [List.map_nil, eq_comm, List.map_eq_nil_iff] at hkeys
      rw [hkeys]
      exact List.Forall₂.nil
  | cons a as ih =>
      cases bs with
      | nil => exact absurd hkeys (by simp)
      | cons b bs =>
          rw [List.map_cons, List.map_cons, List.cons.injEq] at hkeys
          have hhead := h a List.mem_cons_self b List.mem_cons_self hkeys.1
          refine List.Forall₂.cons hhead (ih hkeys.2 ?_)
          intro x hx y hy
          exact h x (List.mem_cons_of_mem a hx) y (List.mem_cons_of_mem b hy)

/-- Sorting keeps lists alike whose elements are alike, if the order does not tell these apart: the
pairs of elements are sorted as either side is. -/
theorem forall₂_mergeSort {R : α → β → Prop} {r : α → α → Bool} {s : β → β → Bool} {as : List α}
    {bs : List β} (h : List.Forall₂ R as bs)
    (horder : ∀ a a' b b', R a b → R a' b' → r a a' = s b b') :
    List.Forall₂ R (as.mergeSort r) (bs.mergeSort s) := by
  -- the sorted pairs have the one sorted list on their left and the other on their right
  obtain ⟨hlength, hzip⟩ := List.forall₂_iff_zip.mp h
  have hpairs : ∀ x ∈ as.zip bs, R x.1 x.2 := fun x hx => hzip hx
  let sorted := (as.zip bs).mergeSort fun x y => r x.1 y.1
  have hleft : sorted.map Prod.fst = as.mergeSort r := by
    have hsorted := List.map_mergeSort (f := Prod.fst) (l := as.zip bs) (s := r) fun _ _ _ _ => rfl
    rw [List.map_fst_zip hlength.le] at hsorted
    exact hsorted
  have hright : sorted.map Prod.snd = bs.mergeSort s := by
    have hsorted := List.map_mergeSort (f := Prod.snd) (l := as.zip bs) (s := s)
      fun x hx y hy => horder _ _ _ _ (hpairs x hx) (hpairs y hy)
    rw [List.map_snd_zip hlength.ge] at hsorted
    exact hsorted
  rw [← hleft, ← hright, List.forall₂_map_left_iff, List.forall₂_map_right_iff, List.forall₂_same]
  intro x hx
  exact hpairs x (List.mem_mergeSort.mp hx)

end Pairs

namespace FileReport

/-- An outcome without the spelling of its path. -/
def unspelled (f : FileReport) : FileReport :=
  { f with path := ⟨""⟩, error := f.error.map fun _ => "" }

/-- Whether a file is valid does not depend on the spelling of its path. -/
@[simp] theorem isValid_unspelled (f : FileReport) : f.unspelled.isValid = f.isValid := rfl

/-- The result of a file does not depend on the spelling of its path. -/
@[simp] theorem result_unspelled (f : FileReport) : f.unspelled.result = f.result := rfl

/-- Whether a file failed does not depend on the spelling of its path. -/
@[simp] theorem isSome_error_unspelled (f : FileReport) :
    f.unspelled.error.isSome = f.error.isSome := Option.isSome_map

/-- Outcomes that are alike are the same without the spelling. -/
theorem Alike.unspelled {f g : FileReport} (h : f.Alike g) : f.unspelled = g.unspelled := by
  rw [FileReport.unspelled, FileReport.unspelled, h.result]
  rcases h.error with ⟨hf, hg⟩ | ⟨before, after, hf, hg⟩
  · rw [hf, hg]
  · rw [hf, hg]
    rfl

/-- Outcomes that are alike have the same place in the order of a report. -/
theorem Alike.precedes {f g f' g' : FileReport} (h : f.Alike g) (h' : f'.Alike g') :
    Batch.precedes f f' = Batch.precedes g g' := by
  simp only [Batch.precedes, errorCount, Path.order, h.result, h'.result, Path.same_iff.mp h.path,
    Path.same_iff.mp h'.path]

end FileReport

/-- Two reports that differ at most in how paths are spelled. -/
structure Report.Alike (r s : Report) : Prop where
  counts : { r with results := [] } = { s with results := [] }
  results : List.Forall₂ FileReport.Alike r.results s.results

/-- Reports on outcomes that are alike are alike. -/
theorem Report.ofResults_alike {fs gs : List FileReport} (h : List.Forall₂ FileReport.Alike fs gs) :
    (ofResults fs).Alike (ofResults gs) := by
  -- the counts do not read how paths are spelled
  have hview : fs.map FileReport.unspelled = gs.map FileReport.unspelled := by
    rw [← List.forall₂_eq_eq_eq, List.forall₂_map_left_iff, List.forall₂_map_right_iff]
    exact h.imp fun f g hfg => hfg.unspelled
  refine ⟨?_, h⟩
  refine eq_of_map_eq hview (fun fs => { ofResults fs with results := [] }) fun fs => ?_
  simp [ofResults, List.countP_map, Function.comp_def]

namespace Batch

variable {b c : Batch} {read : Pattern.Reader} {catalogue : Catalogue} {settings : Settings}
  {files : FileTree}

/-- The parts of the files that are found do not depend on the spelling of the paths. -/
theorem parts_mem_found (hfiles : files.HasProperNames) (h : b.SamePaths c)
    (hb : ∀ p ∈ b.paths, files.isSearchable p = true)
    (hc : ∀ p ∈ c.paths, files.isSearchable p = true)
    {parts : List Part} (hparts : parts ∈ (b.found files).map Path.parts) :
    parts ∈ (c.found files).map Path.parts := by
  obtain ⟨f, hf, rfl⟩ := List.mem_map.mp hparts
  obtain ⟨g, hg, hfg⟩ := exists_mem_found hfiles h hb hc hf
  exact List.mem_map.mpr ⟨g, hg, hfg.symm⟩

/-- Batches with the same paths arrange their files in the same order. -/
theorem map_parts_arrange_found (hfiles : files.HasProperNames) (h : b.SamePaths c)
    (hb : ∀ p ∈ b.paths, files.isSearchable p = true)
    (hc : ∀ p ∈ c.paths, files.isSearchable p = true) :
    (arrange (b.found files)).map Path.parts = (arrange (c.found files)).map Path.parts := by
  exact map_parts_arrange fun _ =>
    ⟨fun hparts => parts_mem_found hfiles h hb hc hparts,
      fun hparts => parts_mem_found hfiles h.symm hc hb hparts⟩

/-- Batches with the same paths report on the same files, but for the spelling of paths. -/
theorem report_alike (hfiles : files.HasProperNames) (h : b.SamePaths c)
    (hb : ∀ p ∈ b.paths, files.isSearchable p = true)
    (hc : ∀ p ∈ c.paths, files.isSearchable p = true) :
    (Report.ofResults ((b.outcomes read catalogue settings files).mergeSort precedes)).Alike
      (Report.ofResults ((c.outcomes read catalogue settings files).mergeSort precedes)) := by
  refine Report.ofResults_alike (forall₂_mergeSort ?_ ?_)
  · rw [outcomes, outcomes]
    refine forall₂_map_of_keys (map_parts_arrange_found hfiles h hb hc) ?_
    intro p hp q hq hparts
    exact analyzeFile_alike h hparts
      (locate?_of_mem_found hfiles (mem_of_mem_arrange hp) (mem_of_mem_arrange hq) hparts)
  · intro f f' g g' hfg hfg'
    exact hfg.precedes hfg'

/-- Of a batch, the outcome of a file reads only what asks for an analysis. -/
theorem analyzeFile_congr (h : b.SamePaths c) (p : Path) :
    b.analyzeFile read catalogue settings files p
      = c.analyzeFile read catalogue settings files p := by
  simp only [analyzeFile, h.dialectId, h.options]

/-- If no path is found in two spellings, nothing is left by which the reports could differ. -/
theorem outcomes_of_one_spelling (hfiles : files.HasProperNames) (h : b.SamePaths c)
    (hb : ∀ p ∈ b.paths, files.isSearchable p = true)
    (hc : ∀ p ∈ c.paths, files.isSearchable p = true)
    (hone : ∀ p ∈ b.found files, ∀ q ∈ c.found files, p.same q = true → p = q) :
    b.outcomes read catalogue settings files = c.outcomes read catalogue settings files := by
  have harrange : arrange (b.found files) = arrange (c.found files) := by
    have hsame : List.Forall₂ Eq ((arrange (b.found files)).map id)
        ((arrange (c.found files)).map id) := by
      refine forall₂_map_of_keys (map_parts_arrange_found hfiles h hb hc) ?_
      intro p hp q hq hparts
      exact hone p (mem_of_mem_arrange hp) q (mem_of_mem_arrange hq) (Path.same_iff.mpr hparts)
    rw [List.map_id, List.map_id, List.forall₂_eq_eq_eq] at hsame
    exact hsame
  have hanalyze : b.analyzeFile read catalogue settings files
      = c.analyzeFile read catalogue settings files :=
    funext (analyzeFile_congr h)
  rw [outcomes, outcomes, harrange, hanalyze]

end Batch

/-! ## Counts -/

namespace FileReport

/-- The file was analysed and has a syntax error. -/
def isInvalid (f : FileReport) : Bool := f.result.any fun a => !a.isValid

/-- Every file failed, is valid or is invalid. -/
theorem length_eq_counts {fs : List FileReport}
    (h : ∀ f ∈ fs, f.error.isSome = !f.result.isSome) :
    fs.length = fs.countP (·.error.isSome) + fs.countP isValid + fs.countP isInvalid := by
  induction fs with
  | nil => rfl
  | cons f rest ih =>
      have hrest := ih fun g hg => h g (List.mem_cons_of_mem f hg)
      have hf := h f List.mem_cons_self
      rw [List.length_cons, List.countP_cons, List.countP_cons, List.countP_cons, hf]
      cases hresult : f.result with
      | none =>
          simp only [isValid, isInvalid, hresult, Option.isSome_none, Option.any_none]
          simp
          omega
      | some a =>
          cases hvalid : a.isValid <;>
            simp only [isValid, isInvalid, hresult, hvalid, Option.isSome_some, Option.any_some] <;>
            simp <;> omega

/-- The errors in all findings are the errors of the files added up. -/
theorem countP_syntaxFindings (fs : List FileReport) :
    ((fs.filterMap result).flatMap (·.syntaxFindings)).countP (·.level == .error)
      = (fs.map errorCount).sum := by
  induction fs with
  | nil => rfl
  | cons f rest ih =>
      rw [List.map_cons, List.sum_cons, ← ih, List.filterMap_cons, errorCount]
      cases f.result with
      | none => simp
      | some a => simp [AnalysisResult.errorCount]

/-- A file is listed before another if it has more errors, or as many and no greater path. -/
theorem precedes_iff {f g : FileReport} :
    Batch.precedes f g = true
      ↔ g.errorCount < f.errorCount
        ∨ g.errorCount = f.errorCount ∧ (f.path.order g.path).isLE = true := by
  rw [Batch.precedes]
  cases hcount : compare g.errorCount f.errorCount with
  | lt =>
      have hlt := Nat.compare_eq_lt.mp hcount
      simp [hlt]
  | eq =>
      have heq := Nat.compare_eq_eq.mp hcount
      simp [heq]
  | gt =>
      have hgt := Nat.compare_eq_gt.mp hcount
      simp only [Ordering.gt_then, Ordering.isLE_gt, Bool.false_eq_true, false_iff]
      omega

end FileReport

namespace Batch

/-- A report is sorted. -/
theorem pairwise_precedes (fs : List FileReport) :
    (fs.mergeSort precedes).Pairwise fun f g => precedes f g = true := by
  refine List.pairwise_mergeSort ?_ ?_ fs
  · intro f g h hfg hgh
    rw [FileReport.precedes_iff] at hfg hgh ⊢
    rcases hfg with hfg | ⟨hfg, hpath⟩
    · left
      rcases hgh with hgh | ⟨hgh, -⟩ <;> omega
    · rcases hgh with hgh | ⟨hgh, hpath'⟩
      · left
        omega
      · exact Or.inr ⟨hgh.trans hfg, Std.TransCmp.isLE_trans hpath hpath'⟩
  · intro f g
    rw [Bool.or_eq_true, FileReport.precedes_iff, FileReport.precedes_iff]
    have hswap : f.path.order g.path = (g.path.order f.path).swap := Std.OrientedCmp.eq_swap
    rcases Nat.lt_trichotomy f.errorCount g.errorCount with hlt | heq | hgt
    · exact Or.inr (Or.inl hlt)
    · have htotal : (f.path.order g.path).isLE = true ∨ (g.path.order f.path).isLE = true := by
        rw [hswap]
        cases g.path.order f.path <;> simp
      rcases htotal with hle | hle
      · exact Or.inl (Or.inr ⟨heq.symm, hle⟩)
      · exact Or.inr (Or.inr ⟨heq, hle⟩)
    · exact Or.inl (Or.inl hgt)

/-- A report lists the arranged files. -/
theorem perm_map_path_sorted (b : Batch) (read : Pattern.Reader) (catalogue : Catalogue)
    (settings : Settings) (files : FileTree) :
    (((b.outcomes read catalogue settings files).mergeSort precedes).map FileReport.path).Perm
      (arrange (b.found files)) := by
  have hpaths : (b.outcomes read catalogue settings files).map FileReport.path
      = arrange (b.found files) := by
    rw [outcomes, List.map_map]
    exact List.map_id'' (b.path_analyzeFile read catalogue settings files) _
  exact hpaths ▸ (List.mergeSort_perm _ _).map FileReport.path

/-- A report lists no path twice, not even in two spellings. -/
theorem pairwise_parts_sorted (b : Batch) (read : Pattern.Reader) (catalogue : Catalogue)
    (settings : Settings) (files : FileTree) :
    ((b.outcomes read catalogue settings files).mergeSort precedes).Pairwise
      fun f g => f.path.parts ≠ g.path.parts := by
  have hparts : (arrange (b.found files)).Pairwise fun p q => p.parts ≠ q.parts :=
    (pairwise_arrange _).imp Path.parts_ne_of_order_eq_lt
  have hpaths := (b.perm_map_path_sorted read catalogue settings files).symm.pairwise hparts Ne.symm
  rwa [List.pairwise_map] at hpaths

end Batch

/-- What the report of a batch says about its files: each file found is listed once, those with more
errors first and then by path, and the counts add up. -/
structure Report.Accounts (b : Batch) (files : FileTree) (r : Report) : Prop where
  listed : ∃ paths, b.discover files = .ok paths ∧ (r.results.map FileReport.path).Perm paths
  covered : ∀ p, (∃ f ∈ r.results, f.path.same p = true) ↔ ∃ q ∈ b.found files, q.same p = true
  distinct : r.results.Pairwise fun f g => f.path.same g.path = false
  sorted : r.results.Pairwise fun f g => g.errorCount < f.errorCount
    ∨ g.errorCount = f.errorCount ∧ f.path.order g.path = .lt
  total : r.filesAnalyzed + r.failedFiles = r.results.length
  analyzed : r.validFiles + r.invalidFiles = r.filesAnalyzed
  no_underflow : r.failedFiles + r.validFiles ≤ r.results.length
  errors : r.totalSyntaxErrors = (r.results.map FileReport.errorCount).sum
  failures : r.hasFailures = true ↔ ∃ f ∈ r.results, f.isInvalid = true ∨ f.error.isSome = true

namespace Report

variable {b : Batch} {read : Pattern.Reader} {catalogue : Catalogue} {settings : Settings}
  {files : FileTree}

/-- A report has failures exactly if some file is invalid or failed. -/
theorem failures_ofResults {fs : List FileReport}
    (h : ∀ f ∈ fs, f.error.isSome = !f.result.isSome) :
    (ofResults fs).hasFailures = true
      ↔ ∃ f ∈ fs, f.isInvalid = true ∨ f.error.isSome = true := by
  have hinvalid : (ofResults fs).invalidFiles = fs.countP FileReport.isInvalid := by
    have hlength := FileReport.length_eq_counts h
    simp only [ofResults]
    omega
  simp only [hasFailures, hinvalid, Bool.or_eq_true, decide_eq_true_eq]
  rw [show (ofResults fs).failedFiles = fs.countP (·.error.isSome) from rfl, List.countP_pos_iff,
    List.countP_pos_iff]
  constructor
  · rintro (⟨f, hf, hinvalid⟩ | ⟨f, hf, herror⟩)
    · exact ⟨f, hf, Or.inl hinvalid⟩
    · exact ⟨f, hf, Or.inr herror⟩
  · rintro ⟨f, hf, hinvalid | herror⟩
    · exact Or.inl ⟨f, hf, hinvalid⟩
    · exact Or.inr ⟨f, hf, herror⟩

/-- The files that were analysed and those that failed add up, and so do the valid and the invalid
ones. -/
theorem counts_ofResults {fs : List FileReport}
    (h : ∀ f ∈ fs, f.error.isSome = !f.result.isSome) :
    (ofResults fs).filesAnalyzed + (ofResults fs).failedFiles = fs.length
      ∧ (ofResults fs).validFiles + (ofResults fs).invalidFiles = (ofResults fs).filesAnalyzed
      ∧ (ofResults fs).failedFiles + (ofResults fs).validFiles ≤ fs.length := by
  have hlength := FileReport.length_eq_counts h
  simp only [ofResults]
  omega

/-- Every report of a run accounts for its files. -/
theorem accounts {r : Report} (hr : b.run read catalogue settings files = .ok r) :
    r.Accounts b files := by
  obtain ⟨hall, rfl⟩ := Batch.run_eq_ok_iff.mp hr
  have houtcome : ∀ f ∈ (b.outcomes read catalogue settings files).mergeSort Batch.precedes,
      f.error.isSome = !f.result.isSome := by
    intro f hf
    obtain ⟨p, -, rfl⟩ := List.mem_map.mp (List.mem_mergeSort.mp hf)
    exact b.isSome_error_analyzeFile read catalogue settings files p
  have hlisted := b.perm_map_path_sorted read catalogue settings files
  have hdistinct := b.pairwise_parts_sorted read catalogue settings files
  obtain ⟨htotal, hanalyzed, hunderflow⟩ := counts_ofResults houtcome
  refine ⟨⟨_, Batch.discover_of_isSearchable hall, hlisted⟩, ?_, ?_, ?_, htotal, hanalyzed,
    hunderflow, FileReport.countP_syntaxFindings _, failures_ofResults houtcome⟩
  · intro p
    constructor
    · rintro ⟨f, hf, hsame⟩
      have hmem := hlisted.subset (List.mem_map_of_mem hf)
      exact ⟨f.path, Batch.mem_of_mem_arrange hmem, hsame⟩
    · rintro ⟨q, hq, hsame⟩
      obtain ⟨q', hq', hparts⟩ := Batch.exists_mem_arrange hq
      obtain ⟨f, hf, rfl⟩ := List.mem_map.mp (hlisted.symm.subset hq')
      exact ⟨f, hf, Path.same_iff.mpr (hparts.trans (Path.same_iff.mp hsame))⟩
  · refine hdistinct.imp ?_
    intro f g hne
    rw [← Bool.not_eq_true, Path.same_iff]
    exact hne
  · refine (Batch.pairwise_precedes _).imp₂ ?_ hdistinct
    intro f g hprecedes hne
    rcases FileReport.precedes_iff.mp hprecedes with hlt | ⟨heq, hle⟩
    · exact Or.inl hlt
    · exact Or.inr ⟨heq, Path.order_eq_lt_of_isLE hle hne⟩

end Report

/-- **A report hangs on the set of files.** Batches whose paths are searchable and differ in order,
repetition and spelling only are both run, and their reports agree but for the spelling of paths; if
no path is found in two spellings, the reports are equal. Every report of a run lists each file once
in the order of a report, and its counts add up. A run gives no report exactly if one of its paths
is not searchable; the first such path is its error. -/
theorem reports_depend_on_files (read : Pattern.Reader) (catalogue : Catalogue)
    (settings : Settings) (files : FileTree) :
    (∀ b c : Batch, files.HasProperNames → b.SamePaths c →
      (∀ p ∈ b.paths, files.isSearchable p = true) →
      (∀ p ∈ c.paths, files.isSearchable p = true) →
      ∃ r s : Report, b.run read catalogue settings files = .ok r
        ∧ c.run read catalogue settings files = .ok s ∧ r.Alike s
        ∧ ((∀ p ∈ b.found files, ∀ q ∈ c.found files, p.same q = true → p = q) → r = s))
    ∧ (∀ (b : Batch) (r : Report), b.run read catalogue settings files = .ok r →
      r.Accounts b files)
    ∧ ∀ (b : Batch) (e : SearchError), b.run read catalogue settings files = .error e
      ↔ ∃ front p back, b.paths = front ++ p :: back
        ∧ (∀ q ∈ front, files.isSearchable q = true) ∧ files.isSearchable p = false
        ∧ e = files.searchError p := by
  refine ⟨?_, fun _ _ => Report.accounts, fun b e => Batch.run_eq_error_iff⟩
  intro b c hfiles h hb hc
  refine ⟨_, _, Batch.run_of_isSearchable hb, Batch.run_of_isSearchable hc,
    Batch.report_alike hfiles h hb hc, ?_⟩
  intro hone
  rw [Batch.outcomes_of_one_spelling hfiles h hb hc hone]

/-- A directory and a file in it, given in one order and in the other, with a slash too many in one
spelling: the file is blank, so its outcome is an error that quotes its path. -/
theorem reports_depend_on_files_blank_file :
    ∃ (b c : Batch) (files : FileTree) (r s : Report), files.HasProperNames ∧ b.SamePaths c
      ∧ (∀ p ∈ b.paths, files.isSearchable p = true) ∧ (∀ p ∈ c.paths, files.isSearchable p = true)
      ∧ b.run Pattern.ofText? .empty {} files = .ok r
      ∧ c.run Pattern.ofText? .empty {} files = .ok s ∧ r.Alike s ∧ r.Accounts b files := by
  let b : Batch := { paths := [⟨"d//"⟩, ⟨"d/a.mush"⟩] }
  let c : Batch := { paths := [⟨"d/a.mush"⟩, ⟨"d"⟩, ⟨"d/a.mush"⟩] }
  let files : FileTree := { entries := [(["d", "a.mush"], .file [0x20, 0x20])] }
  have hfiles : files.HasProperNames := by decide +kernel
  have hpaths : b.SamePaths c :=
    ⟨rfl, rfl, rfl, by decide +kernel, by decide +kernel⟩
  have hb : ∀ p ∈ b.paths, files.isSearchable p = true := by decide +kernel
  have hc : ∀ p ∈ c.paths, files.isSearchable p = true := by decide +kernel
  obtain ⟨r, s, hr, hs, halike, -⟩ :=
    (reports_depend_on_files Pattern.ofText? .empty {} files).1 b c hfiles hpaths hb hc
  have haccounts := (reports_depend_on_files Pattern.ofText? .empty {} files).2.1 b r hr
  exact ⟨b, c, files, r, s, hfiles, hpaths, hb, hc, hr, hs, halike, haccounts⟩

/-- The same two paths in the other order: the report of the blank file quotes another spelling. -/
theorem error_quotes_spelling :
    ∃ (b : Batch) (files : FileTree) (r s : Report), files.HasProperNames
      ∧ (∀ p ∈ b.paths, files.isSearchable p = true)
      ∧ b.run Pattern.ofText? .empty {} files = .ok r
      ∧ { b with paths := b.paths.reverse }.run Pattern.ofText? .empty {} files = .ok s
      ∧ r.results.map FileReport.error
        = [some "rejected d//a.mush: text: must not be empty or blank"]
      ∧ s.results.map FileReport.error
        = [some "rejected d/a.mush: text: must not be empty or blank"] := by
  let p : Path := ⟨"d//a.mush"⟩
  let q : Path := ⟨"d/a.mush"⟩
  let b : Batch := { paths := [p, q] }
  let c : Batch := { paths := [q, p] }
  let files : FileTree := { entries := [(["d", "a.mush"], .file [0x20, 0x20])] }
  have hb : ∀ p ∈ b.paths, files.isSearchable p = true := by decide +kernel
  have hc : ∀ p ∈ c.paths, files.isSearchable p = true := by decide +kernel
  have hleft : Batch.arrange (b.found files) = [p] := by
    have hfound : b.found files = [p, q] := by decide +kernel
    rw [hfound, Batch.arrange, List.mergeSort_of_pairwise (by decide +kernel)]
    decide +kernel
  have hright : Batch.arrange (c.found files) = [q] := by
    have hfound : c.found files = [q, p] := by decide +kernel
    rw [hfound, Batch.arrange, List.mergeSort_of_pairwise (by decide +kernel)]
    decide +kernel
  refine ⟨b, files, _, _, by decide +kernel, hb, Batch.run_eq_ok_iff.mpr ⟨hb, rfl⟩,
    Batch.run_eq_ok_iff.mpr ⟨hc, rfl⟩, ?_, ?_⟩
  · show ((b.outcomes Pattern.ofText? .empty {} files).mergeSort Batch.precedes).map
      FileReport.error = _
    rw [Batch.outcomes, hleft, List.map_singleton, List.mergeSort_singleton]
    decide +kernel
  · show ((c.outcomes Pattern.ofText? .empty {} files).mergeSort Batch.precedes).map
      FileReport.error = _
    rw [Batch.outcomes, hright, List.map_singleton, List.mergeSort_singleton]
    decide +kernel

end Softcode
