import Mathlib.Data.List.Basic
import Softcode.Files.Tree
import Softcode.Proofs.TextLines

/-!
# Where paths lead

Paths with the same parts need not lead to the same place, for one of them may end in a slash behind
a file and then lead nowhere. But if both lead somewhere, it is to the same location
(`FileTree.locate?_unique`), and the walks of the two give the same files, spelled differently
(`FileTree.exists_mem_walk`). A file that a walk finds is at the location the walk found it at
(`FileTree.locate?_of_mem_walk`). This needs that the names in a tree are names, which making
directories and writing files preserve (`FileTree.HasProperNames`).
-/

namespace Softcode

/-- A name that a file or a directory can have. -/
def isProperName (name : String) : Bool :=
  name != "" && name != "." && name != ".." && !name.toList.contains '/'

/-- All names on the way to a location are proper. -/
def FileTree.IsProper (place : Location) : Prop := ∀ name ∈ place, isProperName name = true

/-- All names in a tree are proper. -/
def FileTree.HasProperNames (t : FileTree) : Prop := ∀ e ∈ t.entries, IsProper e.1

instance (t : FileTree) : Decidable t.HasProperNames :=
  inferInstanceAs (Decidable (∀ e ∈ t.entries, ∀ name ∈ e.1, isProperName name = true))

theorem isProperName_iff {name : String} :
    isProperName name = true
      ↔ name ≠ "" ∧ name ≠ "." ∧ name ≠ ".." ∧ '/' ∉ name.toList := by
  simp [isProperName, and_assoc]

namespace Path

/-! ## Segments and parts -/

/-- A proper name is a path of one segment. -/
theorem segments_of_isProperName {name : String} (h : isProperName name = true) :
    segments ⟨name⟩ = [name] := by
  have hslash : ∀ c ∈ name.toList, (c == '/') = false := by
    intro c hc
    refine beq_eq_false_iff_ne.mpr ?_
    rintro rfl
    exact (isProperName_iff.mp h).2.2.2 hc
  rw [segments, Text.splitBy_eq_splitOnP, List.splitOnP_eq_singleton hslash]
  simp

/-- A proper name is a part of a path. -/
theorem partOf?_of_isProperName {name : String} (h : isProperName name = true) :
    partOf? name = some (.name name) := by
  obtain ⟨hempty, hdot, hdots, -⟩ := isProperName_iff.mp h
  simp [partOf?, hempty, hdot, hdots]

/-- A name in a directory is one more segment; a slash at the end of the directory is used up. -/
theorem segments_child {p : Path} (hp : p.spelling ≠ "") {name : String}
    (h : isProperName name = true) :
    ∃ first more, (p.child name).segments = first :: (more ++ [name])
      ∧ (p.segments = first :: more ∨ p.segments = first :: (more ++ [""])) := by
  have hname := segments_of_isProperName h
  have hsplit : ∀ front : List Char,
      (Text.splitBy (· == '/') (front ++ '/' :: name.toList)).map String.ofList
        = (Text.splitBy (· == '/') front).map String.ofList ++ [name] := by
    intro front
    rw [segments] at hname
    rw [Text.splitBy_eq_splitOnP, List.splitOnP_append_cons front _ (by decide), List.map_append,
      ← Text.splitBy_eq_splitOnP, ← Text.splitBy_eq_splitOnP, hname]
  have hpieces : ∀ front : List Char,
      ∃ first more, (Text.splitBy (· == '/') front).map String.ofList = first :: more := by
    intro front
    refine List.exists_cons_of_ne_nil ?_
    rw [Text.splitBy_eq_splitOnP]
    simp
  have hnonempty : p.spelling.toList ≠ [] := by simpa using hp
  by_cases hlast : p.spelling.toList.getLast? = some '/'
  · obtain ⟨front, hfront⟩ : ∃ front, p.spelling.toList = front ++ ['/'] :=
      List.getLast?_eq_some_iff.mp hlast
    obtain ⟨first, more, hmore⟩ := hpieces front
    refine ⟨first, more, ?_, Or.inr ?_⟩
    · rw [segments, child, if_pos (by simp [hlast])]
      simp only [String.toList_append, hfront, List.append_assoc, List.singleton_append]
      rw [hsplit, hmore, List.cons_append]
    · rw [segments, hfront, Text.splitBy_eq_splitOnP, List.splitOnP_append_cons front _ (by decide),
        List.map_append, ← Text.splitBy_eq_splitOnP, hmore]
      rfl
  · obtain ⟨first, more, hmore⟩ := hpieces p.spelling.toList
    refine ⟨first, more, ?_, Or.inl hmore⟩
    rw [segments, child, if_neg (by simp [hlast, hp])]
    simp only [String.toList_append]
    rw [List.append_assoc, show "/".toList ++ name.toList = '/' :: name.toList from rfl, hsplit,
      hmore, List.cons_append]

/-- A path in a directory is not spelled empty. -/
theorem spelling_child_ne {p : Path} (hp : p.spelling ≠ "") (name : String) :
    (p.child name).spelling ≠ "" := by
  rw [child]
  split <;> simp [hp]

/-- A path in a directory is absolute when the directory's is. -/
theorem isAbsolute_child {p : Path} (hp : p.spelling ≠ "") (name : String) :
    (p.child name).isAbsolute = p.isAbsolute := by
  have hnonempty : p.spelling.toList ≠ [] := by simpa using hp
  obtain ⟨c, rest, hcons⟩ := List.exists_cons_of_ne_nil hnonempty
  rw [isAbsolute, isAbsolute, child]
  split <;> simp [hcons]

/-- The first part of a path. -/
def leadPart? (p : Path) (first : String) : Option Part :=
  if p.isAbsolute then some .root else if first == "." then some .here else partOf? first

/-- The first segment decides the first part, and each later one is a part or nothing. -/
theorem parts_of_segments {p : Path} {first : String} {more : List String}
    (h : p.segments = first :: more) :
    p.parts = (p.leadPart? first).toList ++ more.filterMap partOf? := by
  rw [parts, h]
  rfl

/-- A proper name adds one part to a path. -/
theorem parts_child {p : Path} (hp : p.spelling ≠ "") {name : String}
    (h : isProperName name = true) : (p.child name).parts = p.parts ++ [.name name] := by
  obtain ⟨first, more, hchild, hsegments⟩ := segments_child hp h
  have hparts : p.parts = (p.leadPart? first).toList ++ more.filterMap partOf? := by
    rcases hsegments with hsegments | hsegments
    · exact parts_of_segments hsegments
    · rw [parts_of_segments hsegments, List.filterMap_append]
      simp [partOf?]
  have hlead : (p.child name).leadPart? first = p.leadPart? first := by
    rw [leadPart?, isAbsolute_child hp, leadPart?]
  rw [parts_of_segments hchild, hlead, List.filterMap_append, hparts, List.append_assoc,
    List.filterMap_cons, partOf?_of_isProperName h, List.filterMap_nil]

/-! ## The way that parts describe -/

/-- The segment that moves along a part. -/
def stepOf? : Part → Option String
  | .up => some ".."
  | .name s => some s
  | _ => none

/-- A segment that leads away from where it stands. -/
def isStep (segment : String) : Bool := !(segment == "" || segment == ".")

/-- A segment is a step of the way unless it is empty or a dot. -/
theorem bind_stepOf?_partOf? (segment : String) :
    (partOf? segment).bind stepOf? = if isStep segment then some segment else none := by
  rw [partOf?, isStep]
  by_cases hstay : (segment == "" || segment == ".") = true
  · simp [hstay]
  · by_cases hup : segment = ".."
    · simp [hup, stepOf?]
    · simp [hstay, hup, stepOf?]

/-- The parts of segments describe the steps among the segments. -/
theorem filterMap_stepOf?_partOf? (segments : List String) :
    (segments.filterMap partOf?).filterMap stepOf? = segments.filter isStep := by
  rw [List.filterMap_filterMap]
  simp only [bind_stepOf?_partOf?]
  rw [← List.filterMap_eq_filter]
  rfl

/-- The first segment of an absolute path is empty. -/
theorem head_segments_of_isAbsolute {p : Path} (h : p.isAbsolute = true) {first : String}
    {more : List String} (hsegments : p.segments = first :: more) : first = "" := by
  rw [isAbsolute, beq_iff_eq] at h
  obtain ⟨rest, hrest⟩ := List.head?_eq_some_iff.mp h
  rw [segments, hrest, Text.splitBy, if_pos (by decide), List.map_cons] at hsegments
  exact (List.cons.inj hsegments).1.symm

/-- The segments that move are those of the parts. -/
theorem filterMap_stepOf?_parts (p : Path) :
    p.parts.filterMap stepOf? = p.segments.filter isStep := by
  cases hsegments : p.segments with
  | nil => rw [parts, hsegments]; rfl
  | cons first more =>
      rw [parts_of_segments hsegments, List.filterMap_append, filterMap_stepOf?_partOf?,
        show first :: more = [first] ++ more from rfl, List.filter_append]
      congr 1
      rw [leadPart?]
      by_cases habsolute : p.isAbsolute = true
      · rw [if_pos habsolute, head_segments_of_isAbsolute habsolute hsegments]
        decide
      · rw [if_neg habsolute]
        by_cases hdot : first = "."
        · rw [hdot]
          decide
        · rw [if_neg (by simpa using hdot), ← filterMap_stepOf?_partOf?]
          congr 1

/-- The root is a part of the absolute paths. -/
theorem root_mem_parts_iff {p : Path} : .root ∈ p.parts ↔ p.isAbsolute = true := by
  have hpart : ∀ segment, partOf? segment ≠ some .root := by
    intro segment h
    rw [partOf?] at h
    split at h
    · exact absurd h (by simp)
    · split at h <;> simp at h
  cases hsegments : p.segments with
  | nil =>
      have hne := List.splitOnP_ne_nil (· == '/') p.spelling.toList
      rw [segments, Text.splitBy_eq_splitOnP, List.map_eq_nil_iff] at hsegments
      exact absurd hsegments hne
  | cons first more =>
      rw [parts_of_segments hsegments, List.mem_append, leadPart?]
      constructor
      · rintro (hlead | hmore)
        · by_contra habsolute
          rw [if_neg habsolute] at hlead
          split at hlead
          · simp at hlead
          · exact hpart first (Option.mem_toList.mp hlead)
        · obtain ⟨segment, -, hroot⟩ := List.mem_filterMap.mp hmore
          exact absurd hroot (hpart segment)
      · intro habsolute
        rw [if_pos habsolute]
        exact Or.inl (by simp)

end Path

/-! ## Locations -/

namespace FileTree

variable {t : FileTree}

/-- A way is followed piece by piece. -/
theorem follow?_append (place : Location) (front back : List String) :
    t.follow? place (front ++ back) = (t.follow? place front).bind fun p => t.follow? p back := by
  induction front generalizing place with
  | nil => rfl
  | cons segment rest ih =>
      rw [List.cons_append, follow?, follow?]
      split
      · rfl
      · split
        · exact ih place
        · split
          · exact ih place.dropLast
          · simp only
            split
            · exact ih _
            · rfl

/-- Segments that stay where they are only make sure that there is a directory. -/
theorem follow?_filter_isStep {place result : Location} {segments : List String}
    (h : t.follow? place segments = some result) :
    t.follow? place (segments.filter Path.isStep) = some result := by
  induction segments generalizing place with
  | nil => exact h
  | cons segment rest ih =>
      rw [follow?] at h
      split at h
      · exact absurd h (by simp)
      · next hdirectory =>
        split at h
        · next hstay =>
          rw [List.filter_cons_of_neg (by simp [Path.isStep, hstay])]
          exact ih h
        · next hmove =>
          rw [List.filter_cons_of_pos (by simpa [Path.isStep] using hmove), follow?,
            if_neg hdirectory, if_neg hmove]
          split at h
          · next hup =>
            rw [if_pos hup]
            exact ih h
          · next hup =>
            simp only at h
            split at h
            · next hnext =>
              rw [if_neg hup]
              simp only
              rw [if_pos hnext]
              exact ih h
            · exact absurd h (by simp)

/-- Two paths with the same parts that lead somewhere lead to the same location. -/
theorem locate?_unique {p q : Path} (hparts : p.parts = q.parts) {a b : Location}
    (hp : t.locate? p = some a) (hq : t.locate? q = some b) : a = b := by
  have hsteps : ∀ {r : Path} {l : Location}, t.locate? r = some l →
      t.follow? (t.start r) (r.parts.filterMap Path.stepOf?) = some l := by
    intro r l hr
    rw [locate?] at hr
    split at hr
    · exact absurd hr (by simp)
    · rw [Path.filterMap_stepOf?_parts]
      exact follow?_filter_isStep hr
  have hstart : t.start p = t.start q := by
    have habsolute : p.isAbsolute = q.isAbsolute := by
      rw [Bool.eq_iff_iff, ← Path.root_mem_parts_iff, ← Path.root_mem_parts_iff, hparts]
    rw [start, start, habsolute]
  have hsame := hsteps hp
  rw [hparts, hstart, hsteps hq] at hsame
  exact (Option.some.inj hsame).symm

/-- A path that leads somewhere is not spelled empty. -/
theorem spelling_ne_of_locate? {p : Path} {place : Location} (h : t.locate? p = some place) :
    p.spelling ≠ "" := by
  intro hempty
  rw [locate?, hempty, if_pos (by decide)] at h
  exact absurd h (by simp)

/-- An empty segment stays in a directory and leads nowhere from elsewhere. -/
theorem follow?_stay (place : Location) :
    t.follow? place [""] = if t.isDirectoryAt place then some place else none := by
  rw [follow?]
  by_cases h : t.isDirectoryAt place = true <;> simp [h, follow?]

/-- A name behind a path is followed from where the path leads. -/
theorem locate?_child {p : Path} {place : Location} (hp : t.locate? p = some place) {name : String}
    (h : isProperName name = true) : t.locate? (p.child name) = t.follow? place [name] := by
  have hspelling := spelling_ne_of_locate? hp
  obtain ⟨first, more, hchild, hsegments⟩ := Path.segments_child hspelling h
  have hfront : t.follow? (t.start p) (first :: more) = some place := by
    rw [locate?, if_neg (by simpa using hspelling)] at hp
    rcases hsegments with hsegments | hsegments
    · rwa [hsegments] at hp
    · -- the slash at the end of the path only asks for a directory
      rw [hsegments, ← List.cons_append, follow?_append] at hp
      obtain ⟨place', hplace', hstay⟩ := Option.bind_eq_some_iff.mp hp
      rw [follow?_stay] at hstay
      split at hstay
      · rw [hplace', hstay]
      · exact absurd hstay (by simp)
  have hstart : t.start (p.child name) = t.start p := by
    rw [start, start, Path.isAbsolute_child hspelling]
  rw [locate?, if_neg (by simpa using Path.spelling_child_ne hspelling name), hstart, hchild,
    ← List.cons_append, follow?_append, hfront]
  rfl

/-! ## Walks -/

/-- What has an entry below it is a directory. -/
theorem isDirectoryAt_of_mem {place : Location} {name : String} {names : List String} {e : Entry}
    (h : (place ++ name :: names, e) ∈ t.entries) : t.isDirectoryAt place = true := by
  rw [isDirectoryAt, Bool.or_eq_true]
  right
  refine List.any_eq_true.mpr ⟨_, h, ?_⟩
  have hne : place ++ name :: names ≠ place := by
    intro heq
    have hlength := congrArg List.length heq
    simp at hlength
  simp [hne]

/-- A file's location is that of a directory or of a file. -/
theorem exists_at_of_mem {place : Location} {bytes : List UInt8}
    (h : (place, .file bytes) ∈ t.entries) :
    t.isDirectoryAt place = true ∨ (t.fileAt? place).isSome = true := by
  cases hlookup : t.entries.lookup place with
  | none =>
      rw [List.lookup_eq_none_iff] at hlookup
      exact absurd (hlookup _ h) (by simp)
  | some e =>
      cases e with
      | file content => exact Or.inr (by rw [fileAt?, hlookup]; rfl)
      | directory =>
          left
          obtain ⟨front, back, hentries, -⟩ := List.lookup_eq_some_iff.mp hlookup
          rw [isDirectoryAt, Bool.or_eq_true]
          right
          refine List.any_eq_true.mpr ⟨(place, .directory), ?_, by simp⟩
          rw [hentries]
          simp

/-- A proper name leads from a directory to what is in it. -/
theorem follow?_name {place : Location} {name : String} (h : isProperName name = true)
    (hplace : t.isDirectoryAt place = true)
    (hnext : t.isDirectoryAt (place ++ [name]) = true
      ∨ (t.fileAt? (place ++ [name])).isSome = true) :
    t.follow? place [name] = some (place ++ [name]) := by
  obtain ⟨hempty, hdot, hdots, -⟩ := isProperName_iff.mp h
  have hthere : (t.isDirectoryAt (place ++ [name])
      || (t.fileAt? (place ++ [name])).isSome) = true := by
    rw [Bool.or_eq_true]
    exact hnext
  rw [follow?, if_neg (by simp [hplace]), if_neg (by simp [hempty, hdot]), if_neg (by simp [hdots])]
  simp only
  rw [if_pos hthere]
  rfl

/-- The induction is on the names below the directory; the location grows as the path does. -/
theorem locate?_foldl_child {p : Path} {place : Location} (hp : t.locate? p = some place)
    {names : List String} {bytes : List UInt8} (hproper : ∀ name ∈ names, isProperName name = true)
    (hentry : (place ++ names, .file bytes) ∈ t.entries) :
    t.locate? (names.foldl Path.child p) = some (place ++ names) := by
  induction names generalizing p place with
  | nil => simpa using hp
  | cons name rest ih =>
      have hname := hproper name List.mem_cons_self
      have hentry' : ((place ++ [name]) ++ rest, .file bytes) ∈ t.entries := by
        simpa [List.append_assoc] using hentry
      have hnext : t.isDirectoryAt (place ++ [name]) = true
          ∨ (t.fileAt? (place ++ [name])).isSome = true := by
        cases rest with
        | nil => exact exists_at_of_mem (by simpa using hentry')
        | cons below more => exact Or.inl (isDirectoryAt_of_mem hentry')
      have hchild : t.locate? (p.child name) = some (place ++ [name]) := by
        rw [locate?_child hp hname, follow?_name hname (isDirectoryAt_of_mem hentry) hnext]
      have hrest := ih hchild (fun other h => hproper other (List.mem_cons_of_mem name h)) hentry'
      rw [List.foldl_cons, hrest, List.append_assoc, List.singleton_append]

/-- Proper names one below the other add their parts to a path. -/
theorem parts_foldl_child {p : Path} (hp : p.spelling ≠ "") {names : List String}
    (hproper : ∀ name ∈ names, isProperName name = true) :
    (names.foldl Path.child p).parts = p.parts ++ names.map .name := by
  induction names generalizing p with
  | nil => simp
  | cons name rest ih =>
      have hrest := ih (Path.spelling_child_ne hp name)
        (fun other h => hproper other (List.mem_cons_of_mem name h))
      rw [List.foldl_cons, hrest, Path.parts_child hp (hproper name List.mem_cons_self),
        List.append_assoc, List.map_cons, List.singleton_append]

/-- What a walk finds: the files at the locations below the one it starts from. -/
theorem mem_walk_iff {p f : Path} :
    f ∈ t.walk p ↔ ∃ place names bytes, t.locate? p = some place ∧ names ≠ []
      ∧ (place ++ names, .file bytes) ∈ t.entries ∧ f = names.foldl Path.child p := by
  rw [walk]
  cases hp : t.locate? p with
  | none => simp
  | some place =>
      simp only [List.mem_filterMap, Option.some.injEq, exists_eq_left', exists_and_left]
      constructor
      · rintro ⟨⟨location, entry⟩, hmem, hf⟩
        cases entry with
        | directory => simp at hf
        | file bytes =>
            simp only at hf
            split at hf
            · next hbelow =>
              simp only [Bool.and_eq_true, List.isPrefixOf_iff_prefix, bne_iff_ne] at hbelow
              obtain ⟨⟨names, rfl⟩, hne⟩ := hbelow
              refine ⟨names, fun hnil => hne (by simp [hnil]), bytes, hmem, ?_⟩
              rw [List.drop_left] at hf
              exact (Option.some.inj hf).symm
            · exact absurd hf (by simp)
      · rintro ⟨names, hne, bytes, hmem, rfl⟩
        refine ⟨(place ++ names, .file bytes), hmem, ?_⟩
        have hbelow : (place.isPrefixOf (place ++ names) && place != place ++ names) = true := by
          simp [hne]
        simp only
        rw [if_pos hbelow, List.drop_left]

/-- The names on the way to an entry are proper. -/
theorem properNames_of_mem (ht : t.HasProperNames) {place : Location} {names : List String}
    {e : Entry} (h : (place ++ names, e) ∈ t.entries) :
    ∀ name ∈ names, isProperName name = true := by
  intro name hname
  exact ht _ h name (List.mem_append_right place hname)

/-- A file that a walk finds can be located. -/
theorem locate?_of_mem_walk (ht : t.HasProperNames) {p f : Path} (h : f ∈ t.walk p) :
    ∃ place, t.locate? f = some place := by
  obtain ⟨place, names, bytes, hp, -, hmem, rfl⟩ := mem_walk_iff.mp h
  exact ⟨_, locate?_foldl_child hp (properNames_of_mem ht hmem) hmem⟩

/-- Walks from two spellings of one directory find the same files. -/
theorem exists_mem_walk (ht : t.HasProperNames) {p q f : Path} (hparts : p.parts = q.parts)
    (hq : (t.locate? q).isSome) (h : f ∈ t.walk p) : ∃ g ∈ t.walk q, f.parts = g.parts := by
  obtain ⟨place, names, bytes, hp, hne, hmem, rfl⟩ := mem_walk_iff.mp h
  obtain ⟨place', hq⟩ := Option.isSome_iff_exists.mp hq
  obtain rfl := locate?_unique hparts hp hq
  refine ⟨_, mem_walk_iff.mpr ⟨place, names, bytes, hq, hne, hmem, rfl⟩, ?_⟩
  have hproper := properNames_of_mem ht hmem
  rw [parts_foldl_child (spelling_ne_of_locate? hp) hproper,
    parts_foldl_child (spelling_ne_of_locate? hq) hproper, hparts]

/-! ## Names in trees that are made

Whatever is made is made along a path, and the segments of a path that are not names are not used as
names. -/

/-- A segment has no slash, so it is a proper name unless it means where to stay or to go up. -/
theorem isProperName_of_mem_segments {p : Path} {segment : String} (h : segment ∈ p.segments)
    (hstay : ¬(segment == "" || segment == ".") = true) (hup : ¬(segment == "..") = true) :
    isProperName segment = true := by
  have hslash : '/' ∉ segment.toList := by
    obtain ⟨piece, hpiece, rfl⟩ := List.mem_map.mp h
    intro hmem
    rw [String.toList_ofList] at hmem
    exact absurd (Text.test_of_mem_splitBy hpiece hmem) (by decide)
  simp only [Bool.or_eq_true, beq_iff_eq, not_or] at hstay hup
  exact isProperName_iff.mpr ⟨hstay.1, hstay.2, hup, hslash⟩

/-- The location above a proper one is proper. -/
theorem IsProper.dropLast {place : Location} (h : IsProper place) : IsProper place.dropLast :=
  fun name hname => h name (List.dropLast_subset place hname)

/-- A proper name leads from a proper location to a proper one. -/
theorem IsProper.append_name {place : Location} (h : IsProper place) {name : String}
    (hname : isProperName name = true) : IsProper (place ++ [name]) := by
  intro other hother
  rcases List.mem_append.mp hother with hold | hnew
  · exact h other hold
  · rwa [List.mem_singleton.mp hnew]

/-- An entry at a proper location keeps the names of a tree proper. -/
theorem HasProperNames.put (ht : t.HasProperNames) {place : Location} (hplace : IsProper place)
    (e : Entry) : (t.put place e).HasProperNames := by
  intro entry hentry
  rcases List.mem_append.mp hentry with hold | hnew
  · exact ht entry (List.mem_filter.mp hold).1
  · rw [List.mem_singleton.mp hnew]
    exact hplace

/-- A way along segments of a path ends at a proper location. -/
theorem IsProper.follow? {p : Path} {segments : List String} (hsegments : segments ⊆ p.segments)
    {place result : Location} (hplace : IsProper place)
    (h : t.follow? place segments = some result) : IsProper result := by
  induction segments generalizing place with
  | nil => exact Option.some.inj h ▸ hplace
  | cons segment rest ih =>
      have hrest : rest ⊆ p.segments := fun s hs => hsegments (List.mem_cons_of_mem segment hs)
      rw [FileTree.follow?] at h
      split at h
      · exact absurd h (by simp)
      · split at h
        · exact ih hrest hplace h
        · next hmove =>
          split at h
          · exact ih hrest hplace.dropLast h
          · next hup =>
            have hname :=
              isProperName_of_mem_segments (hsegments List.mem_cons_self) hmove hup
            simp only at h
            split at h
            · exact ih hrest (hplace.append_name hname) h
            · exact absurd h (by simp)

/-- Making the directories along segments of a path keeps the names of a tree proper. -/
theorem HasProperNames.makeFrom? {p : Path} {segments : List String}
    (hsegments : segments ⊆ p.segments) (ht : t.HasProperNames) {place : Location}
    (hplace : IsProper place) {made : FileTree × Location}
    (h : t.makeFrom? place segments = some made) : made.1.HasProperNames := by
  induction segments generalizing t place with
  | nil => exact Option.some.inj h ▸ ht
  | cons segment rest ih =>
      have hrest : rest ⊆ p.segments := fun s hs => hsegments (List.mem_cons_of_mem segment hs)
      rw [FileTree.makeFrom?] at h
      split at h
      · exact ih hrest ht hplace h
      · next hmove =>
        split at h
        · exact ih hrest ht hplace.dropLast h
        · next hup =>
          have hnext := hplace.append_name
            (isProperName_of_mem_segments (hsegments List.mem_cons_self) hmove hup)
          simp only at h
          split at h
          · exact absurd h (by simp)
          · split at h
            · exact ih hrest ht hnext h
            · exact ih hrest (ht.put hnext .directory) hnext h

/-- A way starts at a proper location. -/
theorem IsProper.start (hcurrent : IsProper t.current) (p : Path) : IsProper (t.start p) := by
  rw [FileTree.start]
  split
  · exact fun name hname => absurd hname List.not_mem_nil
  · exact hcurrent

/-- Making directories keeps the names in a tree proper. -/
theorem HasProperNames.makeDirectories? (ht : t.HasProperNames) (hcurrent : IsProper t.current)
    {p : Path} {made : FileTree} (h : t.makeDirectories? p = some made) : made.HasProperNames := by
  obtain ⟨result, hresult, rfl⟩ := Option.map_eq_some_iff.mp h
  exact ht.makeFrom? (List.Subset.refl _) (hcurrent.start p) hresult

/-- Writing a file keeps the names in a tree proper. -/
theorem HasProperNames.write? (ht : t.HasProperNames) (hcurrent : IsProper t.current) {p : Path}
    {bytes : List UInt8} {made : FileTree} (h : t.write? p bytes = some made) :
    made.HasProperNames := by
  obtain ⟨name, hname, h⟩ := Option.bind_eq_some_iff.mp h
  split at h
  · exact absurd h (by simp)
  · next hproper =>
    obtain ⟨place, hplace, h⟩ := Option.bind_eq_some_iff.mp h
    simp only [Bool.or_eq_true, not_or] at hproper
    have hlocation : IsProper (place ++ [name]) := by
      refine IsProper.append_name ?_ ?_
      · exact (hcurrent.start p).follow? (List.dropLast_subset _) hplace
      · refine isProperName_of_mem_segments (List.mem_of_getLast? hname) ?_ hproper.2
        simpa using hproper.1
    simp only at h
    split at h
    · exact Option.some.inj h ▸ ht.put hlocation (.file bytes)
    · exact absurd h (by simp)

end FileTree

end Softcode
