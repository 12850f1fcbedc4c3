import Softcode.Text.Lines

/-!
# Paths

A path is kept as it is spelled. What it means are its parts: two spellings of the same parts are
equal as paths, and paths are ordered part by part, not character by character.
-/

namespace Softcode

/-- A part of a path. -/
inductive Part where
  | root
  /-- a dot at the very start -/
  | here
  /-- two dots -/
  | up
  | name (s : String)
  deriving DecidableEq, Repr

/-- Parts of different kinds in ascending order. -/
def Part.rank : Part → Nat
  | .root => 0
  | .here => 1
  | .up => 2
  | .name _ => 3

/-- Compare two parts: the root first, then dots, then names by their characters. -/
def Part.order : Part → Part → Ordering
  | .name a, .name b => compare a b
  | a, b => compare a.rank b.rank

/-- A path as it is spelled. -/
structure Path where
  spelling : String
  deriving DecidableEq, Repr, Inhabited

namespace Path

/-- The pieces of a path between its slashes. -/
def segments (p : Path) : List String :=
  (Text.splitBy (· == '/') p.spelling.toList).map String.ofList

/-- The path starts at the root. -/
def isAbsolute (p : Path) : Bool := p.spelling.toList.head? == some '/'

/-- The part that a segment after the first stands for. -/
def partOf? (segment : String) : Option Part :=
  if segment == "" || segment == "." then none
  else if segment == ".." then some .up
  else some (.name segment)

/-- The parts of a path. A dot counts only at the start. -/
def parts (p : Path) : List Part :=
  match p.segments with
  | [] => []
  | first :: more =>
    let lead : Option Part :=
      if p.isAbsolute then some .root else if first == "." then some .here else partOf? first
    lead.toList ++ more.filterMap partOf?

/-- Compare lists of parts, part by part. -/
def compareParts : List Part → List Part → Ordering
  | [], [] => .eq
  | [], _ :: _ => .lt
  | _ :: _, [] => .gt
  | a :: as, b :: bs => (a.order b).then (compareParts as bs)

/-- The order of paths. -/
def order (p q : Path) : Ordering := compareParts p.parts q.parts

/-- The paths have the same parts. -/
def same (p q : Path) : Bool := p.parts == q.parts

/-- The name at the end of a path. -/
def fileName? (p : Path) : Option String :=
  match p.parts.getLast? with
  | some (.name s) => some s
  | _ => none

/-- What follows the last dot of a name, if something stands before that dot. -/
def extensionOf? (name : List Char) : Option (List Char) :=
  let tail := name.reverse.takeWhile (· != '.')
  match name.reverse.drop tail.length with
  | _ :: _ :: _ => some tail.reverse
  | _ => none

/-- The extension of the name at the end of a path. -/
def extension? (p : Path) : Option String :=
  (p.fileName?.bind fun name => extensionOf? name.toList).map String.ofList

/-- The path of a name in the directory that the path leads to. -/
def child (p : Path) (name : String) : Path :=
  let spelling := p.spelling.toList
  if spelling.isEmpty || spelling.getLast? == some '/' then ⟨p.spelling ++ name⟩
  else ⟨p.spelling ++ "/" ++ name⟩

/-- Segments without the empty ones and the dots at their end; the first segment stays. -/
def trimSegments (segments : List String) : List String :=
  match segments with
  | [] => []
  | first :: more =>
    first :: (more.reverse.dropWhile fun s => s == "" || s == ".").reverse

/-- The path without its last part. -/
def parent (p : Path) : Path :=
  let kept := trimSegments (trimSegments p.segments).dropLast
  ⟨if kept == [""] then "/" else "/".intercalate kept⟩

end Path

end Softcode
