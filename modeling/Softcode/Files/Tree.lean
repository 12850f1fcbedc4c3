import Softcode.Files.Path
import Softcode.Text.Decode

/-!
# Trees of files

The files a run can see, held in memory. A location is a list of names from the root; a path leads
to a location from the root or from the current directory. Every directory on the way to an entry
exists. The system may refuse to give the content of a file or the names in a directory, which are
there all the same.
-/

namespace Softcode

/-- What stands at a location. -/
inductive Entry where
  | file (bytes : List UInt8)
  | directory
  deriving DecidableEq, Repr

/-- Names from the root down. -/
abbrev Location := List String

/-- Files and directories. -/
structure FileTree where
  entries : List (Location × Entry) := []
  /-- the current directory -/
  current : Location := []
  /-- files whose content and directories whose names are refused, with the reason -/
  refused : List (Location × String) := []
  deriving Repr

namespace FileTree

/-- There is a directory at a location. -/
def isDirectoryAt (t : FileTree) (place : Location) : Bool :=
  place.isEmpty || t.entries.any fun e =>
    if e.1 == place then e.2 == .directory else place.isPrefixOf e.1

/-- The content of the file at a location. -/
def fileAt? (t : FileTree) (place : Location) : Option (List UInt8) :=
  match t.entries.lookup place with
  | some (.file bytes) => some bytes
  | _ => none

/-- Follow segments from a location. Only directories can be passed through. -/
def follow? (t : FileTree) : Location → List String → Option Location
  | place, [] => some place
  | place, segment :: rest =>
    if !t.isDirectoryAt place then none
    else if segment == "" || segment == "." then t.follow? place rest
    else if segment == ".." then t.follow? place.dropLast rest
    else
      let next := place ++ [segment]
      if t.isDirectoryAt next || (t.fileAt? next).isSome then t.follow? next rest else none

/-- Where the segments of a path start from. -/
def start (t : FileTree) (p : Path) : Location := if p.isAbsolute then [] else t.current

/-- The location that a path leads to. The empty path leads nowhere. -/
def locate? (t : FileTree) (p : Path) : Option Location :=
  if p.spelling.isEmpty then none else t.follow? (t.start p) p.segments

/-- The path leads to a directory. -/
def isDirectory (t : FileTree) (p : Path) : Bool := (t.locate? p).any t.isDirectoryAt

/-- The path leads to a file. -/
def isFile (t : FileTree) (p : Path) : Bool :=
  (t.locate? p).any fun place => (t.fileAt? place).isSome

/-- The content of the file at a location, unless it is refused. -/
def readAt? (t : FileTree) (place : Location) : Option (List UInt8) :=
  if (t.refused.lookup place).isSome then none else t.fileAt? place

/-- The content of the file that a path leads to, unless it is refused. -/
def read? (t : FileTree) (p : Path) : Option (List UInt8) := (t.locate? p).bind t.readAt?

/-- Why a file is not read. -/
def refusal (t : FileTree) (p : Path) : String :=
  ((t.locate? p).bind fun place => t.refused.lookup place).getD
    "No such file or directory (os error 2)"

/-- Neither the directory that a path leads to nor one below it has its names refused. -/
def isListed (t : FileTree) (p : Path) : Bool :=
  (t.locate? p).all fun place => t.refused.all fun (location, _) =>
    !(place.isPrefixOf location && t.isDirectoryAt location)

/-- The files below a directory, by paths that start with the path of the directory. -/
def walk (t : FileTree) (p : Path) : List Path :=
  match t.locate? p with
  | none => []
  | some place =>
    t.entries.filterMap fun
      | (location, .file _) =>
        if place.isPrefixOf location && place != location then
          some ((location.drop place.length).foldl Path.child p)
        else none
      | _ => none

/-! ## Writing -/

/-- Put an entry at a location, in place of the one that is there. -/
def put (t : FileTree) (place : Location) (entry : Entry) : FileTree :=
  { t with entries := t.entries.filter (·.1 != place) ++ [(place, entry)] }

/-- Make the directories that segments name, from a location; the result is the last of them. A file
in the way is an error. -/
def makeFrom? : FileTree → Location → List String → Option (FileTree × Location)
  | t, place, [] => some (t, place)
  | t, place, segment :: rest =>
    if segment == "" || segment == "." then t.makeFrom? place rest
    else if segment == ".." then t.makeFrom? place.dropLast rest
    else
      let next := place ++ [segment]
      if (t.fileAt? next).isSome then none
      else if t.isDirectoryAt next then t.makeFrom? next rest
      else (t.put next .directory).makeFrom? next rest

/-- Make a directory and all directories on the way to it. -/
def makeDirectories? (t : FileTree) (p : Path) : Option FileTree :=
  (t.makeFrom? (t.start p) p.segments).map Prod.fst

/-- Write a file into a directory that exists. -/
def write? (t : FileTree) (p : Path) (bytes : List UInt8) : Option FileTree := do
  let name ← p.segments.getLast?
  if name == "" || name == "." || name == ".." then none
  else
    let place ← t.follow? (t.start p) p.segments.dropLast
    let location := place ++ [name]
    if t.isDirectoryAt place && !t.isDirectoryAt location then some (t.put location (.file bytes))
    else none

end FileTree

end Softcode
