import Softcode.Analysis
import Softcode.Files.Tree
import Softcode.Report.Format

/-!
# Runs over many files

Files named directly are always analysed; directories are searched for files by extension. Every
file is analysed once, and the report lists the files with most syntax errors first. A file that
cannot be read is reported with the reason; a directory whose names are refused ends the run, and so
does a path that leads nowhere.
-/

namespace Softcode

/-- What a run looks at. -/
structure Batch where
  /-- files and directories -/
  paths : List Path
  dialectId : Option String := none
  options : Options := {}
  /-- extensions of the files that are picked up in directories -/
  extensions : List String := ["mush", "mu", "msh", "softcode", "txt"]
  deriving Repr

/-- Why the files of a run are not found: a path leads nowhere, or a directory is not listed. -/
inductive SearchError where
  | missing (path : Path)
  | unlisted (path : Path)
  deriving DecidableEq, Repr

/-- A search error in words. -/
def SearchError.message : SearchError → String
  | missing path => s!"Path does not exist: {path.spelling}"
  | unlisted path => s!"walking directory {path.spelling}"

namespace Batch

/-- The extension of a path is one of these, in any case of ASCII letters. -/
def hasExtension (extensions : List String) (path : Path) : Bool :=
  path.extension?.any fun found => extensions.any (Text.sameName · found)

/-- The files that one path stands for. -/
def expand (extensions : List String) (files : FileTree) (path : Path) :
    Except SearchError (List Path) :=
  if files.isFile path then .ok [path]
  else if files.isDirectory path then
    if files.isListed path then .ok ((files.walk path).filter (hasExtension extensions))
    else .error (.unlisted path)
  else .error (.missing path)

/-- Drop the paths that are equal to the one before them, the first of which is `last`. -/
def dropRepeats (last : Path) : List Path → List Path
  | [] => []
  | p :: rest => if last.same p then dropRepeats last rest else p :: dropRepeats p rest

/-- Paths in order, each of them once. -/
def arrange (paths : List Path) : List Path :=
  match paths.mergeSort fun p q => (p.order q).isLE with
  | [] => []
  | p :: rest => p :: dropRepeats p rest

/-- The files of a run. -/
def discover (b : Batch) (files : FileTree) : Except SearchError (List Path) := do
  let found ← b.paths.mapM (expand b.extensions files)
  return arrange found.flatten

/-- The text of a script. -/
def script (files : FileTree) (path : Path) : Except String String :=
  match files.read? path with
  | none => .error s!"reading {path.spelling}: {files.refusal path}"
  | some bytes =>
    match Text.decode? bytes with
    | none => .error s!"{path.spelling} is neither UTF-8 nor Windows-1252 text"
    | some text => .ok (String.ofList text)

/-- Analyse one file. -/
def analyzeFile (b : Batch) (read : Pattern.Reader) (catalogue : Catalogue) (settings : Settings)
    (files : FileTree) (path : Path) : FileReport :=
  match script files path with
  | .error reason => { path, error := some reason }
  | .ok text =>
    let request : Request := { text, dialectId := b.dialectId, options := b.options }
    match request.analyze read catalogue settings with
    | .error failure => { path, error := some s!"rejected {path.spelling}: {failure.message}" }
    | .ok result => { path, result := some result }

/-- The order of a report: more errors first, then by path. -/
def precedes (a b : FileReport) : Bool :=
  ((compare b.errorCount a.errorCount).then (a.path.order b.path)).isLE

/-- Run a batch. -/
def run (b : Batch) (read : Pattern.Reader) (catalogue : Catalogue) (settings : Settings)
    (files : FileTree) : Except SearchError Report := do
  let paths ← b.discover files
  let results := paths.map (b.analyzeFile read catalogue settings files)
  return Report.ofResults (results.mergeSort precedes)

end Batch

/-- Why a report was not saved. -/
inductive SaveError where
  | directory (path : Path)
  | file (path : Path)
  deriving DecidableEq, Repr

/-- A save error in words. -/
def SaveError.message : SaveError → String
  | directory path => s!"creating report directory {path.spelling}"
  | file path => s!"writing report {path.spelling}"

/-- Write a text to a file and make the directories on the way to it. -/
def FileTree.save (files : FileTree) (path : Path) (content : String) : Except SaveError FileTree :=
  match files.makeDirectories? path.parent with
  | none => .error (.directory path.parent)
  | some files =>
    match files.write? path (Text.utf8Bytes content.toList) with
    | none => .error (.file path)
    | some files => .ok files

end Softcode
