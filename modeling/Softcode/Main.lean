import Softcode.CommandLine.Run

/-!
# The program

Reads the files that the arguments name into memory, runs the command line on them, writes the
report if one was saved, and prints what there is to print.
-/

namespace Softcode

/-- The spelling of a location. -/
def Location.spelling (location : Location) : String := "/" ++ "/".intercalate location

/-- The names on the way to a path from the current directory; dots are taken by their spelling. -/
def FileTree.target (t : FileTree) (p : Path) : Location :=
  p.segments.foldl (fun location segment =>
    if segment == "" || segment == "." then location
    else if segment == ".." then location.dropLast
    else location ++ [segment]) (t.start p)

/-- The paths that an invocation looks at: those that are searched, and those that are read or
written. -/
def CommandLine.Invocation.paths : CommandLine.Invocation → List Path × List Path
  | .perform _ given =>
    (given.paths, [given.path? .catalogue, given.path? .config, given.path? .output].filterMap id)
  | _ => ([], [])

/-- The system's reason in words. -/
def reasonOf : IO.Error → String
  | .permissionDenied _ code details => s!"{details} (os error {code})"
  | e => toString e

/-- Note that the system refuses what stands at a location. -/
def FileTree.refuse (t : FileTree) (location : Location) (e : IO.Error) : FileTree :=
  { t with refused := t.refused ++ [(location, reasonOf e)] }

/-- Add a file, with its content if the system gives it. -/
def FileTree.addFile (t : FileTree) (location : Location) (content : IO ByteArray) :
    IO FileTree := do
  try return t.put location (.file (← content).toList)
  catch e => return (t.put location (.file [])).refuse location e

/-- Add the files below a directory. Links are not followed, and only scripts are read. -/
partial def FileTree.search (t : FileTree) (location : Location) : IO FileTree := do
  let base ← IO.currentDir
  let mut t := t.put location .directory
  let mut listed := #[]
  try listed ← (base / location.spelling).readDir
  catch e => t := t.refuse location e
  for entry in listed do
    let inner := location ++ [entry.fileName]
    match (← entry.path.symlinkMetadata).type with
    | .dir => t ← t.search inner
    | .file =>
      let wanted := Batch.hasExtension ({ paths := [] } : Batch).extensions ⟨entry.fileName⟩
      t ← t.addFile inner (if wanted then IO.FS.readBinFile entry.path else pure .empty)
    | _ => pure ()
  return t

/-- Add what stands at a location, if anything does. -/
def FileTree.look (t : FileTree) (deep : Bool) (location : Location) : IO FileTree := do
  let base ← IO.currentDir
  let real := base / location.spelling
  if ← real.isDir then if deep then t.search location else return t.put location .directory
  else if ← real.pathExists then t.addFile location (IO.FS.readBinFile real)
  else return t

/-- Add what stands at a path and at every directory on the way to it. -/
def FileTree.visit (t : FileTree) (deep : Bool) (p : Path) : IO FileTree := do
  let target := t.target p
  let mut t := t
  for n in [1:target.length] do
    if !t.isDirectoryAt (target.take n) then t ← t.look false (target.take n)
  if target.isEmpty then return t else t.look deep target

/-- The variable is set to something other than zero. -/
def isSwitchedOn (name : String) : IO Bool := do
  return (← IO.getEnv name).any (· != "0")

/-- Whether to print colours: the environment may force or forbid them, and otherwise they are for
terminals. -/
def showsColours : IO Bool := do
  if ← isSwitchedOn "CLICOLOR_FORCE" then return true
  else if (← IO.getEnv "NO_COLOR").isSome then return false
  else if (← IO.getEnv "CLICOLOR").any (· == "0") then return false
  else (← IO.getStdout).isTty

end Softcode

open Softcode in
/-- The program. -/
def main (args : List String) : IO UInt32 := do
  let here : Path := ⟨(← IO.currentDir).toString⟩
  let invocation := CommandLine.Invocation.ofArguments args
  let (searched, used) := invocation.paths
  let mut files : FileTree := {}
  files := { files with current := files.target here }
  files ← files.visit false here
  for path in searched do files ← files.visit true path
  for path in used do files ← files.visit false path
  let outcome := invocation.run (← showsColours) files
  if let some (path, text) := outcome.saved then
    let base ← IO.currentDir
    IO.FS.createDirAll (base / path.parent.spelling)
    IO.FS.writeFile (base / path.spelling) text
  IO.print outcome.printed
  if let some message := outcome.error then IO.eprintln s!"Error: {message}"
  return UInt32.ofNat outcome.exit
