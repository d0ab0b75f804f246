import Depot.CommandLine.Places
import Depot.Disk.Difference

/-!
# The program

Reads what a run may need into a world, runs the command line there, prints its report and makes the
changes on disk that the world went through.
-/

open Depot

/-! ## Reading the disk -/

/-- The location of an absolute path. -/
def locationOf (text : String) : Location := (Segments.ofString text).filter (· != "")

/-- Read what is at a location; if `deep`, also everything below a directory. What links lead to is
read unless it has been. -/
partial def readAt (deep : Bool) (d : Disk) (l : Location) : IO Disk := do
  let text := l.path.text
  let place ← IO.FS.realPath text
  let above ← IO.FS.realPath (Location.path l.dropLast).text
  let isLink := l != [] && locationOf place.toString != locationOf above.toString ++ [l.getLastD ""]
  if isLink then
    let target := locationOf place.toString
    let d := d.put l (.link target.path.text)
    if (d.get? target).isSome then return d else readAt deep d target
  else if ← place.isDir then
    let mut d := if l = [] then d else d.put l .directory
    if deep then
      for e in ← place.readDir do
        d ← tryCatch (readAt true d (l ++ [e.fileName])) fun _ => pure d
    return d
  else if ← place.pathExists then
    return d.put l (.file (← IO.FS.readBinFile text) false)
  else return d

/-- Read a path and the directories that lead to it. What cannot be read is not there. -/
def readAlong (deep : Bool) (d : Disk) (l : Location) : IO Disk := do
  let mut d := d
  for n in List.range l.length do
    let way := l.take (n + 1)
    d ← tryCatch (readAt (deep && way == l) d way) fun _ => pure d
  return d

/-- Read several paths, as seen from the current directory. -/
def readPlaces (deep : Bool) (w : World) (places : List Path) : IO World := do
  let mut d := w.disk
  for p in places do
    d ← readAlong deep d (locationOf (w.absolute p).text)
  return { w with disk := d }

/-! ## Changing the disk -/

/-- Put an entry on disk. A link becomes a file that holds its target. -/
def putEntry (l : Location) : Entry → IO Unit
  | .directory => IO.FS.createDirAll l.path.text
  | .link target => IO.FS.writeFile l.path.text target
  | .file content executable => do
    IO.FS.writeBinFile l.path.text content
    if executable then
      IO.setAccessRights l.path.text ⟨⟨true, true, true⟩, ⟨true, false, true⟩, ⟨true, false, true⟩⟩

/-- Make the changes on disk that lead from one state to another. -/
def applyChanges (before after : Disk) : IO Unit := do
  for l in before.vacated after do
    tryCatch (IO.FS.removeDirAll l.path.text) fun _ =>
      tryCatch (IO.FS.removeFile l.path.text) fun _ => pure ()
  for (l, e) in before.filled after do
    putEntry l e

/-! ## Running -/

/-- The environment variables that matter. -/
def variableNames : List String := ["HOME", "PATH", "GOPATH", CommandLine.workspaceVariable]

/-- The world that the program starts in. -/
def startingWorld (arguments : List String) : IO World := do
  let cwd := locationOf (← IO.FS.realPath (← IO.currentDir)).toString
  let mut environment := []
  for name in variableNames do
    match ← IO.getEnv name with
    | some value => environment := (name, value) :: environment
    | none => pure ()
  let w := World.withStandardPrograms { cwd, environment }
  let tools := CommandLine.toolPlaces w
  let w ← readPlaces false w (w.cwd.path :: CommandLine.settingsPlaces w ++ tools)
  let d := tools.foldl (fun d p => ((d.makeExecutable w.cwd p).toOption).getD d) w.disk
  let w := { w with disk := d }
  match CommandLine.project? arguments w with
  | none => return w
  | some p =>
    let w ← readPlaces true w (CommandLine.treePlaces p)
    readPlaces true w (CommandLine.remotePlaces p w)

/-- Run the program. -/
def main (arguments : List String) : IO UInt32 := do
  let before ← startingWorld arguments
  let (report, after) := CommandLine.run arguments before
  applyChanges before.disk after.disk
  IO.print report.output
  IO.eprint report.messages
  return report.code.toUInt32
