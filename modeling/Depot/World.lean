import Depot.Disk.Change
import Depot.Surroundings

/-!
# The world

A world is all that running programs can read and change: the disk, the current directory, the
environment variables, and a record of the calls of the package tool. Some files on disk are
programs that the system runs itself; which ones these are, and what they do, is part of the world.
-/

namespace Depot

/-- **How a program ended.** -/
inductive Ending where
  /-- It ended by itself. -/
  | code (code : Nat)
  /-- A signal ended it. -/
  | signal (number : Nat)
  deriving DecidableEq, Repr

/-- The exit code, unless a signal ended the program. -/
def Ending.code? : Ending → Option Nat
  | code n => some n
  | signal _ => none

/-- **What a program leaves behind.** -/
structure Completed where
  /-- How it ended. -/
  ending : Ending
  /-- What it wrote as output. -/
  stdout : ByteArray := .empty
  /-- What it wrote as messages. -/
  stderr : ByteArray := .empty

/-- **Programs that the system runs itself.** -/
inductive Native where
  /-- The shell. -/
  | shell
  /-- Writes its arguments. -/
  | echo
  /-- Writes its arguments in a format. -/
  | printf
  /-- Ends well. -/
  | succeed
  /-- Ends badly. -/
  | fail
  /-- Lists directories. -/
  | listing
  /-- Writes the current directory. -/
  | whereabouts
  /-- Writes files one after another. -/
  | concatenate
  /-- Answers by its last argument with what was prepared for it, and an empty record for any other.
  -/
  | prepared (answers : List (String × Completed))

/-- **A call of a program with prepared answers.** -/
structure Call where
  /-- The environment variables at the call. -/
  environment : List (String × String)
  /-- The current directory. -/
  directory : Location
  /-- The arguments. -/
  arguments : List String

/-- **Everything that programs can read and change.** -/
structure World where
  /-- The disk. -/
  disk : Disk := {}
  /-- The current directory. -/
  cwd : Location := []
  /-- The environment variables. -/
  environment : List (String × String) := []
  /-- The home directory of the account, for when no variable names one. -/
  accountHome : Path := ⟨"/root"⟩
  /-- The files that are programs the system runs itself. -/
  natives : List (Location × Native) := []
  /-- The calls of programs with prepared answers, latest first. -/
  calls : List Call := []

namespace World

/-- The value of an environment variable. -/
def lookupVariable (w : World) (name : String) : Option String := w.environment.lookup name

/-- Set an environment variable. -/
def setVariable (w : World) (name value : String) : World :=
  { w with environment := (name, value) :: w.environment.filter (·.1 != name) }

/-- The home directory: the variable of that name unless it is empty, or else the account's. -/
def home (w : World) : Path :=
  match w.lookupVariable "HOME" with
  | some text => if text = "" then w.accountHome else ⟨text⟩
  | none => w.accountHome

/-- The directories that a variable lists, separated by colons. -/
def splitPaths (text : String) : List String :=
  (text.toList.splitOn ':').map String.ofList

/-- The directories in which programs are looked for. -/
def searchPath (w : World) : List String :=
  splitPaths ((w.lookupVariable "PATH").getD "/bin:/usr/bin")

/-- Whether a path leads to a program. -/
def isProgram (w : World) (p : Path) : Bool :=
  match w.disk.resolve w.cwd p with
  | .ok (_, .file _ executable) => executable
  | _ => false

/-- A path as seen from the current directory, component by component; a leading `.` adds
nothing. -/
def absolute (w : World) (p : Path) : Path :=
  if p.isAbsolute then p
  else
    (p.components.dropWhile (· == .here)).foldl (fun dir c => dir.join c.text) w.cwd.path

/-- **Find a program.** A single name is looked for in the search path, anything else is a path. -/
def findProgram (w : World) (name : String) : Option Path :=
  let candidates : List Path :=
    if (Path.mk name).components.length > 1 then [w.absolute ⟨name⟩]
    else w.searchPath.map fun dir => Path.join ⟨dir⟩ name
  candidates.find? w.isProgram

/-- **The disk of a world, to be read.** -/
def files : Files World where
  kind p w :=
    match w.disk.resolve w.cwd p with
    | .ok (_, .directory) => .ok .directory
    | .ok _ => .ok .file
    | .error e => .error e
  directories p w :=
    match w.disk.resolve w.cwd p with
    | .ok (l, .directory) =>
      .ok ((w.disk.children l).filterMap fun
        | (name, .directory) => some name
        | _ => none)
    | .ok _ => .ok []
    | .error e => .error e

/-- Change the disk of a world. -/
def onDisk {α : Type} (w : World) (change : Disk → Location → α × Disk) : α × World :=
  let (result, disk) := change w.disk w.cwd
  (result, { w with disk })

end World

end Depot
