import Depot.Fault

/-!
# Errors of the operating system

The ways in which a call on files or processes is refused, with the wording the system gives them.
-/

namespace Depot

/-- **Why the system refused a call.** -/
inductive OsError where
  /-- A file or directory of the path does not exist. -/
  | notFound
  /-- The file may not be used so. -/
  | permissionDenied
  /-- The file is marked executable but is no program. -/
  | notAProgram
  /-- Something of that name is there already. -/
  | alreadyExists
  /-- A segment before the last is no directory. -/
  | notDirectory
  /-- A directory cannot be read as a file. -/
  | isDirectory
  /-- A name, or the whole path, is too long. -/
  | nameTooLong
  /-- Links lead in circles. -/
  | linkLoop
  /-- A path holds a NUL character. -/
  | nulInPath
  /-- A command, its arguments or its environment hold a NUL character. -/
  | nulInCommand
  /-- The content of a text file is not UTF-8. -/
  | notUtf8
  deriving DecidableEq, Repr

namespace OsError

/-- The system's wording. -/
def message : OsError → String
  | notFound => "No such file or directory (os error 2)"
  | notAProgram => "Exec format error (os error 8)"
  | permissionDenied => "Permission denied (os error 13)"
  | alreadyExists => "File exists (os error 17)"
  | notDirectory => "Not a directory (os error 20)"
  | isDirectory => "Is a directory (os error 21)"
  | nameTooLong => "File name too long (os error 36)"
  | linkLoop => "Too many levels of symbolic links (os error 40)"
  | nulInPath => "file name contained an unexpected NUL byte"
  | nulInCommand => "nul byte found in provided data"
  | notUtf8 => "stream did not contain valid UTF-8"

/-- The error as a fault of one message. -/
def fault (e : OsError) : Fault := .ofMessage e.message

end OsError

end Depot
