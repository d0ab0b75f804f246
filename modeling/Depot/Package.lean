import Depot.Fault

/-!
# What reading a package yields

Reading a package directory yields the import paths it depends on and possibly an error. Both are
kept, since a package with a fault in one file may still name imports in the others.

An error is either about the package, reported by the package tool, or about the tool itself. Some
package errors only say that the directory holds no source files to build: such a directory is not
a package at all, which `isNoBuildable` tells by how the message begins.
-/

namespace Depot

/-- **An error that the package tool reports for one package.** -/
structure PackageError where
  /-- The shortest chain of imports that leads to the package. -/
  importStack : List String := []
  /-- Where in the sources the error is. -/
  position : String := ""
  /-- The error itself. -/
  message : String := ""
  deriving DecidableEq, Repr, Inhabited

namespace PackageError

/-- An error of which only the message is known. -/
def ofMessage (message : String) : PackageError := { message }

/-- How messages begin that report a directory without source files to build. Older and newer
releases of the package tool word it differently. -/
def noBuildableBeginnings : List String :=
  ["no buildable Go", "no Go files in", "no non-test Go files in",
    "build constraints exclude all Go files in"]

/-- Whether the error says that the directory is no package. -/
def isNoBuildable (e : PackageError) : Bool :=
  noBuildableBeginnings.any fun beginning => beginning.toList.isPrefixOf e.message.toList

end PackageError

/-- **Why a package could not be read.** -/
inductive ReadError where
  /-- The tool ran and reported a problem with the package. -/
  | package (error : PackageError)
  /-- The tool could not be run, or its output not be understood. -/
  | tool (fault : Fault)
  deriving DecidableEq, Repr

namespace ReadError

/-- The error as a fault: the package's own message, or the tool's whole chain. -/
def fault : ReadError → Fault
  | package error => .ofMessage error.message
  | tool fault => fault

/-- Whether the error says that the directory is no package. Trouble with the tool never does. -/
def isNoBuildable : ReadError → Bool
  | package error => error.isNoBuildable
  | tool _ => false

end ReadError

/-- **What was read from a package directory.** -/
structure PackageImports where
  /-- The import paths the package depends on directly. -/
  imports : List String := []
  /-- What went wrong on the way, if anything did. -/
  error : Option ReadError := none
  deriving DecidableEq, Repr, Inhabited

namespace PackageImports

/-- The imports, provided that nothing went wrong. -/
def toExcept (p : PackageImports) : Except ReadError (List String) :=
  match p.error with
  | some e => .error e
  | none => .ok p.imports

end PackageImports

end Depot
