import Depot.Path
import Depot.StringSet

/-!
# Dependency records

What is known of one package: its import path, the packages it imports, the packages that import
it, and why it could not be read, if it could not. Two records of one import path merge into one:
edges are united, and the error that was there first stays.
-/

namespace Depot

/-- **Why a package is on record without having been read.** Such an error never ends a walk. -/
inductive DependencyError where
  /-- The directory has no import path. -/
  | importPath (path : Path) (reason : String)
  /-- There is nothing at the path. -/
  | notFound (path : Path)
  /-- There is a file at the path. -/
  | notADirectory (path : Path)
  /-- The system does not say what is at the path. -/
  | stat (path : Path) (reason : String)
  /-- The package tool failed on the package. -/
  | read (package reason : String)
  deriving DecidableEq, Repr

/-- The wording of the error. -/
def DependencyError.message : DependencyError → String
  | importPath path reason => "cant determine import path for " ++ path.text ++ ": " ++ reason
  | notFound path => "cant save deps for path " ++ path.text ++ " could not be found on disk"
  | notADirectory path =>
    "cant save deps for path " ++ path.text ++ " is a file not a directory"
  | stat path reason => "cant save deps for path " ++ path.text ++ " due to " ++ reason
  | read package reason => "cant read deps for package " ++ package ++ ": " ++ reason

/-- **One package on record.** -/
structure Dependency where
  /-- The import path of the package. -/
  importPath : String
  /-- The packages it imports directly. -/
  imports : StringSet := .empty
  /-- The packages that import it directly. -/
  importedFrom : StringSet := .empty
  /-- Why it could not be read. -/
  error : Option DependencyError := none
  deriving DecidableEq

namespace Dependency

/-- **The record with what another record of the same import path adds**: further edges, and an
error if there is none yet. -/
def merge (old new : Dependency) : Dependency where
  importPath := old.importPath
  imports := old.imports.union new.imports
  importedFrom := old.importedFrom.union new.importedFrom
  error := old.error <|> new.error

@[simp] theorem importPath_merge (old new : Dependency) :
    (old.merge new).importPath = old.importPath := rfl

@[simp] theorem imports_merge (old new : Dependency) :
    (old.merge new).imports = old.imports.union new.imports := rfl

@[simp] theorem importedFrom_merge (old new : Dependency) :
    (old.merge new).importedFrom = old.importedFrom.union new.importedFrom := rfl

@[simp] theorem error_merge (old new : Dependency) :
    (old.merge new).error = (old.error <|> new.error) := rfl

end Dependency

end Depot
