import Depot.ImportPath
import Depot.Json.Reader
import Depot.Package
import Depot.StringSet

/-!
# What the package tool lists

The package tool describes a package as a JSON record, of which the fields below matter here. Fields
that are not given are empty.
-/

namespace Depot

/-- **Read a package error** from the tool's record of it. -/
def PackageError.ofJson? (j : Json) : Option PackageError := do
  let [stack, position, message] ← j.fields? ["ImportStack", "Pos", "Err"] | none
  return {
    importStack := ← Json.fieldOr [] Json.texts? stack
    position := ← Json.fieldOr "" Json.text? position
    message := ← Json.fieldOr "" Json.text? message }

/-- **The tool's description of a package.** -/
structure ListedPackage where
  /-- The directory of the package. -/
  directory : String := ""
  /-- Its import path. -/
  importPath : String := ""
  /-- The name it gives itself. -/
  name : String := ""
  /-- The import paths used in its sources. -/
  imports : List String := []
  /-- Those used in its test files. -/
  testImports : List String := []
  /-- Those used in the test files that are packages of their own. -/
  externalTestImports : List String := []
  /-- What is wrong with the package. -/
  error : Option PackageError := none
  deriving DecidableEq, Repr

namespace ListedPackage

/-- The names of the fields, in order. -/
def fieldNames : List String :=
  ["Dir", "ImportPath", "Name", "Imports", "TestImports", "XTestImports", "Error"]

/-- An error that may be null. -/
def error? : Json → Option (Option PackageError)
  | .null => some none
  | j => (PackageError.ofJson? j).map some

/-- **Read a description.** -/
def ofJson? (j : Json) : Option ListedPackage := do
  let [directory, importPath, name, imports, tests, externals, error] ← j.fields? fieldNames | none
  return {
    directory := ← Json.fieldOr "" Json.text? directory
    importPath := ← Json.fieldOr "" Json.text? importPath
    name := ← Json.fieldOr "" Json.text? name
    imports := ← Json.fieldOr [] Json.texts? imports
    testImports := ← Json.fieldOr [] Json.texts? tests
    externalTestImports := ← Json.fieldOr [] Json.texts? externals
    error := ← Json.fieldOr none error? error }

/-- **The imports that are packages of other repositories**, in order and without repetition; those
of test files only if `tests` says so. -/
def remoteImports (p : ListedPackage) (tests : Bool) : List String :=
  let listed := if tests then p.imports ++ p.testImports ++ p.externalTestImports else p.imports
  (StringSet.ofList (listed.filter ImportPath.isRemote)).toList

end ListedPackage

end Depot
