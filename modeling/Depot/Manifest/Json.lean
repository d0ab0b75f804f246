import Depot.Manifest
import Depot.StringSet.Json

/-!
# The manifest in JSON

The manifest as an array of repositories, for other programs to read. An error is the last member of
a record and left out where there is none.
-/

namespace Depot

/-- The member that tells an error, if there is one. -/
def errorField : Option String → List (String × Json)
  | some message => [("err", .ofString message)]
  | none => []

/-- A dependency as a record. -/
def Dependency.json (dep : Dependency) : Json :=
  .ofFields ([("import_path", .ofString dep.importPath), ("imports", dep.imports.json),
    ("imported_from", dep.importedFrom.json)] ++ errorField (dep.error.map (·.message)))

/-- A graph as a record of its dependencies by import path. -/
def Graph.json (graph : Graph) : Json :=
  .ofFields (graph.records.map fun dep => (dep.importPath, dep.json))

/-- A repository as a record. -/
def Repository.json (r : Repository) : Json :=
  .ofFields ([("root", .ofString r.root), ("revisions", r.revisions.json),
    ("on_disk_revision", .ofString r.onDiskRevision), ("sources", r.remotes.json),
    ("on_disk_source", .ofString r.onDiskRemote), ("deps", r.packages.json)] ++
    errorField r.error)

/-- The manifest as an array. -/
def Manifest.json (m : Manifest) : Json := .array (m.map Repository.json)

end Depot
