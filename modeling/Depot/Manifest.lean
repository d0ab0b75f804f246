import Depot.Graph
import Depot.ImportPath

/-!
# The manifest

The packages of a graph are held by repositories. A manifest lists the repositories in the order in
which they were found, each with what is checked out and what the pins declare for it. The first
repository of the list whose root contains an import path is the owner of that path.
-/

namespace Depot

/-- **One repository and the packages it holds.** -/
structure Repository where
  /-- The import path of the repository; it contains the paths of all packages held. -/
  root : String
  /-- The revisions on record: the one checked out and those that pins declare. -/
  revisions : StringSet := .empty
  /-- The revision that is checked out. -/
  onDiskRevision : String := ""
  /-- The remotes on record: the one the checkout came from and those that pins declare. -/
  remotes : StringSet := .empty
  /-- The remote that the checkout came from. -/
  onDiskRemote : String := ""
  /-- The packages held. -/
  packages : Graph := .empty
  /-- What is wrong with the record. -/
  error : Option String := none
  deriving DecidableEq

namespace Repository

/-- Whether an import path belongs to the repository. -/
def contains (r : Repository) (path : String) : Bool := ImportPath.contains r.root path

/-- The repository with one more package. -/
def hold (r : Repository) (dep : Dependency) : Repository :=
  { r with packages := r.packages.add dep }

/-- The lines that describe a repository to a reader. -/
def lines (r : Repository) : List String :=
  [r.root ++ ":", "    revision: " ++ r.onDiskRevision] ++
    (if r.revisions.size > 1 then ["    declared revisions: " ++ r.revisions.render] else []) ++
    ["    source: " ++ r.onDiskRemote] ++
    (if r.remotes.size > 1 then ["    declared sources: " ++ r.remotes.render] else []) ++
    ["    packages: " ++ toString r.packages.size] ++
    (match r.error with
    | some e => ["    error: " ++ e]
    | none => [])

end Repository

/-- **Repositories in the order in which they were found.** -/
abbrev Manifest : Type := List Repository

namespace Manifest

/-- The repository that an import path belongs to, the first one if there are several. -/
def owner? (m : Manifest) (path : String) : Option Repository := m.find? (·.contains path)

/-- Change the owner of an import path; nothing if the path has none. -/
def updateOwner? (path : String) (change : Repository → Repository) : Manifest → Option Manifest
  | [] => none
  | r :: rs =>
    if r.contains path then some (change r :: rs)
    else (updateOwner? path change rs).map (r :: ·)

/-- The listing of a manifest for a reader, one repository after another. -/
def render (m : Manifest) : String :=
  String.join ((m.flatMap Repository.lines).map (· ++ "\n"))

end Manifest

end Depot
