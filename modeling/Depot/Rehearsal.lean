import Depot.Workspace
import Depot.World

/-!
# Rehearsals

Packages and repositories whose answers are written down in advance, for trying out what a walk does
without a package tool and without version control. Only the making of a checkout changes the world.
-/

namespace Depot.Rehearsal

/-- **The answer for one package.** -/
structure Package where
  /-- The import path of the package. -/
  importPath : String
  /-- What reading it yields. -/
  found : PackageImports

/-- The reader that answers for the first package that lives in the directory asked about, and finds
nothing in any other. -/
def reader {σ : Type} (workspace : Workspace) (packages : List Package) : PackageReader σ where
  read dir s :=
    match packages.find? fun p => (workspace.packageSource p.importPath).same dir with
    | some p => (p.found, s)
    | none => ({}, s)

/-- **The answers of one repository.** -/
structure Repository where
  /-- The root that the repository gives for itself. -/
  root : String
  /-- The import path whose subtree it holds, if that is not its root. -/
  holds : Option String := none
  /-- The revision checked out. -/
  revision : String
  /-- The remote. -/
  remote : String
  /-- The branch checked out, if any. -/
  branch : Option String := none
  /-- Why no revision is told, if so. -/
  revisionFault : Option String := none
  /-- Why no remote is told, if so. -/
  remoteFault : Option String := none
  /-- Why no checkout is made, if so. -/
  createFault : Option String := none
  /-- Why the checkout is not moved, if so. -/
  setFault : Option String := none
  /-- What making the checkout does to the disk, unless it is to make the package's directory. -/
  creates : Option (List Disk.Edit) := none

/-- An answer that a fault takes the place of. -/
def answer {σ α : Type} (fault : Option String) (value : α) : Attempt σ α := fun s =>
  match fault with
  | some message => (.error (.ofMessage message), s)
  | none => (.ok value, s)

/-- What making the checkout does. -/
def Repository.make (r : Repository) (dir : Path) : Attempt World Unit := fun w =>
  match r.createFault with
  | some message => (.error (.ofMessage message), w)
  | none =>
    let (result, w) := w.onDisk fun disk cwd =>
      match r.creates with
      | some edits => disk.editAll cwd edits
      | none => disk.makeDirectories cwd dir
    (result.mapError OsError.fault, w)

/-- The handle on a repository, resolved for the package in a directory. -/
def Repository.checkout (r : Repository) (dir : Path) : Checkout World where
  root := r.root
  create _ := r.make dir
  setRevision _ := answer r.setFault ()
  revision := answer r.revisionFault r.revision
  branch :=
    match r.branch with
    | some branch => answer none branch
    | none => answer (some (r.root ++ " is not on a branch")) ""
  remote := answer r.remoteFault r.remote

/-- The resolver that answers with the first repository that holds an import path. -/
def resolver (workspace : Workspace) (repositories : List Repository) : RepoResolver World where
  resolve importPath _ w :=
    match repositories.find? fun r => ImportPath.contains (r.holds.getD r.root) importPath with
    | some r => (.ok (r.checkout (workspace.packageSource importPath)), w)
    | none => (.error (.ofMessage ("no repository for " ++ importPath)), w)

end Depot.Rehearsal
