import Depot.Git.Clone
import Depot.Git.Host
import Depot.Git.Revision
import Depot.Surroundings
import Depot.Workspace
import Depot.World

/-!
# Work copies

A work copy is a repository in a workspace, fetched from a remote. It is made by cloning; a revision
that is not known yet is fetched first. The resolver finds the work copy that holds a package: the
nearest directory with a repository above a package that is there, and otherwise the one that a pin
or a well-known host says.
-/

namespace Depot.Git

/-- **A work copy**, which need not exist yet. -/
structure WorkCopy where
  /-- The root import path of the repository. -/
  root : String
  /-- The directory of the work tree. -/
  path : Path
  /-- Where to clone it from. -/
  remote : Option String := none
  deriving DecidableEq, Repr

namespace WorkCopy

/-- The repository of the work copy. -/
def repository (c : WorkCopy) (w : World) : Except Fault Repository :=
  match Repository.find? w.disk w.cwd c.path with
  | some r => .ok r
  | none =>
    let cause := Fault.beginning (Repository.refusal? w.disk w.cwd c.path)
    .error (cause.within ("failed to open git repository: " ++ c.path.text))

/-- The fault of a work copy that was fetched from nowhere. -/
def noOrigin (c : WorkCopy) : Fault :=
  .ofMessage ("no `" ++ Remote.origin ++ "` remote in " ++ c.path.text)

/-- The remote that the work copy was fetched from. -/
def originOf (c : WorkCopy) (r : Repository) : Except Fault Remote :=
  match r.settings.remote? Remote.origin with
  | some m => .ok m
  | none => .error c.noOrigin

/-- **Check out a revision**: one that is known, or one of the remote. -/
def checkOut (r : Repository) (revision : String) (w : World) : Except Fault Unit × World :=
  let found := (Revision.lookup r w.disk revision).tryCatch fun _ =>
    Revision.lookup r w.disk (Remote.origin ++ "/" ++ revision)
  match found with
  | .error _ => (.error (.ofMessage ("unknown revision `" ++ revision ++ "`")), w)
  | .ok (reference, oid, o) =>
    match r.commitOf w.disk oid o with
    | .error _ => (.error .foreign, w)
    | .ok c =>
      let (done, disk) := r.checkOut c reference w.disk
      (done.mapError fun _ => .foreign, { w with disk })

/-- **Make the work copy by cloning**, and check out a revision if one is given. -/
def create (c : WorkCopy) (revision : Option String) : Attempt World Unit := fun w =>
  match c.remote with
  | none => (.error (.ofMessage ("no remote source known for " ++ c.root)), w)
  | some remote =>
    let (ready, w) := match c.path.parent? with
      | some above => w.onDisk fun d cwd => d.ensureDirectory cwd above
      | none => (.ok (), w)
    match ready with
    | .error e => (.error e, w)
    | .ok () =>
      match Clone.make? w.disk w.cwd remote c.path with
      | none =>
        let cause := Fault.beginning (Clone.refusal? w.disk w.cwd remote c.path)
        (.error (cause.within ("failed to clone " ++ remote)), w)
      | some (r, disk) =>
        match revision with
        | none => (.ok (), { w with disk })
        | some revision => checkOut r revision { w with disk }

/-- Fetch from the remote. -/
def fetch (c : WorkCopy) (r : Repository) (w : World) : Except Fault Unit × World :=
  match c.originOf r with
  | .error e => (.error e, w)
  | .ok m =>
    match r.fetch w.disk w.cwd m with
    | .error _ =>
      let cause := Fault.beginning (Remote.refusal? w.disk w.cwd m.url)
      (.error (cause.within ("failed to fetch " ++ c.root)), w)
    | .ok disk => (.ok (), { w with disk })

/-- **Move the work copy to a revision**, which is fetched if it is not known yet. -/
def setRevision (c : WorkCopy) (revision : String) : Attempt World Unit := fun w =>
  match c.repository w with
  | .error e => (.error e, w)
  | .ok r =>
    match checkOut r revision w with
    | (.ok (), w) => (.ok (), w)
    | (.error _, w) =>
      match c.fetch r w with
      | (.error e, w) => (.error e, w)
      | (.ok (), w) =>
        let (done, w) := checkOut r revision w
        (done.mapError (·.within ("failed to set " ++ c.root ++ " to revision " ++ revision)), w)

/-- **The commit that is checked out.** -/
def revision (c : WorkCopy) : Attempt World String := fun w =>
  let found := do
    let r ← c.repository w
    match r.headCommit w.disk with
    | .ok commit => return commit.oid.digits
    | .error _ => throw (.ofMessage ("no HEAD commit in " ++ c.path.text))
  (found, w)

/-- **The branch that is checked out.** -/
def branch (c : WorkCopy) : Attempt World String := fun w =>
  let found := do
    let r ← c.repository w
    match r.head w.disk with
    | .error _ => throw .foreign
    | .ok (name, _) =>
      match Reference.below? Reference.branches name with
      | some branch => return branch
      | none => throw (.ofMessage ("HEAD is detached in " ++ c.path.text))
  (found, w)

/-- **Where the work copy was fetched from.** -/
def source (c : WorkCopy) : Attempt World String := fun w =>
  let found := do
    let r ← c.repository w
    let m ← c.originOf r
    match Octets.text? m.url with
    | some url => return url
    | none => throw (.ofMessage ("remote url is not valid utf-8 in " ++ c.path.text))
  (found, w)

/-- **The work copy as a handle.** -/
def handle (c : WorkCopy) : Checkout World where
  root := c.root
  create := c.create
  setRevision := c.setRevision
  revision := c.revision
  branch := c.branch
  remote := c.source

/-! ## Finding work copies -/

/-- **The nearest repository above a package**, below the workspace's source directory. -/
def enclosing? (workspace : Workspace) (importPath : String) (w : World) : Option WorkCopy :=
  let isInside (dir : Path) : Bool :=
    (dir.below? workspace.srcDir).isSome && !dir.same workspace.srcDir
  let found := ((workspace.packageSource importPath).ancestors.takeWhile isInside).find? fun dir =>
    w.disk.exists? w.cwd (dir.join ".git")
  match found with
  | none => none
  | some dir =>
    match workspace.packageName dir with
    | .ok root => some { root, path := dir }
    | .error _ => none

/-- **The work copy that holds a package.** A package that is there has to be in one; for any other,
its pin and the well-known hosts say where it would be and where to clone it from. -/
def holding (workspace : Workspace) (importPath : String) (pin : Option Pin) (w : World) :
    Except Fault WorkCopy :=
  let source := pin.bind Pin.source
  if w.disk.exists? w.cwd (workspace.packageSource importPath) then
    match enclosing? workspace importPath w with
    | some c => .ok { c with remote := source }
    | none => .error (.ofMessage ("no version control found for " ++ importPath))
  else
    let guess := Host.guess? importPath
    match (pin.map Pin.root).orElse fun _ => guess.map Host.Guess.root with
    | none =>
      .error (.ofMessage
        ("cant determine repository for " ++ importPath ++ ", declare a source for it"))
    | some root =>
      match source.orElse fun _ => guess.map Host.Guess.remote with
      | none => .error (.ofMessage ("no remote source known for " ++ importPath))
      | some remote => .ok { root, path := workspace.packageSource root, remote := some remote }

/-- **Finding work copies in a workspace.** -/
def resolver (workspace : Workspace) : RepoResolver World where
  resolve importPath pin w := ((holding workspace importPath pin w).map handle, w)

end WorkCopy

end Depot.Git
