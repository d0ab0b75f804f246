import Depot.Git.Remote
import Depot.Git.WorkTree

/-!
# Cloning

A clone is a new repository that holds all branches and tags of another one, with the branch checked
out that the other one has checked out. A clone that does not succeed leaves the disk as it was.
-/

namespace Depot.Git

namespace Repository

/-- **Make an empty repository** whose work tree is an existing directory. -/
def create (d : Disk) (top : Location) : Repository × Disk :=
  let l := top ++ [".git"]
  let directories := [[], ["objects"], ["objects", "info"], ["objects", "pack"], ["refs"],
    ["refs", "heads"], ["refs", "tags"]]
  let d := directories.foldl (fun d below => d.put (l ++ below) .directory) d
  let head := Octets.toBytes (Reference.fileOf (.reference Reference.firstBranch))
  let r : Repository := { directory := l, shared := l, workTree := some top, settings := [] }
  (r, d.put (l ++ ["HEAD"]) (.file head false))

/-- Copy everything that another repository has in its directory of objects. -/
def copyStore (r source : Repository) (d : Disk) : Except Trouble Disk :=
  match d.resolve source.shared ⟨"objects"⟩ with
  | .ok (l, .directory) =>
    .ok (d.entries.foldl (fun copied (place, e) =>
      match l.isPrefixOf? place with
      | some (name :: below) => copied.put (r.shared ++ "objects" :: name :: below) e
      | _ => copied) d)
  | .ok _ => .error .broken
  | .error e => .error (.ofOs e)

/-- The settings that every repository is made with. -/
def plainSettings : List Char :=
  Settings.writeSection "core" none [
    ("bare", "false".toList), ("repositoryformatversion", "0".toList),
    ("filemode", "true".toList), ("logallrefupdates", "true".toList)]

/-- The settings that describe a remote. -/
def remoteSettings (name : String) (m : Remote) : List Char :=
  Settings.writeSection "remote" (some name)
    (("url", m.url) :: m.refspecs.map fun s => ("fetch", Octets.ofText s.text))

/-- The settings of a branch that follows one of a remote. -/
def branchSettings (remote reference : String) : List Char :=
  let branch := (Reference.below? Reference.branches reference).getD reference
  Settings.writeSection "branch" (some branch)
    [("remote", Octets.ofText remote), ("merge", Octets.ofText reference)]

/-- **The branch that a remote has checked out**, as far as its offers tell: the one that `HEAD`
stands for, or else a branch with the same commit, the first branch of new repositories if it is
one. -/
def branchOf? (head : Offer) (others : List Offer) : Option String :=
  match head.via with
  | some name => some name
  | none =>
    let same := (others.filter fun o =>
      o.oid == head.oid && Reference.isBelow Reference.branches o.name).map Offer.name
    if same.contains Reference.firstBranch then some Reference.firstBranch else same.head?

/-- **Begin with what a remote has checked out.** Yields the settings to add and the commit to check
out, if there is one. -/
def beginWith (r : Repository) (name : String) (m : Remote) (offers : List Offer) (d : Disk) :
    Except Trouble (List Char × Option Commit × Disk) :=
  match offers with
  | [] => .ok (branchSettings name Reference.firstBranch, none, d)
  | head :: others =>
    if head.name ≠ Reference.head then
      .ok (branchSettings name Reference.firstBranch, none, d)
    else
      match branchOf? head others with
      | none => do
        let c ← r.commitAt d head.oid
        return ([], some c, ← r.setTarget d Reference.head (.object c.oid))
      | some branch =>
        match m.tracking? branch with
        | none => .error .broken
        | some tracking => do
          let d ← r.setTarget d (Reference.remotes ++ name ++ "/" ++ Reference.head)
            (.reference tracking)
          match ← r.objectOf d .commit head.oid with
          | .commit tree parents => do
            let d ← r.setTarget d branch (.object head.oid)
            let d ← r.setTarget d Reference.head (.reference branch)
            return (branchSettings name branch, some { oid := head.oid, tree, parents }, d)
          | _ => throw .broken

end Repository

namespace Clone

/-- Whether a remote is a directory on this machine that is given as a plain path. -/
def isPlain (d : Disk) (cwd : Location) (url : String) : Bool :=
  !"file://".toList.isPrefixOf url.toList && d.isDirectory cwd ⟨url⟩

/-- The address that a clone remembers: a path is seen from the root directory. -/
def remembered (d : Disk) (cwd : Location) (url : String) : String :=
  match d.resolve cwd ⟨url⟩ with
  | .ok (l, .directory) => if (Path.mk url).isAbsolute then url else l.path.text
  | _ => url

/-- The directory for a clone: one that is missing is made, one that is there has to be empty. -/
def directory? (d : Disk) (cwd : Location) (p : Path) : Option (Location × Disk) :=
  if p.text = "" then none
  else
    match d.resolve cwd p with
    | .ok (l, .directory) => if (d.children l).isEmpty then some (l, d) else none
    | .ok _ => none
    | .error _ =>
      match d.makeDirectories cwd p with
      | (.error _, _) => none
      | (.ok (), d) =>
        match d.resolve cwd p with
        | .ok (l, _) => some (l, d)
        | .error _ => none

/-- **Clone a repository.** Yields the clone and the changed disk. -/
def make? (d : Disk) (cwd : Location) (url : String) (p : Path) : Option (Repository × Disk) := do
  if url = "" then none
  let (top, d) ← directory? d cwd p
  let (r, d) := Repository.create d top
  let source ← Remote.reach? d cwd (Octets.ofText url)
  let m : Remote :=
    { url := Octets.ofText (remembered d cwd url), refspecs := [.ofBranches Remote.origin] }
  let done : Except Trouble Disk := do
    let d ← if isPlain d cwd url then r.copyStore source d else pure d
    let (d, offers) ← r.fetchFrom source d m.refspecs [.ofTags]
    let (further, commit, d) ← r.beginWith Remote.origin m offers d
    let settings :=
      Repository.plainSettings ++ Repository.remoteSettings Remote.origin m ++ further
    let d := d.put (r.shared ++ ["config"]) (.file (Octets.toBytes settings) false)
    match commit with
    | none => return d
    | some c =>
      match r.checkOutTree c.tree d with
      | (.ok (), d) => return d
      | (.error e, _) => throw e
  let d ← done.toOption
  return (← Repository.find? d cwd p, d)

/-- What is said where cloning fails, as far as the address is to blame. There has to be room for
the clone before the remote is looked for. -/
def refusal? (d : Disk) (cwd : Location) (url : String) (p : Path) : Option String := do
  let (top, d) ← directory? d cwd p
  Remote.refusal? (Repository.create d top).2 cwd (Octets.ofText url)

end Clone

end Depot.Git
