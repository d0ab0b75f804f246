import Depot.Git.Index
import Depot.Git.Repository

/-!
# Work trees

To check out a commit is to put its files into the work tree. What was put there before and is not
part of the commit is taken away, with the directories that become empty; what never was part of a
commit stays, unless it is in the way.
-/

namespace Depot.Git

/-- The names of a repository's directory. -/
def repositoryNames : List (List Char) := [".git".toList, "git~1".toList]

/-- Whether the name of an entry may be used in a work tree: it stays in its directory and is not
that of the repository, however that is written. -/
def TreeEntry.isUsable (e : TreeEntry) : Bool :=
  let chars := e.name.toList
  let stem := (chars.takeWhile (· != ':')).reverse.dropWhile fun c => c = '.' || c = ' '
  chars != ['.'] && chars != ['.', '.'] && !chars.contains '/' &&
    !repositoryNames.contains (stem.reverse.map Char.toLower)

namespace WorkTree

/-! ## Changing files -/

/-- Take away a directory that has become empty, and those above it, up to the `bound`th. -/
def prune (d : Disk) : (bound : Nat) → Location → Disk
  | 0, _ => d
  | bound + 1, l =>
    if (d.children l).isEmpty then prune (d.erase l) bound l.dropLast else d

/-- Take away the file at a path below `top`, if there is one. -/
def remove (d : Disk) (top : Location) (path : List String) : Disk :=
  let l := top ++ path
  match d.get? l with
  | none => d
  | some .directory => d
  | some _ => prune (d.erase l) (path.length - 1) l.dropLast

/-- Let there be directories above a path below `top`. What is in their way is taken away. -/
def makeRoom (d : Disk) (top : Location) : List String → Disk
  | [] => d
  | [_] => d
  | name :: rest =>
    let here := top ++ [name]
    let d := match d.get? here with
      | some .directory => d
      | _ => d.put here .directory
    makeRoom d here rest

/-- Put something at a path below `top`, in place of what is there. A directory stays if it is
wanted. -/
def place (d : Disk) (top : Location) (path : List String) (e : Entry) : Disk :=
  let d := makeRoom d top path
  let l := top ++ path
  match e, d.get? l with
  | .directory, some .directory => d
  | e, _ => (d.erase l).put l e

end WorkTree

namespace Repository

/-! ## Checking out -/

/-- **All files of a tree**, in order. -/
def filesOf (r : Repository) (d : Disk) : (bound : Nat) → (above : List String) → Oid →
    Except Trouble (List TrackedFile)
  | 0, _, _ => .error .broken
  | bound + 1, above, oid => do
    match ← r.objectOf d .tree oid with
    | .tree entries => do
      let found ← entries.mapM fun e =>
        if e.kind = .directory then r.filesOf d bound (above ++ [e.name]) e.oid
        else pure [{ path := above ++ [e.name], kind := e.kind, oid := e.oid }]
      return found.flatten
    | _ => throw .broken

/-- Whether all names in a tree may be used in a work tree. -/
def isUsable (files : List TrackedFile) : Bool :=
  files.all fun f => f.path.all fun name =>
    TreeEntry.isUsable { kind := .plain, name, oid := default }

/-- Where the index is. -/
def indexPath : Path := ⟨"index"⟩

/-- The paths that were put into the work tree before: those of the index and of the commit that is
checked out. No index means that nothing was checked out yet. -/
def trackedPaths (r : Repository) (d : Disk) : Except Trouble (List (List String)) :=
  match d.read r.directory indexPath with
  | .error e => if Trouble.ofOs e = .missing then .ok [] else .error .broken
  | .ok content =>
    match Index.read? (Octets.ofBytes content) with
    | none => .error .broken
    | some listed => do
      let current ← match r.head d with
        | .error .missing => pure []
        | .error .broken => throw .broken
        | .ok (_, oid) => do
          match ← r.peel d .tree (chainLimit d) oid (← r.object d oid) with
          | (tree, _) => r.filesOf d (chainLimit d) [] tree
      return listed.map (fun path => (Segments.ofString path)) ++ current.map TrackedFile.path

/-- What to put on disk for a file. -/
def entryOf (r : Repository) (d : Disk) (f : TrackedFile) : Except Trouble Entry :=
  match f.kind with
  | .directory => .ok .directory
  | .submodule => .ok .directory
  | .plain => content (.file · false)
  | .executable => content (.file · true)
  | .link => content fun bytes => .link (Octets.lossyText bytes)
where
  /-- The entry made of the content of the file. -/
  content (make : ByteArray → Entry) : Except Trouble Entry :=
    match r.objectOf d .blob f.oid with
    | .ok (.blob bytes) => .ok (make bytes)
    | .ok _ => .error .broken
    | .error e => .error e

/-- Put files below `top`, until the content of one cannot be had. -/
def placeAll (r : Repository) (top : Location) : List TrackedFile → Disk →
    Except Trouble Unit × Disk
  | [], d => (.ok (), d)
  | f :: files, d =>
    match r.entryOf d f with
    | .error e => (.error e, d)
    | .ok e => r.placeAll top files (WorkTree.place d top f.path e)

/-- **Put the files of a tree into the work tree.** -/
def checkOutTree (r : Repository) (tree : Oid) (d : Disk) : Except Trouble Unit × Disk :=
  match r.workTree with
  | none => (.error .broken, d)
  | some top =>
    match r.trackedPaths d, r.filesOf d (chainLimit d) [] tree with
    | .ok tracked, .ok files =>
      if isUsable files then
        let kept := files.map TrackedFile.path
        let gone := tracked.filter (!kept.contains ·)
        let cleared := gone.foldl (fun d path => WorkTree.remove d top path) d
        match r.placeAll top files cleared with
        | (.error e, d) => (.error e, d)
        | (.ok (), d) =>
          match d.edit r.directory (.file indexPath (Index.write files)) with
          | (.ok (), d) => (.ok (), d)
          | (.error _, d) => (.error .broken, d)
      else (.error .broken, d)
    | .error e, _ => (.error e, d)
    | _, .error e => (.error e, d)

/-- **Check out a commit.** If it is known by a branch, the branch is what is checked out, otherwise
the commit itself is. -/
def checkOut (r : Repository) (c : Commit) (reference : Option String) (d : Disk) :
    Except Trouble Unit × Disk :=
  match r.checkOutTree c.tree d with
  | (.error e, d) => (.error e, d)
  | (.ok (), d) =>
    let target := match reference with
      | some name =>
        if Reference.isBelow Reference.branches name then Target.reference name else .object c.oid
      | none => .object c.oid
    match r.setTarget d Reference.head target with
    | .ok d => (.ok (), d)
    | .error e => (.error e, d)

end Repository

end Depot.Git
