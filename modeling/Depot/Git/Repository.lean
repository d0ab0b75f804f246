import Depot.Disk.Change
import Depot.Git.Reference
import Depot.Git.Settings

/-!
# Repositories

A repository is a directory of objects, references and settings, most often the directory `.git` of
the work tree that belongs to it. This module finds repositories on disk and reads them.

What cannot be had is either missing or broken. The difference matters: a reference that is missing
may be looked for elsewhere, one that is broken may not.
-/

namespace Depot.Git

/-- **Why something in a repository could not be had.** -/
inductive Trouble where
  /-- It is not there. -/
  | missing
  /-- It is there, or may be, but cannot be used. -/
  | broken
  deriving DecidableEq, Repr

/-- The trouble that a refusal of the system means. -/
def Trouble.ofOs : OsError → Trouble
  | .notFound => missing
  | .notDirectory => missing
  | .isDirectory => missing
  | _ => broken

/-- **A repository on disk.** Several work trees may share one: each has a directory of its own, for
what is checked out there, and all have one in common. -/
structure Repository where
  /-- The directory of the work tree's own files. -/
  directory : Location
  /-- The directory of everything that work trees share. -/
  shared : Location
  /-- The directory in which files are checked out, unless the repository is bare. -/
  workTree : Option Location
  /-- Its settings. -/
  settings : Settings
  deriving Repr

namespace Repository

/-! ## Finding -/

/-- The directory that the files of a directory are shared with: the one that a file there names, or
the directory itself. -/
def sharedWith? (d : Disk) (l : Location) : Option Location :=
  match d.resolve l ⟨"commondir"⟩ with
  | .ok (_, .file content _) =>
    let name := Octets.text? (Reference.trimEnd (Octets.ofBytes content))
    match name.map fun p => d.resolve l ⟨p⟩ with
    | some (.ok (shared, .directory)) => some shared
    | _ => none
  | _ => some l

/-- Whether a directory, which shares files with another, is that of a repository. -/
def isDirectoryOf (d : Disk) (l shared : Location) : Bool :=
  d.isFile l ⟨"HEAD"⟩ && d.isDirectory shared ⟨"objects"⟩ && d.isDirectory shared ⟨"refs"⟩

/-- The settings of the repository in a directory; no file means none. -/
def settingsOf? (d : Disk) (l : Location) : Option Settings :=
  match d.read l ⟨"config"⟩ with
  | .ok content => Settings.read? (Octets.ofBytes content)
  | .error e => if Trouble.ofOs e = .missing then some [] else none

/-- Whether settings are of a version that can be read. -/
def isReadable (s : Settings) : Bool :=
  match s.text? "core.repositoryformatversion" with
  | none => true
  | some value =>
    match (Settings.textOf value).toNat? with
    | some version => version ≤ 1
    | none => false

/-- The repository in two directories, with the work tree that it has unless it is bare. -/
def read? (d : Disk) (directory shared workTree : Location) : Option Repository := do
  let settings ← settingsOf? d shared
  if !isReadable settings then none
  let bare ← match settings.last? "core.bare" with
    | none => some false
    | some value => Settings.isTrue? value
  return { directory, shared, workTree := if bare then none else some workTree, settings }

/-- The directory that a file named `.git` points to. -/
def pointedTo? (d : Disk) (workTree : Location) (content : ByteArray) : Option Location := do
  let rest ← Object.after? "gitdir:" (Reference.trimEnd (Octets.ofBytes content))
  let target ← Octets.text? (rest.dropWhile Object.isBlank)
  match d.resolve workTree ⟨target⟩ with
  | .ok (l, .directory) => some l
  | _ => none

/-- What there may be at a place where a repository is looked for. -/
inductive Candidate where
  /-- A repository, if it can be read. -/
  | found (r : Option Repository)
  /-- A directory that is none. -/
  | unfit

/-- Look for a repository in a directory. -/
def candidate (d : Disk) (l workTree : Location) : Candidate :=
  match sharedWith? d l with
  | none => .found none
  | some shared => if isDirectoryOf d l shared then .found (read? d l shared workTree) else .unfit

/-- **The repository at a path**: the one in the directory `.git` there, the one that a file of that
name points to, or the path itself. -/
def find? (d : Disk) (cwd : Location) (p : Path) : Option Repository :=
  match d.resolve cwd p with
  | .error _ => none
  | .ok (here, _) =>
    let inner := match d.resolve here ⟨".git"⟩ with
      | .ok (l, .directory) => candidate d l here
      | .ok (_, .file content _) =>
        match (pointedTo? d here content).map fun l => candidate d l here with
        | some (.found r) => .found r
        | _ => .found none
      | _ => .unfit
    match inner with
    | .found r => r
    | .unfit =>
      match candidate d here here.dropLast with
      | .found r => r
      | .unfit => none

/-- **What is said where no repository is found**, as far as the path is to blame: it cannot be
followed. What is said of the directory it leads to is not known. -/
def refusal? (d : Disk) (cwd : Location) (p : Path) : Option String :=
  match d.resolve cwd p with
  | .ok _ => none
  | .error .nulInPath => some "data contained a nul byte that could not be represented as a string"
  | .error _ => some ("failed to resolve path '" ++ p.text ++ "'")

/-! ## Objects -/

/-- Where an object is kept. -/
def objectPath (oid : Oid) : Path :=
  let digits := oid.digits.toList
  ⟨"objects/" ++ String.ofList (digits.take 2) ++ "/" ++ String.ofList (digits.drop 2)⟩

/-- Whether there is an object of a name. -/
def has (r : Repository) (d : Disk) (oid : Oid) : Bool := d.isFile r.shared (objectPath oid)

/-- **The object of a name.** -/
def object (r : Repository) (d : Disk) (oid : Oid) : Except Trouble Object :=
  match d.read r.shared (objectPath oid) with
  | .error e => .error (.ofOs e)
  | .ok stored => ((Object.ofStored? oid stored).map Except.ok).getD (.error .broken)

/-- The object of a name, which must be of a kind. -/
def objectOf (r : Repository) (d : Disk) (kind : Kind) (oid : Oid) : Except Trouble Object := do
  let o ← r.object d oid
  if o.kind = kind then return o else throw .missing

/-- The names of the objects kept under two digits. -/
def shelf (r : Repository) (d : Disk) (digits : String) : List Oid :=
  match d.resolve r.shared ⟨"objects/" ++ digits⟩ with
  | .ok (l, .directory) =>
    (d.children l).filterMap fun (name, e) =>
      match e with
      | Entry.directory => none
      | _ => Oid.ofDigits? (digits ++ name).toList
  | _ => []

/-- How few digits a shortened name may have. -/
def leastDigits : Nat := 4

/-- **The one object whose name begins with some digits.** -/
def abbreviated (r : Repository) (d : Disk) (chars : List Char) : Except Trouble Oid :=
  match Oid.lowerDigits? chars with
  | none => .error .missing
  | some digits =>
    if digits.length > Oid.width then .error .missing
    else if digits.length < leastDigits then .error .broken
    else
      let oids := r.shelf d (String.ofList (digits.take 2))
      match oids.filter fun oid => digits.isPrefixOf oid.digits.toList with
      | [] => .error .missing
      | [oid] => .ok oid
      | _ => .error .broken

/-- How many steps a chain of objects on a disk can have. -/
def chainLimit (d : Disk) : Nat := d.entries.length + 1

/-- **Follow an object to one of a kind**: a tag to what it names, a commit to its tree. -/
def peel (r : Repository) (d : Disk) (wanted : Kind) : (bound : Nat) → Oid → Object →
    Except Trouble (Oid × Object)
  | 0, _, _ => .error .broken
  | bound + 1, oid, o =>
    if o.kind = wanted then .ok (oid, o)
    else
      match o with
      | .commit tree _ =>
        if wanted = .tree then (r.objectOf d .tree tree).map fun o => (tree, o)
        else .error .broken
      | .tag kind target => (r.objectOf d kind target).bind (r.peel d wanted bound target)
      | _ => .error .broken

/-- Follow an object that may be a tag to one that is none. -/
def peelTags (r : Repository) (d : Disk) : (bound : Nat) → Oid → Object →
    Except Trouble (Oid × Object)
  | 0, _, _ => .error .broken
  | bound + 1, oid, o =>
    match o with
    | .tag kind target => (r.objectOf d kind target).bind (r.peelTags d bound target)
    | _ => .ok (oid, o)

/-- **A commit**: its name, its tree and the commits it came from. -/
structure Commit where
  /-- The name of the commit. -/
  oid : Oid
  /-- The tree. -/
  tree : Oid
  /-- The commits it came from, the main one first. -/
  parents : List Oid
  deriving DecidableEq, Repr

/-- The commit that an object stands for. -/
def commitOf (r : Repository) (d : Disk) (oid : Oid) (o : Object) : Except Trouble Commit :=
  match r.peel d .commit (chainLimit d) oid o with
  | .ok (oid, .commit tree parents) => .ok { oid, tree, parents }
  | .ok _ => .error .broken
  | .error e => .error e

/-- The commit that the object of a name stands for. -/
def commitAt (r : Repository) (d : Disk) (oid : Oid) : Except Trouble Commit :=
  (r.object d oid).bind (r.commitOf d oid)

/-! ## References -/

/-- The packed references. -/
def packed (r : Repository) (d : Disk) : Except Trouble (List (String × Oid)) :=
  match d.read r.shared ⟨"packed-refs"⟩ with
  | .error e => if Trouble.ofOs e = .missing then .ok [] else .error .broken
  | .ok content =>
    ((Reference.packed? (Octets.ofBytes content)).map Except.ok).getD (.error .broken)

/-- The directory of a reference's file: names outside `refs` belong to one work tree. -/
def homeOf (r : Repository) (name : String) : Location :=
  if Reference.isBelow "refs/" name then r.shared else r.directory

/-- What the file of a reference says. -/
def loose (r : Repository) (d : Disk) (name : String) : Except Trouble Target :=
  match d.read (r.homeOf name) ⟨name⟩ with
  | .error e => .error (.ofOs e)
  | .ok content =>
    ((Reference.ofFile? (Octets.ofBytes content)).map Except.ok).getD (.error .broken)

/-- **What a reference stands for.** Its own file counts before the packed references. -/
def target (r : Repository) (d : Disk) (name : String) : Except Trouble Target :=
  match r.loose d name with
  | .error .missing => do
    match (← r.packed d).reverse.lookup name with
    | some oid => return .object oid
    | none => throw .missing
  | outcome => outcome

/-- How many references may lead from one to the next. -/
def referenceLimit : Nat := 5

/-- Follow a reference that stands for others, at most `links` times. -/
def follow (r : Repository) (d : Disk) : (links : Nat) → String → Except Trouble (String × Oid)
  | links, name => do
    match ← r.target d name with
    | .object oid => return (name, oid)
    | .reference next =>
      match links with
      | 0 => throw .broken
      | links + 1 => r.follow d links next

/-- **The reference that a name leads to**, and the object it stands for. -/
def resolve (r : Repository) (d : Disk) (name : String) : Except Trouble (String × Oid) :=
  if Reference.isName name then r.follow d referenceLimit name else .error .broken

/-- **What is checked out**: a branch and its object, or `HEAD` itself when it stands for an object
directly. It is missing if the branch has no commit yet. -/
def head (r : Repository) (d : Disk) : Except Trouble (String × Oid) := do
  match ← r.target d Reference.head with
  | .object oid => return (Reference.head, oid)
  | .reference name => r.resolve d name

/-- The commit that is checked out. -/
def headCommit (r : Repository) (d : Disk) : Except Trouble Commit := do
  let (_, oid) ← r.head d
  r.commitAt d oid

/-- The names of the files below a directory. -/
def filesBelow (d : Disk) (l : Location) (shown : String) : (bound : Nat) → List String
  | 0 => []
  | bound + 1 =>
    (d.children l).flatMap fun (name, e) =>
      let text := shown ++ "/" ++ name
      match e with
      | .directory => filesBelow d (l ++ [name]) text bound
      | _ => [text]

/-- **The names of all references** but `HEAD`, in order. Files that cannot be read do not count. -/
def references (r : Repository) (d : Disk) : Except Trouble (List String) := do
  let files := match d.resolve r.shared ⟨"refs"⟩ with
    | .ok (l, .directory) => filesBelow d l "refs" (chainLimit d)
    | _ => []
  let loose := files.filter fun name => !name.endsWith ".lock" && (r.loose d name).isOk
  let packed := ((← r.packed d).map Prod.fst).filter (!loose.contains ·)
  return (loose ++ packed).eraseDups.mergeSort fun a b => (compare a b).isLE

/-- **Let a name stand for something.** -/
def setTarget (r : Repository) (d : Disk) (name : String) (t : Target) : Except Trouble Disk :=
  match d.edit (r.homeOf name) (.file ⟨name⟩ (Octets.toBytes (Reference.fileOf t))) with
  | (.ok (), d) => .ok d
  | (.error _, _) => .error .broken

/-- How references may be shortened, the first that there is counting. -/
def expansions (name : String) : List String :=
  [name, "refs/" ++ name, Reference.tags ++ name, Reference.branches ++ name,
    Reference.remotes ++ name, Reference.remotes ++ name ++ "/" ++ Reference.head]

/-- The first of some names that there is. -/
def firstOf (r : Repository) (d : Disk) : List String → Except Trouble (String × Oid)
  | [] => .error .missing
  | name :: names =>
    if Reference.isName name then
      match r.follow d referenceLimit name with
      | .error .missing => if names = [] then .error .missing else r.firstOf d names
      | outcome => outcome
    else if names = [] then .error .broken
    else r.firstOf d names

/-- **The reference that a shortened name means.** The empty name means `HEAD`. -/
def named (r : Repository) (d : Disk) (name : String) : Except Trouble (String × Oid) :=
  r.firstOf d (if name = "" then [Reference.head] else expansions name)

end Repository

end Depot.Git
