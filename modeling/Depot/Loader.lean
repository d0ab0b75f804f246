import Depot.Graph
import Depot.Surroundings
import Depot.Walk
import Depot.Workspace

/-!
# Loading packages

The loader makes sure that a package is on disk, fetching its repository if it is not, then reads
its imports and records them in the graph. With updating on, a package that is on disk already is
first moved to the revision its pin declares; this is done once per pin, and the loader remembers
the roots of the pins it has settled.

A package that fails to load leaves the graph as it was.
-/

namespace Depot

/-- Why a package could not be loaded. -/
inductive LoadError where
  /-- There is a file where the package should be. -/
  | notADirectory (dir : Path)
  /-- The system does not say what is where the package should be. -/
  | unreachable (package : String) (dir : Path) (cause : OsError)
  /-- No repository is known for the package. -/
  | unresolved (package : String) (cause : Fault)
  /-- The repository could not be fetched. -/
  | notFetched (package root : String) (cause : Fault)
  /-- The repository could not be moved to its declared revision. -/
  | notMoved (package : String) (cause : Fault)
  /-- The package's imports could not be read. -/
  | unread (package : String) (cause : ReadError)
  /-- The imports of a package are asked for that is not on record. -/
  | unrecorded (package : String)
  deriving DecidableEq, Repr

/-- The error as a fault. -/
def LoadError.fault : LoadError → Fault
  | notADirectory dir =>
    .ofMessage ("cant fetch pkg for path " ++ dir.text ++ " is a file not a directory")
  | unreachable package dir cause =>
    cause.fault.within
      ("cant fetch package " ++ package ++ " error when stating " ++ dir.text)
  | unresolved package cause => cause.within (package ++ " version control")
  | notFetched package root cause =>
    (cause.within ("failed to fetch " ++ root)).within ("cant fetch package " ++ package)
  | notMoved package cause => cause.within ("failed to set revision of " ++ package)
  | unread package cause => cause.fault.within ("package " ++ package ++ " couldn't read deps")
  | unrecorded package =>
    .ofMessage ("no dep for " ++ package ++ ", should not be requested")

/-- **What the loader has done so far.** -/
structure Loader where
  /-- The packages read so far. -/
  graph : Graph := .empty
  /-- The roots of the pins whose repositories are at their declared revision. -/
  pinned : StringSet := .empty
  deriving DecidableEq

/-- **How to load packages.** -/
structure LoadPlan (σ : Type) where
  /-- Where packages live. -/
  workspace : Workspace
  /-- The project's pins. -/
  pins : List Pin
  /-- Whether packages on disk are moved to their declared revision. -/
  update : Bool
  /-- The disk. -/
  files : Files σ
  /-- Finds the repository of a package. -/
  resolver : RepoResolver σ
  /-- Reads a package's imports. -/
  reader : PackageReader σ

namespace LoadPlan

variable {σ : Type}

/-- The roots settled once the repository of `pin` is at the declared revision. -/
def settle (pinned : StringSet) : Option Pin → StringSet
  | some ⟨root, some _, _⟩ => pinned.insert root
  | _ => pinned

/-- **Fetch the repository of a package that is not on disk**, at the revision its pin declares if
it declares one. Yields the roots settled afterwards. -/
def fetch (plan : LoadPlan σ) (package : String) (pin : Option Pin) (pinned : StringSet) (s : σ) :
    Except LoadError StringSet × σ :=
  match plan.resolver.resolve package pin s with
  | (.error cause, s) => (.error (.unresolved package cause), s)
  | (.ok checkout, s) =>
    match checkout.create (pin.bind (·.revision)) s with
    | (.error cause, s) => (.error (.notFetched package checkout.root cause), s)
    | (.ok (), s) => (.ok (settle pinned pin), s)

/-- **Move the repository of a package on disk to a declared revision**, unless the pin is settled
already. Yields the roots settled afterwards. -/
def move (plan : LoadPlan σ) (package : String) (pin : Pin) (revision : String)
    (pinned : StringSet) (s : σ) : Except LoadError StringSet × σ :=
  if pinned.contains pin.root then (.ok pinned, s)
  else
    match plan.resolver.resolve package (some pin) s with
    | (.error cause, s) => (.error (.unresolved package cause), s)
    | (.ok checkout, s) =>
      match checkout.setRevision revision s with
      | (.error cause, s) => (.error (.notMoved package cause), s)
      | (.ok (), s) => (.ok (pinned.insert pin.root), s)

/-- **Have a package on disk**, at its declared revision when updating. Yields the roots settled
afterwards. -/
def provide (plan : LoadPlan σ) (package : String) (pinned : StringSet) (s : σ) :
    Except LoadError StringSet × σ :=
  let dir := plan.workspace.packageSource package
  let pin := Pin.firstFor plan.pins package
  match plan.files.kind dir s with
  | .ok .file => (.error (.notADirectory dir), s)
  | .error .notFound => plan.fetch package pin pinned s
  | .error cause => (.error (.unreachable package dir cause), s)
  | .ok .directory =>
    match plan.update, pin with
    | true, some pin =>
      match pin.revision with
      | some revision => plan.move package pin revision pinned s
      | none => (.ok pinned, s)
    | _, _ => (.ok pinned, s)

/-- **Load a package**: have it on disk, read its imports, record them. -/
def load (plan : LoadPlan σ) (package : String) (loader : Loader) (s : σ) :
    Except LoadError Unit × Loader × σ :=
  match plan.provide package loader.pinned s with
  | (.error e, s) => (.error e, loader, s)
  | (.ok pinned, s) =>
    let (found, s) := plan.reader.read (plan.workspace.packageSource package) s
    match found.toExcept with
    | .error cause => (.error (.unread package cause), { loader with pinned }, s)
    | .ok imports => (.ok (), { graph := loader.graph.record package imports, pinned }, s)

/-- The import paths that a package on record depends on. -/
def importsOf (loader : Loader) (package : String) : Except LoadError (List String) :=
  match loader.graph.get? package with
  | some dep => .ok dep.imports.toList
  | none => .error (.unrecorded package)

/-- Loading as a visitor of import paths: every package is loaded, then its imports follow. -/
def visitor (plan : LoadPlan σ) : Visitor String (Loader × σ) LoadError where
  handle package s :=
    let (outcome, rest) := plan.load package s.1 s.2
    (outcome.map fun () => .descend, rest)
  read package s := (importsOf s.1 package, s)

end LoadPlan

end Depot
