import Depot.Manifest
import Depot.Surroundings
import Depot.Workspace

/-!
# Consolidation

Consolidation turns the packages of a graph into a manifest, so that each repository is on record
once. Packages are taken in the order of their import paths. One that belongs to a repository found
before joins it; for any other its repository is asked for. A package without a repository is left
out, and so is one whose repository is the project's own or encloses it.

Afterwards the pins are put on record: each adds its revision and remote to the repository that owns
the pin's root, and more than one revision is a conflict.
-/

namespace Depot

/-- Why a manifest could not be drawn up. -/
inductive ResolveError where
  /-- The repository does not tell its revision. -/
  | revision (root : String) (cause : Fault)
  /-- The repository does not tell its remote. -/
  | source (root : String) (cause : Fault)
  deriving DecidableEq, Repr

/-- The error as a fault. -/
def ResolveError.fault : ResolveError → Fault
  | revision root cause => cause.within ("cant get revision from vcs at " ++ root)
  | source root cause => cause.within ("cant get vcs source from vcs at " ++ root)

/-- **How to draw up a manifest.** -/
structure Consolidation (σ : Type) where
  /-- Where packages live. -/
  workspace : Workspace
  /-- The directory of the project. -/
  project : Path
  /-- Whether branches go on record in place of exact revisions, where there is one. -/
  branches : Bool
  /-- The project's pins. -/
  pins : List Pin
  /-- Finds the repository of a package. -/
  resolver : RepoResolver σ

namespace Consolidation

variable {σ : Type}

/-- What is checked out: a branch if branches are wanted and there is one, or else a revision. -/
def revisionOf (c : Consolidation σ) (checkout : Checkout σ) (s : σ) :
    Except ResolveError String × σ :=
  let exactly (s : σ) : Except ResolveError String × σ :=
    match checkout.revision s with
    | (.ok revision, s) => (.ok revision, s)
    | (.error cause, s) => (.error (.revision checkout.root cause), s)
  if c.branches then
    match checkout.branch s with
    | (.ok branch, s) => (.ok branch, s)
    | (.error _, s) => exactly s
  else exactly s

/-- **The record of a repository** on account of one package it holds. -/
def open? (c : Consolidation σ) (checkout : Checkout σ) (dep : Dependency) (s : σ) :
    Except ResolveError Repository × σ :=
  match c.revisionOf checkout s with
  | (.error e, s) => (.error e, s)
  | (.ok revision, s) =>
    match checkout.remote s with
    | (.error cause, s) => (.error (.source checkout.root cause), s)
    | (.ok remote, s) =>
      (.ok
        { root := checkout.root
          revisions := StringSet.empty.insert revision
          onDiskRevision := revision
          remotes := StringSet.empty.insert remote
          onDiskRemote := remote
          packages := Graph.empty.add dep }, s)

/-- Whether the directory of a repository is the project or encloses it. -/
def enclosesProject (c : Consolidation σ) (root : String) : Bool :=
  c.project.startsWith (c.workspace.packageSource root)

/-- **Place one package** in the manifest drawn up so far. -/
def place (c : Consolidation σ) (m : Manifest) (dep : Dependency) (s : σ) :
    Except ResolveError Manifest × σ :=
  match m.updateOwner? dep.importPath (·.hold dep) with
  | some m => (.ok m, s)
  | none =>
    match c.resolver.resolve dep.importPath (Pin.firstFor c.pins dep.importPath) s with
    | (.error _, s) => (.ok m, s)
    | (.ok checkout, s) =>
      if c.enclosesProject checkout.root then (.ok m, s)
      else
        match c.open? checkout dep s with
        | (.error e, s) => (.error e, s)
        | (.ok repository, s) => (.ok (m ++ [repository]), s)

/-- Place packages one after another. -/
def placeAll (c : Consolidation σ) : Manifest → List Dependency → σ →
    Except ResolveError Manifest × σ
  | m, [], s => (.ok m, s)
  | m, dep :: deps, s =>
    match c.place m dep s with
    | (.error e, s) => (.error e, s)
    | (.ok m, s) => placeAll c m deps s

/-- The record of a repository with what a pin declares for it. -/
def declare (pin : Pin) (r : Repository) : Repository :=
  let revisions := match pin.revision with
    | some revision => r.revisions.insert revision
    | none => r.revisions
  let remotes := match pin.source with
    | some source => r.remotes.insert source
    | none => r.remotes
  let error :=
    if revisions.size > 1 then some ("conflicting revisions " ++ revisions.render) else r.error
  { r with revisions, remotes, error }

/-- Put the pins on record, each at the repository that owns its root. -/
def declareAll (pins : List Pin) (m : Manifest) : Manifest :=
  pins.foldl (fun m pin => (m.updateOwner? pin.root (declare pin)).getD m) m

/-- **The manifest of a graph.** -/
def manifest (c : Consolidation σ) (graph : Graph) (s : σ) : Except ResolveError Manifest × σ :=
  match c.placeAll [] graph.records s with
  | (.error e, s) => (.error e, s)
  | (.ok m, s) => (.ok (declareAll c.pins m), s)

end Consolidation

end Depot
