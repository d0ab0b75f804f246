import Depot.Consolidation
import Depot.Loader
import Depot.Project
import Depot.Survey

/-!
# Getting and saving

The two things that are done with a project. To *get* is to have every package on disk that is
reachable from some import paths. To *save* is to survey the project as it is on disk and to draw up
the manifest of the repositories it depends on.
-/

namespace Depot

/-- Why an operation failed. -/
inductive OperationError where
  /-- The project has no import path. -/
  | project (cause : ProjectError)
  /-- A package could not be loaded. -/
  | loading (cause : WalkError String LoadError)
  /-- The project could not be surveyed. -/
  | surveying (cause : WalkError Path SurveyError)
  /-- The manifest could not be drawn up. -/
  | resolving (cause : ResolveError)
  deriving Repr

/-- The error as a fault. -/
def OperationError.fault : OperationError → Fault
  | project cause => cause.fault
  | loading cause => cause.fault LoadError.fault
  | surveying cause => cause.fault SurveyError.fault
  | resolving cause => cause.fault

/-- **What an operation works with.** -/
structure Means (σ : Type) where
  /-- The disk. -/
  files : Files σ
  /-- Reads a package's imports. -/
  reader : PackageReader σ
  /-- Finds the repository of a package. -/
  resolver : RepoResolver σ
  /-- How many packages one traversal handles at most. -/
  budget : Nat := 1000000

namespace Project

variable {σ : Type}

/-- How the packages of a project are loaded. -/
def loadPlan (p : Project) (means : Means σ) : LoadPlan σ where
  workspace := p.workspace
  pins := p.configuration.pins
  update := p.configuration.updates
  files := means.files
  resolver := means.resolver
  reader := means.reader

/-- How a project is surveyed. -/
def survey (p : Project) (means : Means σ) : Survey σ where
  workspace := p.workspace
  root := p.root
  avoided := p.avoided
  files := means.files
  reader := means.reader

/-- How the manifest of a project is drawn up. -/
def consolidation (p : Project) (means : Means σ) : Consolidation σ where
  workspace := p.workspace
  project := p.root
  branches := p.configuration.showsBranches
  pins := p.configuration.pins
  resolver := means.resolver

/-- The import paths to start from: the project's own if none is given. -/
def startsOf (p : Project) : List String → Except ProjectError (List String)
  | [] => p.importPath.map fun path => [path]
  | paths => .ok paths

/-- **Get every package reachable from some import paths.** Yields the import graph. -/
def get (p : Project) (means : Means σ) (paths : List String) (s : σ) :
    Except OperationError Graph × σ :=
  match p.startsOf paths with
  | .error cause => (.error (.project cause), s)
  | .ok starts =>
    let walked :=
      Walk.traverseAll (p.loadPlan means).visitor means.budget starts [] (({} : Loader), s)
    match walked.outcome with
    | .error cause => (.error (.loading cause), walked.state.2)
    | .ok () => (.ok walked.state.1.graph, walked.state.2)

/-- **Save what a project depends on.** Yields the import graph and the manifest. -/
def save (p : Project) (means : Means σ) (s : σ) :
    Except OperationError (Graph × Manifest) × σ :=
  match p.importPath with
  | .error cause => (.error (.project cause), s)
  | .ok _ =>
    let walked :=
      Walk.traverse (p.survey means).visitor means.budget p.root [] (Graph.empty, s)
    match walked.outcome with
    | .error cause => (.error (.surveying cause), walked.state.2)
    | .ok () =>
      let graph := walked.state.1
      match (p.consolidation means).manifest graph walked.state.2 with
      | (.error cause, s) => (.error (.resolving cause), s)
      | (.ok manifest, s) => (.ok (graph, manifest), s)

end Project

end Depot
