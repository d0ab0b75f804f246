import Depot.Graph
import Depot.Surroundings
import Depot.Walk
import Depot.Workspace

/-!
# Surveying a project

A survey records the import graph of a project as it is on disk, without fetching anything. Its
nodes are directories. Below the project it follows the directory tree as well as imports, so every
package inside the project is recorded along with those it reaches elsewhere in the workspace.

Trouble with one package is recorded on the package and never ends the survey; only a directory that
cannot be listed does.
-/

namespace Depot

/-- Why the directories to visit next could not be named. -/
inductive SurveyError where
  /-- A directory of the project could not be listed. -/
  | unlisted (dir : Path) (cause : OsError)
  /-- The directory has no import path. -/
  | unnamed (cause : WorkspaceError)
  deriving DecidableEq, Repr

/-- The error as a fault. -/
def SurveyError.fault : SurveyError → Fault
  | unlisted dir cause => Files.listingFault dir cause
  | unnamed cause => .ofMessage cause.message

/-- **How to survey a project.** -/
structure Survey (σ : Type) where
  /-- Where packages live. -/
  workspace : Workspace
  /-- The directory of the project. -/
  root : Path
  /-- Names of directories below the project that are not entered. -/
  avoided : StringSet
  /-- The disk. -/
  files : Files σ
  /-- Reads a package's imports. -/
  reader : PackageReader σ

namespace Survey

variable {σ : Type}

/-- The error of a path that is no directory. -/
def absence (path : Path) : Except OsError FileKind → Option DependencyError
  | .ok .directory => none
  | .ok .file => some (.notADirectory path)
  | .error .notFound => some (.notFound path)
  | .error cause => some (.stat path cause.message)

/-- **What reading a package adds to the graph.** An error keeps imports from being recorded only if
there are none, and then only an error that is about a package is put on record. -/
def note (graph : Graph) (name : String) (found : PackageImports) : Graph :=
  match found.error with
  | none => graph.record name found.imports
  | some e =>
    if found.imports.isEmpty then
      if e.isNoBuildable then graph
      else graph.add { importPath := name, error := some (.read name e.fault.render) }
    else graph.record name found.imports

/-- **Record the package in a directory.** -/
def examine (survey : Survey σ) (path : Path) (graph : Graph) (s : σ) : Visit × Graph × σ :=
  match survey.workspace.packageName path with
  | .error e =>
    (.skip, graph.add { importPath := path.text, error := some (.importPath path e.message) }, s)
  | .ok name =>
    match absence path (survey.files.kind path s) with
    | some e => (.skip, graph.add { importPath := name, error := some e }, s)
    | none =>
      if survey.workspace.isSrcDir path then (.skip, graph, s)
      else
        let (found, s) := survey.reader.read path s
        (.descend, note graph name found, s)

/-- Whether a directory's name keeps it from being entered. -/
def isAvoided (survey : Survey σ) (dir : Path) : Bool :=
  match dir.fileName? with
  | some name => survey.avoided.contains name
  | none => false

/-- The directories below `path` to visit, if it is inside the project. -/
def below (survey : Survey σ) (path : Path) (s : σ) : Except SurveyError (List Path) :=
  if path.startsWith survey.root then
    match survey.files.visibleSubdirectories path s with
    | .ok dirs => .ok (dirs.filter (!survey.isAvoided ·))
    | .error cause => .error (.unlisted path cause)
  else .ok []

/-- Paths by components without repetition; of several texts for one path the first stays. -/
def distinct (paths : List Path) : List Path :=
  paths.foldl (fun ps p => Ordered.insertWith Path.components (fun old _ => old) p ps) []

/-- **The directories to visit after `path`**: those below it inside the project, and where its
recorded imports live. A package that could not be read leads nowhere. -/
def next (survey : Survey σ) (path : Path) (graph : Graph) (s : σ) :
    Except SurveyError (List Path) :=
  match survey.below path s with
  | .error e => .error e
  | .ok dirs =>
    match survey.workspace.packageName path with
    | .error e => .error (.unnamed e)
    | .ok name =>
      match graph.get? name with
      | none => .ok (distinct dirs)
      | some dep =>
        if dep.error.isSome then .ok []
        else .ok (distinct (dirs ++ dep.imports.toList.map survey.workspace.packageSource))

/-- Surveying as a visitor of directories. -/
def visitor (survey : Survey σ) : Visitor Path (Graph × σ) SurveyError where
  handle path s :=
    let (visit, rest) := survey.examine path s.1 s.2
    (.ok visit, rest)
  read path s := (survey.next path s.1 s.2, s)

end Survey

end Depot
