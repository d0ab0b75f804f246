import Depot.Configuration
import Depot.StringSet
import Depot.Workspace
import Depot.World

/-!
# Projects

A project is the directory tree that work is done in: the nearest directory, from the current one
upward, that holds a configuration file, or else the current directory itself. Its settings say
where the workspace is, unless that is given explicitly.
-/

namespace Depot

/-- **A project and its settings.** -/
structure Project where
  /-- The directory that work was begun in. -/
  cwd : Path
  /-- The directory of the project. -/
  root : Path
  /-- The merged settings of the user and the project. -/
  configuration : Configuration
  /-- The root of the workspace, if it is given explicitly. -/
  chosenWorkspace : Option String := none
  /-- The root of the workspace where nothing else names one. -/
  usualWorkspace : Path
  deriving DecidableEq, Repr

/-- Why a project has no import path. -/
inductive ProjectError where
  /-- The project is not inside the workspace. -/
  | outsideWorkspace (project workspace : Path) (cause : WorkspaceError)
  deriving DecidableEq, Repr

/-- The error as a fault. -/
def ProjectError.fault : ProjectError → Fault
  | outsideWorkspace project workspace cause =>
    (Fault.ofMessage cause.message).within
      ("project " ++ project.text ++ " is not inside workspace " ++ workspace.text)

namespace Project

/-- Where a project's configuration file is. -/
def configurationPath (root : Path) : Path := root.join Configuration.projectFileName

/-- **The nearest directory with a configuration file**, from `start` upward. -/
def findRoot (w : World) (start : Path) : Option Path :=
  start.ancestors.find? fun dir => w.disk.isFile w.cwd (configurationPath dir)

/-- The root of the workspace where no setting names one: the first directory that the environment
lists, or `go` in the home directory. -/
def usualWorkspaceOf (w : World) : Path :=
  match ((w.lookupVariable "GOPATH").map World.splitPaths).bind (·.find? (· != "")) with
  | some dir => ⟨dir⟩
  | none => w.home.join "go"

/-- **The project that a directory belongs to**, with its settings loaded. -/
def find (w : World) (cwd : Path) : Project :=
  let root := (findRoot w cwd).getD cwd
  { cwd
    root
    configuration :=
      Configuration.loadBoth w.disk w.cwd (w.home.join Configuration.userFileName)
        (configurationPath root)
    usualWorkspace := usualWorkspaceOf w }

/-- **The root of the workspace**: what is given explicitly counts as seen from the current
directory, then what is configured, as seen from the project. -/
def workspaceRoot (p : Project) : Path :=
  match p.chosenWorkspace, p.configuration.workspace with
  | some dir, _ => p.cwd.join dir
  | none, some dir => p.root.join dir
  | none, none => p.usualWorkspace

/-- The workspace of the project. -/
def workspace (p : Project) : Workspace := ⟨p.workspaceRoot⟩

/-- **The import path of the project.** -/
def importPath (p : Project) : Except ProjectError String :=
  match p.workspace.packageName p.root with
  | .ok name => .ok name
  | .error cause => .error (.outsideWorkspace p.root p.workspaceRoot cause)

/-- The directory names that a survey of the project does not enter. -/
def avoided (p : Project) : StringSet := .ofList p.configuration.avoided

end Project

end Depot
