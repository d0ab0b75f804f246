import Depot.Path

/-!
# Workspaces

A workspace is a directory whose `src` directory holds packages by import path: the package
`example.org/lib` lives in `<root>/src/example.org/lib`. `packageSource` goes from import paths to
directories and `packageName` back.
-/

namespace Depot

/-- Why a directory has no import path. -/
inductive WorkspaceError where
  /-- The path is not inside the workspace's source directory. -/
  | outsideSource (path src : Path)
  deriving DecidableEq, Repr

/-- The wording of the error. -/
def WorkspaceError.message : WorkspaceError → String
  | outsideSource path src =>
    "path " ++ path.text ++ " is not inside workspace source dir " ++ src.text

/-- **A workspace**, given by its root directory. -/
structure Workspace where
  /-- The root directory. -/
  root : Path
  deriving DecidableEq, Repr

namespace Workspace

/-- The directory that holds the packages. -/
def srcDir (w : Workspace) : Path := w.root.join "src"

/-- **Where a package lives.** Empty segments of the import path do not count; the empty import path
names the source directory itself. -/
def packageSource (w : Workspace) (importPath : String) : Path :=
  ((Segments.split importPath.toList).filter (!·.isEmpty)).foldl
    (fun dir segment => dir.join (String.ofList segment)) w.srcDir

/-- The name of a component below the source directory; only `normal` ones can be part of an import
path. -/
def nameOf : Component → Option String
  | .normal name => some name
  | _ => none

/-- **The import path of a directory**, if it is inside the source directory without going up. -/
def packageName (w : Workspace) (path : Path) : Except WorkspaceError String :=
  match (path.below? w.srcDir).bind (·.mapM nameOf) with
  | some names => .ok ("/".intercalate names)
  | none => .error (.outsideSource path w.srcDir)

/-- Whether a path is the source directory itself. -/
def isSrcDir (w : Workspace) (path : Path) : Bool := path.same w.srcDir

end Workspace

end Depot
