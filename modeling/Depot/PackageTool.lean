import Depot.ListedPackage
import Depot.Process
import Depot.Workspace

/-!
# Reading packages with the package tool

The package tool is run once for each package, in the package's directory and with the workspace as
its only one. It describes even packages with errors, so that it ends badly only if something is
wrong with the tool itself.
-/

namespace Depot

/-- **The package tool and how it is used.** -/
structure PackageTool where
  /-- The program. -/
  program : Path
  /-- Where packages live. -/
  workspace : Workspace
  /-- Whether the imports of test files count. -/
  tests : Bool := false

namespace PackageTool

/-- The name of the tool. -/
def toolName : String := "go"

/-- The tool that is found in the search path, or else its bare name. -/
def find (w : World) (workspace : Workspace) (tests : Bool) : PackageTool where
  program := (w.findProgram toolName).getD ⟨toolName⟩
  workspace := workspace
  tests := tests

/-- The command that describes the package in a directory. -/
def command (tool : PackageTool) (dir : Path) : Command :=
  let c : Command :=
    { program := tool.program
      args := ["list", "--json", "-e", dir.text]
      directory := some dir }
  (c.set "GOPATH" tool.workspace.root.text).set "GO111MODULE" "off"

/-- **Describe the package in a directory.** -/
def describe (tool : PackageTool) (dir : Path) : Attempt World ListedPackage := fun w =>
  let c := tool.command dir
  match c.check w with
  | (.error fault, w) => (.error fault, w)
  | (.ok completed, w) =>
    match (Json.read? (Octets.ofBytes completed.stdout)).bind ListedPackage.ofJson? with
    | some listed => (.ok listed, w)
    | none =>
      (.error (Fault.foreign.within ("failed to parse `" ++ c.display ++ "` output")), w)

/-- What a description says about a package's imports. -/
def importsOf (tool : PackageTool) (listed : ListedPackage) : PackageImports where
  imports := listed.remoteImports tool.tests
  error := listed.error.map .package

/-- **The package reader that uses the tool.** -/
def reader (tool : PackageTool) : PackageReader World where
  read dir w :=
    match tool.describe dir w with
    | (.ok listed, w) => (tool.importsOf listed, w)
    | (.error fault, w) => ({ error := some (.tool fault) }, w)

end PackageTool

end Depot
