import Depot.CommandLine.Arguments
import Depot.Git.WorkCopy
import Depot.Manifest.Json
import Depot.Operation
import Depot.PackageTool

/-!
# The command line

The program gets or saves the project that the current directory belongs to, with the package tool
and the repositories of a world. What it prints and how it ends is a value, like the world it leaves
behind.
-/

namespace Depot.CommandLine

/-- **What the program prints, and how it ends.** -/
structure Report where
  /-- The exit code. -/
  code : Nat
  /-- The output. -/
  output : String := ""
  /-- The messages. -/
  messages : String := ""
  deriving DecidableEq, Repr

namespace Report

/-- The exit code of a misused command line. -/
def misuseCode : Nat := 2

/-- The report of a failure. -/
def ofFault (fault : Fault) : Report :=
  { code := 1, messages := "error: " ++ fault.render ++ "\n" }

/-- The report of arguments that ask for nothing to be done. -/
def ofStop : Stop → Report
  | .explained => { code := 0 }
  | .misused => { code := misuseCode }

end Report

/-- The environment variable that names the workspace. -/
def workspaceVariable : String := "CANTICLE_WORKSPACE"

/-- The project that a request is about, with its settings changed as the request asks. -/
def projectOf (r : Request) (w : World) : Project :=
  let p := Project.find w w.cwd.path
  let c := p.configuration
  let c := if r.wishes.contains .update then { c with update := some true } else c
  let c := if r.wishes.contains .branches then { c with branches := some true } else c
  let c := if r.wishes.contains .tests then { c with tests := some true } else c
  { p with configuration := c, chosenWorkspace := r.workspace }

/-- What a project is worked on with. -/
def meansOf (p : Project) (w : World) : Means World where
  files := World.files
  reader := (PackageTool.find w p.workspace p.configuration.countsTests).reader
  resolver := Git.WorkCopy.resolver p.workspace

/-- The report of packages that were fetched. -/
def reportFetched (graph : Graph) : Report :=
  { code := 0, messages := "     Fetched " ++ toString graph.size ++ " packages\n" }

/-- The report of what a project depends on. -/
def reportSaved (asJson : Bool) (graph : Graph) (manifest : Manifest) : Report :=
  let unread := graph.failed.length
  { code := 0
    output := if asJson then manifest.json.render 0 ++ "\n" else manifest.render
    messages :=
      if unread = 0 then "" else "warning: " ++ toString unread ++ " packages could not be read\n" }

/-- **Do what is asked for.** -/
def perform (r : Request) (w : World) : Report × World :=
  let p := projectOf r w
  let means := meansOf p w
  match r.command with
  | .get =>
    match p.get means r.importPaths w with
    | (.ok graph, w) => (reportFetched graph, w)
    | (.error e, w) => (.ofFault e.fault, w)
  | .save =>
    match p.save means w with
    | (.ok (graph, manifest), w) => (reportSaved (r.wishes.contains .json) graph manifest, w)
    | (.error e, w) => (.ofFault e.fault, w)

/-- **Run the program** with some arguments. -/
def run (arguments : List String) (w : World) : Report × World :=
  match Request.read (w.lookupVariable workspaceVariable) arguments with
  | .error stop => (.ofStop stop, w)
  | .ok r => perform r w

end Depot.CommandLine
