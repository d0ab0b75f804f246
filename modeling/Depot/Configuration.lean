import Depot.Disk
import Depot.Pin
import Depot.Toml.Reader

/-!
# Configuration

Settings come from two files: one of the user, for all projects, and one of the project. What the
project sets overrides what the user sets, setting by setting; a flag that is not set at all leaves
the other file's value in place, so a project can turn off what the user turned on.

Pins are merged by their roots. One that has the root of an earlier pin takes its place as a whole,
any other comes after those already there.
-/

namespace Depot

/-- **The settings of the user, of a project, or of both together.** -/
structure Configuration where
  /-- The root directory of the workspace. -/
  workspace : Option String := none
  /-- Whether a manifest shows branches instead of exact revisions. -/
  branches : Option Bool := none
  /-- Names of directories that a survey does not enter. -/
  avoided : List String := []
  /-- Whether the imports of test files count. -/
  tests : Option Bool := none
  /-- Whether checkouts that are there are moved to their declared revisions. -/
  update : Option Bool := none
  /-- The declared dependencies. -/
  pins : List Pin := []
  deriving DecidableEq, Repr, Inhabited

/-- Why a configuration file could not be loaded. -/
inductive ConfigurationError where
  /-- The file could not be read. -/
  | unread (path : Path) (cause : OsError)
  /-- The file is not TOML, or not of the expected form. -/
  | malformed (path : Path)
  deriving DecidableEq, Repr

/-- The error as a fault. What is wrong with the form of a file is worded elsewhere. -/
def ConfigurationError.fault : ConfigurationError → Fault
  | unread path cause => cause.fault.within ("failed to read config file: " ++ path.text)
  | malformed path => Fault.foreign.within ("failed to parse config file: " ++ path.text)

namespace Configuration

/-- The name of a project's configuration file. -/
def projectFileName : String := "Canticle.toml"

/-- Where the user's configuration file is, seen from the home directory. -/
def userFileName : String := ".canticle/config.toml"

/-! ## Reading -/

/-- A setting that need not be given. -/
def optional {α : Type} (read : Toml → Option α) : Option Toml → Option (Option α)
  | none => some none
  | some t => (read t).map some

/-- A pin; only its root must be given. -/
def pin? (t : Toml) : Option Pin := do
  let [some root, revision, source] ← t.fields? ["root", "revision", "source"] | none
  return {
    root := ← root.text?
    revision := ← optional Toml.text? revision
    source := ← optional Toml.text? source }

/-- The section on the workspace. -/
def withWorkspace (c : Configuration) (t : Toml) : Option Configuration := do
  let [path] ← t.fields? ["path"] | none
  return { c with workspace := ← optional Toml.text? path }

/-- The section on surveys and manifests. -/
def withSave (c : Configuration) (t : Toml) : Option Configuration := do
  let [branches, avoided, tests] ← t.fields? ["branches", "no_recur", "include_tests"] | none
  return { c with
    branches := ← optional Toml.bool? branches
    avoided := ← Toml.fieldOr [] (fun t => t.elements?.bind (·.mapM Toml.text?)) avoided
    tests := ← optional Toml.bool? tests }

/-- The section on fetching. -/
def withGet (c : Configuration) (t : Toml) : Option Configuration := do
  let [update] ← t.fields? ["update"] | none
  return { c with update := ← optional Toml.bool? update }

/-- The list of pins. -/
def withPins (c : Configuration) (t : Toml) : Option Configuration := do
  return { c with pins := ← (← t.elements?).mapM pin? }

/-- **The settings of a document.** -/
def ofToml? (t : Toml) : Option Configuration := do
  let [workspace, save, get, pins] ← t.fields? ["workspace", "save", "get", "dependencies"] | none
  let c ← Toml.fieldOr {} (withWorkspace {}) workspace
  let c ← Toml.fieldOr c c.withSave save
  let c ← Toml.fieldOr c c.withGet get
  Toml.fieldOr c c.withPins pins

/-- Load a configuration file. -/
def load (disk : Disk) (cwd : Location) (path : Path) : Except ConfigurationError Configuration :=
  match disk.readText cwd path with
  | .error cause => .error (.unread path cause)
  | .ok text =>
    match (Toml.read? text).bind ofToml? with
    | some c => .ok c
    | none => .error (.malformed path)

/-- Load a configuration file, or go without if that fails. -/
def loadOrDefault (disk : Disk) (cwd : Location) (path : Path) : Configuration :=
  match load disk cwd path with
  | .ok c => c
  | .error _ => {}

/-! ## Merging -/

/-- Put a pin in place of the first one of the same root, or after all others. -/
def putPin (pin : Pin) : List Pin → List Pin
  | [] => [pin]
  | p :: ps => if p.root = pin.root then pin :: ps else p :: putPin pin ps

/-- The pins of `base` with those of `top` put among them one after another. -/
def mergePins (base top : List Pin) : List Pin := top.foldl (fun ps pin => putPin pin ps) base

/-- **The settings of `base` with those of `top` taking precedence.** -/
def merge (base top : Configuration) : Configuration where
  workspace := top.workspace <|> base.workspace
  branches := top.branches <|> base.branches
  avoided := if top.avoided.isEmpty then base.avoided else top.avoided
  tests := top.tests <|> base.tests
  update := top.update <|> base.update
  pins := mergePins base.pins top.pins

/-- **The settings of the user and a project.** A file that is missing or cannot be loaded sets
nothing. -/
def loadBoth (disk : Disk) (cwd : Location) (user project : Path) : Configuration :=
  (merge {} (loadOrDefault disk cwd user)).merge (loadOrDefault disk cwd project)

/-! ## What holds where nothing is set -/

/-- Whether a manifest shows branches. -/
def showsBranches (c : Configuration) : Bool := c.branches.getD false

/-- Whether the imports of test files count. -/
def countsTests (c : Configuration) : Bool := c.tests.getD false

/-- Whether checkouts that are there are moved. -/
def updates (c : Configuration) : Bool := c.update.getD false

end Configuration

end Depot
