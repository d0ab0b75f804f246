import Depot.CommandLine

/-!
# Places to look at

A run of the program reads settings, a workspace and the repositories that its checkouts come from.
Which places these are can be told step by step: the settings say where the workspace is, and the
workspace and the settings say where the repositories are.
-/

namespace Depot.CommandLine

/-- The files that may hold settings. -/
def settingsPlaces (w : World) : List Path :=
  w.home.join Configuration.userFileName :: w.cwd.path.ancestors.map Project.configurationPath

/-- The files that may be the package tool. -/
def toolPlaces (w : World) : List Path :=
  w.searchPath.map fun dir => Path.join ⟨dir⟩ PackageTool.toolName

/-- The project that arguments are about. -/
def project? (arguments : List String) (w : World) : Option Project :=
  match Request.read (w.lookupVariable workspaceVariable) arguments with
  | .ok r => some (projectOf r w)
  | .error _ => none

/-- The directories that a project is worked on in. -/
def treePlaces (p : Project) : List Path := [p.root, p.workspace.srcDir]

/-- The directories that checkouts are fetched from, as far as they are on this machine: those that
pins name, and those that the checkouts on disk remember. -/
def remotePlaces (p : Project) (w : World) : List Path :=
  let pinned := (p.configuration.pins.filterMap Pin.source).map Octets.ofText
  let remembered := w.disk.entries.filterMap fun (l, e) =>
    match l.reverse, e with
    | "config" :: ".git" :: _, .file content _ =>
      ((Git.Settings.read? (Octets.ofBytes content)).bind (·.remote? Git.Remote.origin)).map
        Git.Remote.url
    | _, _ => none
  (pinned ++ remembered).filterMap Git.Remote.path?

end Depot.CommandLine
