import Depot.Ordered
import Depot.StringSet
import Depot.Segments
import Depot.Path
import Depot.ImportPath
import Depot.Pin
import Depot.Fault
import Depot.OsError
import Depot.Workspace
import Depot.CommandLine.Arguments
import Depot.Disk
import Depot.Disk.Change
import Depot.Git.Digest
import Depot.Git.Inflate
import Depot.Octets
import Depot.Git.Object
import Depot.Git.Reference
import Depot.Git.Settings
import Depot.Git.Repository
import Depot.Git.Remote
import Depot.Git.Index
import Depot.Git.WorkTree
import Depot.Git.Clone
import Depot.Git.Host
import Depot.Git.Revision
import Depot.Package
import Depot.Surroundings
import Depot.World
import Depot.Git.WorkCopy
import Depot.Dependency
import Depot.Graph
import Depot.Manifest
import Depot.Json
import Depot.Json.Reader
import Depot.StringSet.Json
import Depot.Manifest.Json
import Depot.Consolidation
import Depot.Walk
import Depot.Loader
import Depot.Toml
import Depot.Toml.Number
import Depot.Toml.Reader
import Depot.Configuration
import Depot.Project
import Depot.Survey
import Depot.Operation
import Depot.ListedPackage
import Depot.Shell.Formats
import Depot.Shell.Syntax
import Depot.Shell
import Depot.Process
import Depot.PackageTool
import Depot.CommandLine
import Depot.CommandLine.Places
import Depot.Disk.Difference
import Depot.Journal
import Depot.Rehearsal
import Depot.Main
import Depot.Proofs.Walk.Steps
import Depot.Proofs.Walk.Reach
import Depot.Proofs.Walk.Discipline
import Depot.Proofs.Get
import Depot.Proofs.Path
import Depot.Proofs.Survey.Reach
import Depot.Proofs.Provenance
import Depot.Proofs.Consolidation.Grouping
import Depot.Proofs.Consolidation.Nesting
import Depot.Proofs.Consolidation.Partition
import Depot.Proofs.Save
import Depot.Proofs.Loader.Beside
import Depot.Proofs.Chronicle
import Depot.Proofs.Repinning
import Depot.Proofs.Git.Cloning
import Depot.Proofs.Cloning
import Depot.Proofs.ImportPath
import Depot.Proofs.Configuration
import Depot.Proofs.Consolidation.Pins
import Depot.Proofs.Git.Missing
import Depot.Proofs.Disk.Spelling
import Depot.Proofs.Get.Resident
import Depot.Proofs.Agreement
import Depot.Proofs.Path.Ancestors
import Depot.Proofs.Git.Holding
import Depot.Proofs.Consolidation.Owners
import Depot.Proofs.Minutes
import Depot.Proofs.Bookkeeping
import Depot.Proofs.Get.Again
import Depot.Proofs.Walk.Textbook
import Depot.Proofs.Walk.Distance
import Depot.Proofs.Walk.Termination
import Depot.Proofs.Walk.Alike
import Depot.Proofs.Listing
import Depot.Proofs.Loader.Recording
import Depot.Proofs.Graph.Merging
import Depot.Proofs.Workspace.Naming
import Depot.Proofs.Failures
import Depot.Proofs.PackageTool
import Depot.Proofs.Get.Gathered
import Depot.Proofs.Survey.Enlarging
import Depot.Proofs.Workspace.Containment
import Depot.Proofs.Consolidation.Conflicts
import Depot.Proofs.Configuration.Merging
import Depot.Proofs.Path.Parents
import Depot.Proofs.Disk.Making
import Depot.Proofs.Git.Remains
import Depot.Proofs.Workspace.Dotted
import Depot.Proofs.TestImports
import Depot.Proofs.Path.Resolved
import Depot.Proofs.Get.Directories
import Depot.Proofs.Loader.Confinement
