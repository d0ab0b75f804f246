import Depot.OsError
import Depot.Package
import Depot.Path
import Depot.Pin

/-!
# What lies outside

The walks of this library ask four things of what surrounds them: what is on disk, what a package
imports, which repository holds an import path, and that repository itself. Each is a record of
operations over a state `σ`, which stands for everything outside that calls may read and change. A
real workspace, answers written down in advance, and a journal that notes every call are instances.
-/

namespace Depot

/-- A call on the outside that may fail. It may change the state either way. -/
abbrev Attempt (σ α : Type) : Type := σ → Except Fault α × σ

/-- What a path leads to, once links are followed. -/
inductive FileKind where
  | directory
  | file
  deriving DecidableEq, Repr

/-- **Reading the disk.** -/
structure Files (σ : Type) where
  /-- What a path leads to. -/
  kind : Path → σ → Except OsError FileKind
  /-- The names of the directories in a directory; links to directories do not count. A file has
  none. -/
  directories : Path → σ → Except OsError (List String)

/-- **Reading packages.** -/
structure PackageReader (σ : Type) where
  /-- Read the package in a directory. -/
  read : Path → σ → PackageImports × σ

/-- **A handle on the repository that holds an import path.** -/
structure Checkout (σ : Type) where
  /-- The root import path of the repository. -/
  root : String
  /-- Fetch a fresh checkout, at a revision if one is given. -/
  create : Option String → Attempt σ Unit
  /-- Move an existing checkout to a revision. -/
  setRevision : String → Attempt σ Unit
  /-- The exact revision that is checked out. -/
  revision : Attempt σ String
  /-- The branch that is checked out. -/
  branch : Attempt σ String
  /-- The remote that the checkout was fetched from. -/
  remote : Attempt σ String

/-- **Finding repositories.** -/
structure RepoResolver (σ : Type) where
  /-- The repository that holds an import path. The pin that governs the path, if there is one,
  says where it could be fetched from. -/
  resolve : String → Option Pin → Attempt σ (Checkout σ)

namespace Files

/-- Names that the package tool passes over. -/
def isHidden (name : String) : Bool :=
  name.toList.head? == some '.' || name.toList.head? == some '_'

variable {σ : Type}

/-- **The directories in `dir` that may hold packages**, in order. -/
def visibleSubdirectories (files : Files σ) (dir : Path) (s : σ) : Except OsError (List Path) :=
  (files.directories dir s).map fun names =>
    ((names.filter (!isHidden ·)).map dir.join).mergeSort fun p q => (compare p q).isLE

/-- The fault of a directory that cannot be listed. The system's wording shows twice, once as part
of the call it refused. -/
def listingFault (dir : Path) (e : OsError) : Fault :=
  { messages := ["failed to read directory: " ++ dir.text,
      "IO error for operation on " ++ dir.text ++ ": " ++ e.message, e.message] }

/-- Read a part of a larger state. -/
def lift {τ : Type} (files : Files σ) (part : τ → σ) : Files τ where
  kind path s := files.kind path (part s)
  directories path s := files.directories path (part s)

end Files

end Depot
