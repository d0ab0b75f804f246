import Depot.Surroundings

/-!
# Keeping a journal

What a walk asks of its surroundings, and in which order, matters as much as what comes of it. A
journal notes every call of a package reader, of a resolver and of the checkouts it yields, in front
of the state that the calls work on.
-/

namespace Depot

/-- **A call on the surroundings.** -/
inductive Event where
  /-- A package is read. -/
  | read (dir : Path)
  /-- A repository is asked for. -/
  | resolve (importPath : String) (pin : Option Pin)
  /-- A checkout is made. -/
  | create (root : String) (revision : Option String)
  /-- A checkout is moved. -/
  | setRevision (root revision : String)
  /-- A checkout is asked for its revision. -/
  | revision (root : String)
  /-- A checkout is asked for its branch. -/
  | branch (root : String)
  /-- A checkout is asked for its remote. -/
  | remote (root : String)
  deriving DecidableEq, Repr

/-- **A state with the calls made on it**, latest first. -/
structure Journal (σ : Type) where
  /-- The state. -/
  state : σ
  /-- The calls. -/
  events : List Event := []

namespace Journal

variable {σ α : Type}

/-- A call that is noted before it is made. -/
def noted (event : Event) (call : Attempt σ α) : Attempt (Journal σ) α := fun j =>
  let (result, state) := call j.state
  (result, ⟨state, event :: j.events⟩)

/-- A checkout whose calls are noted. -/
def checkout (c : Checkout σ) : Checkout (Journal σ) where
  root := c.root
  create revision := noted (.create c.root revision) (c.create revision)
  setRevision revision := noted (.setRevision c.root revision) (c.setRevision revision)
  revision := noted (.revision c.root) c.revision
  branch := noted (.branch c.root) c.branch
  remote := noted (.remote c.root) c.remote

/-- A resolver whose calls are noted, as are those of the checkouts it yields. -/
def resolver (r : RepoResolver σ) : RepoResolver (Journal σ) where
  resolve importPath pin j :=
    let (result, j) := noted (.resolve importPath pin) (r.resolve importPath pin) j
    (result.map checkout, j)

/-- A reader whose calls are noted. -/
def reader (r : PackageReader σ) : PackageReader (Journal σ) where
  read dir j :=
    let (found, state) := r.read dir j.state
    (found, ⟨state, .read dir :: j.events⟩)

/-- The disk behind a journal. -/
def files (f : Files σ) : Files (Journal σ) := f.lift state

@[simp] theorem root_checkout (c : Checkout σ) : (checkout c).root = c.root := rfl

/-- Noting a call changes neither its result nor what it does. -/
@[simp] theorem noted_result (event : Event) (call : Attempt σ α) (j : Journal σ) :
    (noted event call j).1 = (call j.state).1 ∧
      (noted event call j).2.state = (call j.state).2 := ⟨rfl, rfl⟩

end Journal

end Depot
