import Depot.Journal
import Depot.Proofs.Loader.Beside

/-!
# Minutes

Which calls are made on the surroundings, in which order, and which of them went well: minutes keep
all this beside the state that the calls work on. A call is put on them once it is made. Loading and
getting have the same results with minutes (`load_minuting`, `get_minuting`), so what the minutes
say is what was called.
-/

namespace Depot

/-- **A call on the surroundings with what came of it.** -/
structure Minute where
  /-- The call. -/
  event : Event
  /-- Whether it went well. -/
  went : Bool
  deriving DecidableEq, Repr

/-- **A state with minutes of the calls made on it**, earliest first. -/
structure Minutes (σ : Type) where
  /-- The state. -/
  state : σ
  /-- The calls. -/
  entries : List Minute := []

namespace Minutes

variable {σ α : Type}

/-- A call that is put on the minutes. -/
def taken (event : Event) (call : Attempt σ α) : Attempt (Minutes σ) α := fun m =>
  let (result, state) := call m.state
  (result, ⟨state, m.entries ++ [⟨event, result.toBool⟩]⟩)

/-- A checkout whose calls are put on the minutes. -/
def checkout (c : Checkout σ) : Checkout (Minutes σ) where
  root := c.root
  create revision := taken (.create c.root revision) (c.create revision)
  setRevision revision := taken (.setRevision c.root revision) (c.setRevision revision)
  revision := taken (.revision c.root) c.revision
  branch := taken (.branch c.root) c.branch
  remote := taken (.remote c.root) c.remote

/-- A resolver whose calls are put on the minutes, as are those of the checkouts it yields. -/
def resolver (r : RepoResolver σ) : RepoResolver (Minutes σ) where
  resolve importPath pin m :=
    let (result, m) := taken (.resolve importPath pin) (r.resolve importPath pin) m
    (result.map checkout, m)

/-- A reader whose calls are put on the minutes. -/
def reader (r : PackageReader σ) : PackageReader (Minutes σ) where
  read dir m :=
    let (found, state) := r.read dir m.state
    (found, ⟨state, m.entries ++ [⟨.read dir, found.error.isNone⟩]⟩)

/-- The disk beside minutes. -/
def files (f : Files σ) : Files (Minutes σ) := f.lift state

/-! ## What is put on the minutes -/

variable {r : RepoResolver σ} {package : String} {pin : Option Pin} {m m' : Minutes σ}

/-- A call that is put on the minutes does what it does. -/
theorem taken_eq {event : Event} {call : Attempt σ α} {result : Except Fault α}
    (h : taken event call m = (result, m')) :
    call m.state = (result, m'.state) ∧
      m'.entries = m.entries ++ [⟨event, result.toBool⟩] := by
  obtain ⟨rfl, rfl⟩ := Prod.mk.inj h
  exact ⟨rfl, rfl⟩

/-- A repository that is not found is not found without minutes. -/
theorem resolve_eq_error {cause : Fault}
    (asked : (resolver r).resolve package pin m = (.error cause, m')) :
    r.resolve package pin m.state = (.error cause, m'.state) ∧
      m'.entries = m.entries ++ [⟨.resolve package pin, false⟩] := by
  unfold resolver taken at asked
  rcases inner : r.resolve package pin m.state with ⟨_ | c, s⟩ <;>
    simp only [inner] at asked <;> cases asked
  exact ⟨rfl, rfl⟩

/-- A repository that is found is one found without minutes, and its calls are put on them. -/
theorem resolve_eq_ok {outer : Checkout (Minutes σ)}
    (asked : (resolver r).resolve package pin m = (.ok outer, m')) :
    ∃ inner, r.resolve package pin m.state = (.ok inner, m'.state) ∧ outer = checkout inner ∧
      m'.entries = m.entries ++ [⟨.resolve package pin, true⟩] := by
  unfold resolver taken at asked
  rcases inner : r.resolve package pin m.state with ⟨_ | c, s⟩ <;>
    simp only [inner] at asked <;> cases asked
  exact ⟨c, rfl, rfl, rfl⟩

/-- **A repository that is found and fetched** puts two calls on the minutes. -/
theorem entries_of_create {outer : Checkout (Minutes σ)} {revision : Option String}
    {result : Except Fault Unit} {m'' : Minutes σ}
    (asked : (resolver r).resolve package pin m = (.ok outer, m'))
    (done : outer.create revision m' = (result, m'')) :
    m''.entries = m.entries ++
      [⟨.resolve package pin, true⟩, ⟨.create outer.root revision, result.toBool⟩] := by
  obtain ⟨inner, -, rfl, found⟩ := resolve_eq_ok asked
  obtain ⟨-, added⟩ := taken_eq done
  rwa [found, List.append_assoc] at added

theorem entries_of_setRevision {outer : Checkout (Minutes σ)} {revision : String}
    {result : Except Fault Unit} {m'' : Minutes σ}
    (asked : (resolver r).resolve package pin m = (.ok outer, m'))
    (done : outer.setRevision revision m' = (result, m'')) :
    m''.entries = m.entries ++
      [⟨.resolve package pin, true⟩, ⟨.setRevision outer.root revision, result.toBool⟩] := by
  obtain ⟨inner, -, rfl, found⟩ := resolve_eq_ok asked
  obtain ⟨-, added⟩ := taken_eq done
  rwa [found, List.append_assoc] at added

end Minutes

variable {σ : Type}

/-- An operation's means with minutes. -/
def Means.minuting (means : Means σ) : Means (Minutes σ) where
  files := Minutes.files means.files
  reader := Minutes.reader means.reader
  resolver := Minutes.resolver means.resolver
  budget := means.budget

namespace LoadPlan

/-- A load plan with minutes. -/
def minuting (plan : LoadPlan σ) : LoadPlan (Minutes σ) where
  workspace := plan.workspace
  pins := plan.pins
  update := plan.update
  files := Minutes.files plan.files
  resolver := Minutes.resolver plan.resolver
  reader := Minutes.reader plan.reader

/-- **The plan is what the plan with minutes is in the state.** -/
theorem projects_minuting (plan : LoadPlan σ) : plan.minuting.Projects Minutes.state plan where
  workspace := rfl
  pins := rfl
  update := rfl
  kind _ _ := rfl
  refuses package pin m cause m' refused := (Minutes.resolve_eq_error refused).1
  finds package pin m outer m' found := by
    obtain ⟨inner, asked, rfl, -⟩ := Minutes.resolve_eq_ok found
    exact ⟨inner, asked, rfl, fun _ _ => rfl, fun _ _ => rfl⟩

/-- **Loading has the same result with minutes.** -/
theorem load_minuting (plan : LoadPlan σ) (package : String) (loader : Loader) (m : Minutes σ) :
    plan.load package loader m.state =
      ((plan.minuting.load package loader m).1, (plan.minuting.load package loader m).2.1,
        (plan.minuting.load package loader m).2.2.state) :=
  plan.projects_minuting.load (fun _ _ => rfl) package loader m

end LoadPlan

/-- **Getting has the same result with minutes.** -/
theorem Project.get_minuting (p : Project) (means : Means σ) (paths : List String)
    (m : Minutes σ) :
    p.get means paths m.state =
      ((p.get means.minuting paths m).1, (p.get means.minuting paths m).2.state) := by
  have projects : (p.loadPlan means.minuting).Projects Minutes.state (p.loadPlan means) :=
    (p.loadPlan means).projects_minuting
  exact get_project projects (fun _ _ => rfl) rfl paths m

end Depot
