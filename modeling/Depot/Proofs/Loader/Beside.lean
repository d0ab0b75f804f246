import Depot.Operation
import Depot.Proofs.Loader
import Depot.Proofs.Walk.Calls

/-!
# Loading beside a larger state

What a loader does can be followed in a state that keeps more than the calls work on: what was read,
say, or which calls were made. Such a state has the old one as a part, and a plan over it does the
same to that part (`Projects`). Loading and getting then have the same results in both, so what is
kept beside the state changes nothing.
-/

namespace Depot

variable {σ τ : Type} {part : τ → σ}

/-- **The checkout `c'` is the checkout `c` as seen in a part of its state**, as far as fetching and
moving go. -/
structure Checkout.Projects (part : τ → σ) (c : Checkout τ) (c' : Checkout σ) : Prop where
  /-- They are of the same repository. -/
  root : c'.root = c.root
  /-- Both are fetched alike. -/
  create : ∀ revision t,
    c'.create revision (part t) = ((c.create revision t).1, part (c.create revision t).2)
  /-- Both are moved alike. -/
  setRevision : ∀ revision t, c'.setRevision revision (part t) =
    ((c.setRevision revision t).1, part (c.setRevision revision t).2)

namespace LoadPlan

/-- **The plan `plan'` is the plan `plan` as seen in a part of its state**, up to the reading of
packages. -/
structure Projects (part : τ → σ) (plan : LoadPlan τ) (plan' : LoadPlan σ) : Prop where
  /-- Packages live in the same places. -/
  workspace : plan'.workspace = plan.workspace
  /-- The pins are the same. -/
  pins : plan'.pins = plan.pins
  /-- Both update, or neither does. -/
  update : plan'.update = plan.update
  /-- The same is on disk. -/
  kind : ∀ dir t, plan'.files.kind dir (part t) = plan.files.kind dir t
  /-- A repository that one does not find is not found by the other. -/
  refuses : ∀ package pin t cause t', plan.resolver.resolve package pin t = (.error cause, t') →
    plan'.resolver.resolve package pin (part t) = (.error cause, part t')
  /-- What one finds is the checkout that the other finds. -/
  finds : ∀ package pin t c t', plan.resolver.resolve package pin t = (.ok c, t') →
    ∃ c', plan'.resolver.resolve package pin (part t) = (.ok c', part t') ∧ c.Projects part c'

theorem Projects.refl (plan : LoadPlan σ) : plan.Projects id plan where
  workspace := rfl
  pins := rfl
  update := rfl
  kind _ _ := rfl
  refuses _ _ _ _ _ refused := refused
  finds _ _ _ c _ found := ⟨c, found, rfl, fun _ _ => rfl, fun _ _ => rfl⟩

variable {plan : LoadPlan τ} {plan' : LoadPlan σ}

/-- **Packages are provided alike.** -/
theorem Projects.provide (projects : Projects part plan plan') (package : String)
    (pinned : StringSet) (t : τ) :
    plan'.provide package pinned (part t) =
      ((plan.provide package pinned t).1, part (plan.provide package pinned t).2) := by
  have governs : Pin.firstFor plan'.pins package = Pin.firstFor plan.pins package := by
    rw [projects.pins]
  have kind : plan'.kindOf package (part t) = plan.kindOf package t := by
    unfold kindOf
    rw [projects.workspace, projects.kind]
  have unfound {cause : Fault} {t' : τ} (asked : plan.repositoryOf package t = (.error cause, t')) :
      plan'.repositoryOf package (part t) = (.error cause, part t') := by
    unfold repositoryOf
    rw [governs]
    exact projects.refuses _ _ _ _ _ asked
  have found {c : Checkout τ} {t' : τ} (asked : plan.repositoryOf package t = (.ok c, t')) :
      ∃ c', plan'.repositoryOf package (part t) = (.ok c', part t') ∧ c.Projects part c' := by
    unfold repositoryOf
    rw [governs]
    exact projects.finds _ _ _ _ _ asked
  apply provide_of_providing
  have providing := plan.providing_provide package pinned t
  generalize plan.provide package pinned t = outcome at providing ⊢
  cases providing with
  | occupied here =>
    rw [← projects.workspace]
    exact .occupied (kind.trans here)
  | unreachable here other =>
    rw [← projects.workspace]
    exact .unreachable (kind.trans here) other
  | unknown missing asked => exact .unknown (kind.trans missing) (unfound asked)
  | notFetched missing asked refused =>
    obtain ⟨c', asked, same⟩ := found asked
    rw [← same.root]
    exact .notFetched (kind.trans missing) asked (by rw [same.create, governs, refused])
  | fetched missing asked created =>
    obtain ⟨c', asked, same⟩ := found asked
    rw [← governs]
    exact .fetched (kind.trans missing) asked (by rw [same.create, governs, created])
  | stays there settled =>
    refine .stays (kind.trans there) ?_
    rw [projects.update, governs]
    exact settled
  | stray there update governed declared unsettled asked =>
    exact .stray (kind.trans there) (projects.update.trans update) (governs.trans governed) declared
      unsettled (unfound asked)
  | notMoved there update governed declared unsettled asked refused =>
    obtain ⟨c', asked, same⟩ := found asked
    exact .notMoved (kind.trans there) (projects.update.trans update) (governs.trans governed)
      declared unsettled asked (by rw [same.setRevision, refused])
  | moved there update governed declared unsettled asked set =>
    obtain ⟨c', asked, same⟩ := found asked
    exact .moved (kind.trans there) (projects.update.trans update) (governs.trans governed) declared
      unsettled asked (by rw [same.setRevision, set])

/-- **Packages are loaded alike**, if they are read alike. -/
theorem Projects.load (projects : Projects part plan plan')
    (read : ∀ dir t, plan'.reader.read dir (part t) =
      ((plan.reader.read dir t).1, part (plan.reader.read dir t).2))
    (package : String) (loader : Loader) (t : τ) :
    plan'.load package loader (part t) =
      ((plan.load package loader t).1, (plan.load package loader t).2.1,
        part (plan.load package loader t).2.2) := by
  have provided := projects.provide package loader.pinned t
  rcases found : plan.provide package loader.pinned t with ⟨cause | pinned, t'⟩ <;>
    rw [found] at provided
  · rw [load_of_provide_error found, load_of_provide_error provided]
  · rw [load_of_provide_ok found, load_of_provide_ok provided, projects.workspace, read]
    dsimp only
    cases (plan.reader.read (plan.workspace.packageSource package) t').1.toExcept <;> rfl

/-- Loading as a visitor is seen in the part of the state. -/
theorem Projects.visitor (projects : Projects part plan plan')
    (read : ∀ dir t, plan'.reader.read dir (part t) =
      ((plan.reader.read dir t).1, part (plan.reader.read dir t).2)) :
    Walk.Projects (fun t : Loader × τ => (t.1, part t.2)) plan.visitor plan'.visitor where
  handle package t := by
    unfold LoadPlan.visitor
    simp only [projects.load read]
  read package t := rfl

end LoadPlan

/-- **Getting has the same result beside a larger state.** -/
theorem Project.get_project {p : Project} {means : Means τ} {means' : Means σ}
    (projects : (p.loadPlan means).Projects part (p.loadPlan means'))
    (read : ∀ dir t, means'.reader.read dir (part t) =
      ((means.reader.read dir t).1, part (means.reader.read dir t).2))
    (budget : means'.budget = means.budget) (paths : List String) (t : τ) :
    p.get means' paths (part t) = ((p.get means paths t).1, part (p.get means paths t).2) := by
  unfold get
  cases p.startsOf paths with
  | error cause => rfl
  | ok starts =>
    have same := Walk.traverseAll_project (projects.visitor read) means.budget starts []
      (({} : Loader), t)
    simp only [budget, same, Walk.project]
    cases (Walk.traverseAll (p.loadPlan means).visitor means.budget starts []
      (({} : Loader), t)).outcome <;> rfl

end Depot
