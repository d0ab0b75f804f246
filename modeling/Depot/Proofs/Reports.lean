import Depot.Proofs.Loader.Beside

/-!
# What readers report

A reader may answer anything, and differently every time. What is assumed of its answers is
therefore said of those it gave in one run: a state keeps, beside what the calls work on, every
directory that was read and what reading it yielded. The disk and the resolver work on such a state
as they do without the reports, so an operation has the same result either way (`get_reporting`).
-/

namespace Depot

/-- **A state with what readers reported**, earliest first. -/
structure Reported (σ : Type) where
  /-- The state. -/
  state : σ
  /-- The directories read, with what was found. -/
  reports : List (Path × PackageImports) := []

namespace Reported

variable {σ α : Type}

/-- A call that reports nothing. -/
def attempt (call : Attempt σ α) : Attempt (Reported σ) α := fun r =>
  let (result, state) := call r.state
  (result, { r with state })

/-- A checkout beside reports. -/
def checkout (c : Checkout σ) : Checkout (Reported σ) where
  root := c.root
  create revision := attempt (c.create revision)
  setRevision revision := attempt (c.setRevision revision)
  revision := attempt c.revision
  branch := attempt c.branch
  remote := attempt c.remote

/-- A resolver beside reports. -/
def resolver (r : RepoResolver σ) : RepoResolver (Reported σ) where
  resolve importPath pin s :=
    let (result, s) := attempt (r.resolve importPath pin) s
    (result.map checkout, s)

/-- A reader whose answers are kept. -/
def reader (r : PackageReader σ) : PackageReader (Reported σ) where
  read dir s :=
    let (found, state) := r.read dir s.state
    (found, ⟨state, s.reports ++ [(dir, found)]⟩)

/-- The disk beside reports. -/
def files (f : Files σ) : Files (Reported σ) := f.lift state

/-- **The answers reported are those of `answer`**: no directory was read with two results. -/
def Agree (answer : Path → PackageImports) (s : Reported σ) : Prop :=
  ∀ report ∈ s.reports, report.2 = answer report.1

/-- Where a report is added that agrees, the earlier ones do. -/
theorem Agree.of_append {answer : Path → PackageImports} {r r' : Reported σ} {dir : Path}
    {found : PackageImports} (h : Agree answer r') (e : r'.reports = r.reports ++ [(dir, found)]) :
    Agree answer r ∧ found = answer dir :=
  ⟨fun report hr => h report (e ▸ List.mem_append_left _ hr), h (dir, found) (by simp [e])⟩

end Reported

variable {σ : Type}

/-- An operation's means beside reports. -/
def Means.reporting (means : Means σ) : Means (Reported σ) where
  files := Reported.files means.files
  reader := Reported.reader means.reader
  resolver := Reported.resolver means.resolver
  budget := means.budget

/-- A load plan beside reports. -/
def LoadPlan.reporting (plan : LoadPlan σ) : LoadPlan (Reported σ) where
  workspace := plan.workspace
  pins := plan.pins
  update := plan.update
  files := Reported.files plan.files
  resolver := Reported.resolver plan.resolver
  reader := Reported.reader plan.reader

/-- A survey beside reports. -/
def Survey.reporting (survey : Survey σ) : Survey (Reported σ) where
  workspace := survey.workspace
  root := survey.root
  avoided := survey.avoided
  files := Reported.files survey.files
  reader := Reported.reader survey.reader

namespace LoadPlan

variable (plan : LoadPlan σ) (package : String)

theorem resolve_reporting (pin : Option Pin) (r : Reported σ) :
    plan.reporting.resolver.resolve package pin r =
      ((plan.resolver.resolve package pin r.state).1.map Reported.checkout,
        ⟨(plan.resolver.resolve package pin r.state).2, r.reports⟩) := rfl

/-- Up to the reading of packages, nothing is reported: the plan does the same beside any reports.
-/
theorem projects_besideReports (reports : List (Path × PackageImports)) :
    plan.Projects (fun s => (⟨s, reports⟩ : Reported σ)) plan.reporting where
  workspace := rfl
  pins := rfl
  update := rfl
  kind _ _ := rfl
  refuses package pin s cause s' refused := by
    rw [resolve_reporting, refused]
    rfl
  finds package pin s c s' found := by
    refine ⟨Reported.checkout c, ?_, rfl, fun _ _ => rfl, fun _ _ => rfl⟩
    rw [resolve_reporting, found]
    rfl

/-- Having a package on disk reports nothing, and does the same beside reports. -/
theorem provide_reporting (pinned : StringSet) (r : Reported σ) :
    plan.reporting.provide package pinned r =
      ((plan.provide package pinned r.state).1,
        ⟨(plan.provide package pinned r.state).2, r.reports⟩) :=
  (plan.projects_besideReports r.reports).provide package pinned r.state

/-- **The plan is what the plan with reports is in the state.** -/
theorem projects_reporting : plan.reporting.Projects Reported.state plan where
  workspace := rfl
  pins := rfl
  update := rfl
  kind _ _ := rfl
  refuses package pin r cause r' refused := by
    rw [resolve_reporting] at refused
    rcases asked : plan.resolver.resolve package pin r.state with ⟨_ | c, s⟩ <;>
      rw [asked] at refused <;> cases refused
    rfl
  finds package pin r c r' found := by
    rw [resolve_reporting] at found
    rcases asked : plan.resolver.resolve package pin r.state with ⟨_ | c, s⟩ <;>
      rw [asked] at found <;> cases found
    exact ⟨c, rfl, rfl, fun _ _ => rfl, fun _ _ => rfl⟩

/-- **What loading a package reports**: what was found in its directory. -/
theorem reports_of_load_eq_ok {plan : LoadPlan σ} {package : String} {loader loader' : Loader}
    {r r' : Reported σ} (h : plan.reporting.load package loader r = (.ok (), loader', r')) :
    ∃ pinned found, r'.reports = r.reports ++ [(plan.workspace.packageSource package, found)] ∧
      found.error = none ∧ loader' = ⟨loader.graph.record package found.imports, pinned⟩ := by
  obtain ⟨pinned, s, found, provided, read, sound, recorded⟩ := load_eq_ok h
  rw [provide_reporting] at provided
  obtain ⟨-, rfl⟩ := Prod.mk.inj provided
  obtain ⟨rfl, rfl⟩ := Prod.mk.inj read
  exact ⟨pinned, _, rfl, sound, recorded⟩

/-- Loading keeps reports in agreement with a reader whose answers never change. -/
theorem agree_load {answer : Path → PackageImports}
    (steady : ∀ dir s, (plan.reader.read dir s).1 = answer dir) (loader : Loader) {r : Reported σ}
    (h : r.Agree answer) : (plan.reporting.load package loader r).2.2.Agree answer := by
  have provided := plan.provide_reporting package loader.pinned r
  rcases found : plan.provide package loader.pinned r.state with ⟨cause | pinned, s⟩ <;>
    rw [found] at provided
  · rw [load_of_provide_error provided]
    exact h
  · rw [load_of_provide_ok provided]
    have agree : ((Reported.reader plan.reader).read (plan.workspace.packageSource package)
        ⟨s, r.reports⟩).2.Agree answer := by
      refine List.forall_mem_append.2 ⟨h, ?_⟩
      intro report hr
      obtain rfl := List.mem_singleton.1 hr
      exact steady _ _
    dsimp only
    split <;> exact agree

end LoadPlan

/-- **Getting has the same result beside reports.** -/
theorem Project.get_reporting (p : Project) (means : Means σ) (paths : List String)
    (r : Reported σ) :
    p.get means paths r.state =
      ((p.get means.reporting paths r).1, (p.get means.reporting paths r).2.state) := by
  have projects : (p.loadPlan means.reporting).Projects Reported.state (p.loadPlan means) :=
    (p.loadPlan means).projects_reporting
  have same := get_project projects (fun _ _ => rfl) rfl paths r
  exact same

end Depot
