import Depot.Proofs.Loader.Beside

/-!
# What loading does to repositories

Which repositories are fetched and moved while packages are loaded, for which package, whether it
went well, and what the surroundings were like before and after: a chronicle keeps an account of
each of these deeds, and of each reading of a package, beside the state that the calls work on.
Loading and getting have the same results with a chronicle (`projects_chronicling`,
`get_chronicling`), so what it tells is what they do.

Having a package on disk adds at most one account (`telling_provide`), and reading it adds one more
(`recounting_load`).
-/

namespace Depot

/-- **A deed of the loader.** -/
inductive Deed where
  /-- The package in a directory is read. -/
  | read (dir : Path)
  /-- The repository found for a package, under the pin that governs it, is fetched, at a revision
  if one is given. -/
  | create (package : String) (pin : Option Pin) (root : String) (revision : Option String)
  /-- The repository found for a package, under the pin that governs it, is moved to a revision. -/
  | setRevision (package : String) (pin : Option Pin) (root revision : String)
  deriving DecidableEq, Repr

/-- **A deed with what came of it.** -/
structure Account (σ : Type) where
  /-- What was done. -/
  deed : Deed
  /-- Whether it went well. -/
  succeeded : Bool
  /-- The state before. -/
  before : σ
  /-- The state after. -/
  after : σ

/-- **A state with accounts of the deeds that led to it**, earliest first. -/
structure Chronicle (σ : Type) where
  /-- The state. -/
  state : σ
  /-- The accounts. -/
  accounts : List (Account σ) := []

namespace Chronicle

variable {σ α : Type}

/-- A call that is not written down. -/
def attempt (call : Attempt σ α) : Attempt (Chronicle σ) α := fun c =>
  let (result, state) := call c.state
  (result, { c with state })

/-- A call that is written down. -/
def written (deed : Deed) (call : Attempt σ α) : Attempt (Chronicle σ) α := fun c =>
  let (result, state) := call c.state
  (result, ⟨state, c.accounts ++ [⟨deed, result.toBool, c.state, state⟩]⟩)

/-- A checkout found for a package, whose deeds are written down. -/
def checkout (package : String) (pin : Option Pin) (c : Checkout σ) : Checkout (Chronicle σ) where
  root := c.root
  create revision := written (.create package pin c.root revision) (c.create revision)
  setRevision revision :=
    written (.setRevision package pin c.root revision) (c.setRevision revision)
  revision := attempt c.revision
  branch := attempt c.branch
  remote := attempt c.remote

/-- A resolver beside a chronicle. -/
def resolver (r : RepoResolver σ) : RepoResolver (Chronicle σ) where
  resolve importPath pin c :=
    let (result, c) := attempt (r.resolve importPath pin) c
    (result.map (checkout importPath pin), c)

/-- A reader whose calls are written down. -/
def reader (r : PackageReader σ) : PackageReader (Chronicle σ) where
  read dir c :=
    let (found, state) := r.read dir c.state
    (found, ⟨state, c.accounts ++ [⟨.read dir, found.error.isNone, c.state, state⟩]⟩)

/-- The disk beside a chronicle. -/
def files (f : Files σ) : Files (Chronicle σ) := f.lift state

/-! ## What is written down -/

variable {r : RepoResolver σ} {package : String} {pin : Option Pin} {c c' : Chronicle σ}

theorem eq_of_accounts {accounts : List (Account σ)} (h : c.accounts = accounts) :
    c = ⟨c.state, accounts⟩ := by
  rw [← h]

/-- A call that is written down does what it does, and an account of it is added. -/
theorem written_eq {deed : Deed} {call : Attempt σ α} {result : Except Fault α}
    (h : written deed call c = (result, c')) :
    call c.state = (result, c'.state) ∧
      c'.accounts = c.accounts ++ [⟨deed, result.toBool, c.state, c'.state⟩] := by
  obtain ⟨rfl, rfl⟩ := Prod.mk.inj h
  exact ⟨rfl, rfl⟩

/-- A repository that is not found is not found without a chronicle. -/
theorem resolve_eq_error {cause : Fault}
    (asked : (resolver r).resolve package pin c = (.error cause, c')) :
    r.resolve package pin c.state = (.error cause, c'.state) ∧ c'.accounts = c.accounts := by
  unfold resolver attempt at asked
  rcases inner : r.resolve package pin c.state with ⟨_ | checkout, s⟩ <;>
    simp only [inner] at asked <;> cases asked
  exact ⟨rfl, rfl⟩

/-- A repository that is found is one found without a chronicle, and its deeds are written down. -/
theorem resolve_eq_ok {outer : Checkout (Chronicle σ)}
    (asked : (resolver r).resolve package pin c = (.ok outer, c')) :
    ∃ inner, r.resolve package pin c.state = (.ok inner, c'.state) ∧
      outer = checkout package pin inner ∧ c'.accounts = c.accounts := by
  unfold resolver attempt at asked
  rcases inner : r.resolve package pin c.state with ⟨_ | checkout, s⟩ <;>
    simp only [inner] at asked <;> cases asked
  exact ⟨checkout, rfl, rfl, rfl⟩

end Chronicle

variable {σ : Type}

/-- An operation's means beside a chronicle. -/
def Means.chronicling (means : Means σ) : Means (Chronicle σ) where
  files := Chronicle.files means.files
  reader := Chronicle.reader means.reader
  resolver := Chronicle.resolver means.resolver
  budget := means.budget

/-- A load plan beside a chronicle. -/
def LoadPlan.chronicling (plan : LoadPlan σ) : LoadPlan (Chronicle σ) where
  workspace := plan.workspace
  pins := plan.pins
  update := plan.update
  files := Chronicle.files plan.files
  resolver := Chronicle.resolver plan.resolver
  reader := Chronicle.reader plan.reader

namespace LoadPlan

variable {plan : LoadPlan σ} {package : String} {pinned : StringSet} {c c' : Chronicle σ}

/-- **The plan is what the plan with a chronicle is in the state.** -/
theorem projects_chronicling (plan : LoadPlan σ) :
    plan.chronicling.Projects Chronicle.state plan where
  workspace := rfl
  pins := rfl
  update := rfl
  kind _ _ := rfl
  refuses package pin c cause c' refused := (Chronicle.resolve_eq_error refused).1
  finds package pin c outer c' found := by
    obtain ⟨inner, asked, rfl, -⟩ := Chronicle.resolve_eq_ok found
    exact ⟨inner, asked, rfl, fun _ _ => rfl, fun _ _ => rfl⟩

/-! ## What is told of one package -/

/-- **What having a package on disk comes to, with a chronicle**: which account is added, if any,
and what was the case when the deed was done. -/
inductive Telling (plan : LoadPlan σ) (package : String) (pinned : StringSet) (c : Chronicle σ) :
    Except LoadError StringSet × Chronicle σ → Prop
  /-- Nothing is done, but perhaps a repository asked for that is not found. If all is well, the
  package is there, and its pin needs nothing. -/
  | idle {outcome : Except LoadError StringSet} {s : σ}
      (same : s = c.state ∨ ∃ cause, plan.repositoryOf package c.state = (.error cause, s))
      (well : ∀ pinned', outcome = .ok pinned' → pinned' = pinned ∧
        plan.kindOf package c.state = .ok .directory ∧
        (plan.update = true → ∀ pin, Pin.firstFor plan.pins package = some pin →
          ∀ revision, pin.revision = some revision → pin.root ∈ pinned)) :
      Telling plan package pinned c (outcome, ⟨s, c.accounts⟩)
  /-- The package is missing, and its repository is to be fetched. -/
  | fetch {checkout : Checkout σ} {s s' : σ} {result : Except Fault Unit}
      (missing : plan.kindOf package c.state = .error .notFound)
      (asked : plan.repositoryOf package c.state = (.ok checkout, s))
      (done : checkout.create ((Pin.firstFor plan.pins package).bind (·.revision)) s =
        (result, s')) :
      Telling plan package pinned c
        ((result.mapError (.notFetched package checkout.root)).map fun () =>
            settle pinned (Pin.firstFor plan.pins package),
          ⟨s', c.accounts ++ [⟨.create package (Pin.firstFor plan.pins package) checkout.root
            ((Pin.firstFor plan.pins package).bind (·.revision)), result.toBool, s, s'⟩]⟩)
  /-- The package is there, and its repository is to be moved. -/
  | move {pin : Pin} {revision : String} {checkout : Checkout σ} {s s' : σ}
      {result : Except Fault Unit}
      (there : plan.kindOf package c.state = .ok .directory) (update : plan.update = true)
      (governed : Pin.firstFor plan.pins package = some pin)
      (declared : pin.revision = some revision) (unsettled : pin.root ∉ pinned)
      (asked : plan.repositoryOf package c.state = (.ok checkout, s))
      (done : checkout.setRevision revision s = (result, s')) :
      Telling plan package pinned c
        ((result.mapError (.notMoved package)).map fun () => pinned.insert pin.root,
          ⟨s', c.accounts ++ [⟨.setRevision package (some pin) checkout.root revision,
            result.toBool, s, s'⟩]⟩)

/-- **One of these is what having a package on disk comes to.** -/
theorem telling_provide (plan : LoadPlan σ) (package : String) (pinned : StringSet)
    (c : Chronicle σ) :
    plan.Telling package pinned c (plan.chronicling.provide package pinned c) := by
  have providing := plan.chronicling.providing_provide package pinned c
  generalize plan.chronicling.provide package pinned c = told at providing ⊢
  cases providing with
  | occupied _ => exact .idle (.inl rfl) fun _ h => by cases h
  | unreachable _ _ => exact .idle (.inl rfl) fun _ h => by cases h
  | unknown _ asked | stray _ _ _ _ _ asked =>
    obtain ⟨refused, same⟩ := Chronicle.resolve_eq_error asked
    rw [Chronicle.eq_of_accounts same]
    exact .idle (.inr ⟨_, refused⟩) fun _ h => by cases h
  | notFetched missing asked done | fetched missing asked done =>
    obtain ⟨inner, found, rfl, same⟩ := Chronicle.resolve_eq_ok asked
    obtain ⟨done, added⟩ := Chronicle.written_eq done
    rw [same] at added
    rw [Chronicle.eq_of_accounts added]
    exact .fetch missing found done
  | stays there settled =>
    refine .idle (.inl rfl) fun pinned' h => ?_
    obtain rfl := Except.ok.inj h
    exact ⟨rfl, there, settled⟩
  | @notMoved pin revision _ _ _ _ there update governed declared unsettled asked done
  | @moved pin revision _ _ _ there update governed declared unsettled asked done =>
    obtain ⟨inner, found, rfl, same⟩ := Chronicle.resolve_eq_ok asked
    obtain ⟨done, added⟩ := Chronicle.written_eq done
    have governed' : Pin.firstFor plan.chronicling.pins package = some pin := governed
    rw [same, governed'] at added
    rw [Chronicle.eq_of_accounts added]
    exact .move there update governed declared unsettled found done

/-- **What loading a package comes to, with a chronicle**: what providing it adds, and then an
account of its reading. -/
inductive Recounting (plan : LoadPlan σ) (package : String) (loader : Loader) (c : Chronicle σ) :
    Except LoadError Unit × Loader × Chronicle σ → Prop
  /-- The package is not provided. -/
  | refused {cause : LoadError} {c' : Chronicle σ}
      (telling : plan.Telling package loader.pinned c (.error cause, c')) :
      Recounting plan package loader c (.error cause, loader, c')
  /-- The package is provided, but cannot be read. -/
  | unread {pinned : StringSet} {c' : Chronicle σ} {found : PackageImports} {cause : ReadError}
      {s : σ} (telling : plan.Telling package loader.pinned c (.ok pinned, c'))
      (read : plan.reader.read (plan.workspace.packageSource package) c'.state = (found, s))
      (faulty : found.error = some cause) :
      Recounting plan package loader c (.error (.unread package cause), { loader with pinned },
        ⟨s, c'.accounts ++
          [⟨.read (plan.workspace.packageSource package), false, c'.state, s⟩]⟩)
  /-- The package is provided, read and recorded. -/
  | recorded {pinned : StringSet} {c' : Chronicle σ} {found : PackageImports} {s : σ}
      (telling : plan.Telling package loader.pinned c (.ok pinned, c'))
      (read : plan.reader.read (plan.workspace.packageSource package) c'.state = (found, s))
      (sound : found.error = none) :
      Recounting plan package loader c (.ok (), ⟨loader.graph.record package found.imports, pinned⟩,
        ⟨s, c'.accounts ++
          [⟨.read (plan.workspace.packageSource package), true, c'.state, s⟩]⟩)

/-- **One of these is what loading a package comes to.** -/
theorem recounting_load (plan : LoadPlan σ) (package : String) (loader : Loader)
    (c : Chronicle σ) :
    plan.Recounting package loader c (plan.chronicling.load package loader c) := by
  have telling := plan.telling_provide package loader.pinned c
  rcases provided : plan.chronicling.provide package loader.pinned c with ⟨cause | pinned, c'⟩ <;>
    rw [provided] at telling
  · rw [load_of_provide_error provided]
    exact .refused telling
  · rw [load_of_provide_ok provided]
    rcases read : plan.reader.read (plan.workspace.packageSource package) c'.state with ⟨found, s⟩
    simp only [chronicling, Chronicle.reader, read, PackageImports.toExcept]
    cases ended : found.error with
    | some cause => exact .unread telling read ended
    | none => exact .recorded telling read ended

/-! ## What is told of a run -/

/-- **A run of the loader**: packages are loaded one after another, whatever comes of each. -/
def loadAll (plan : LoadPlan σ) (packages : List String) (loader : Loader) (s : σ) : Loader × σ :=
  packages.foldl (fun (loader, s) package => (plan.load package loader s).2) (loader, s)

/-- The last package of a run is loaded where the run stood before it. -/
theorem loadAll_concat (packages : List String) (package : String) (loader : Loader) (s : σ) :
    plan.loadAll (packages ++ [package]) loader s =
      (plan.load package (plan.loadAll packages loader s).1
        (plan.loadAll packages loader s).2).2 :=
  List.foldl_append ..

end LoadPlan

/-- **Getting has the same result with a chronicle.** -/
theorem Project.get_chronicling (p : Project) (means : Means σ) (paths : List String)
    (c : Chronicle σ) :
    p.get means paths c.state =
      ((p.get means.chronicling paths c).1, (p.get means.chronicling paths c).2.state) := by
  have projects : (p.loadPlan means.chronicling).Projects Chronicle.state (p.loadPlan means) :=
    (p.loadPlan means).projects_chronicling
  exact get_project projects (fun _ _ => rfl) rfl paths c

end Depot
