import Depot.Loader
import Depot.Proofs.Graph

/-!
# What loading a package does

Loading either fails before the package is read, because the package could not be provided, or it
reads the package once. Only a package that was read without error enters the graph. `Providing`
says all that providing a package can come to: a package that is missing has its repository fetched,
one that is there has it moved if its pin asks for it, and nothing else is done.
-/

namespace Depot.LoadPlan

variable {σ : Type} {plan : LoadPlan σ} {package : String} {loader loader' : Loader} {s s₁ s' : σ}

/-! ## Having a package on disk -/

/-- What is on disk where a package should be. -/
def kindOf (plan : LoadPlan σ) (package : String) (s : σ) : Except OsError FileKind :=
  plan.files.kind (plan.workspace.packageSource package) s

/-- The repository of a package, as the resolver tells it under the pin that governs the package. -/
def repositoryOf (plan : LoadPlan σ) (package : String) : Attempt σ (Checkout σ) :=
  plan.resolver.resolve package (Pin.firstFor plan.pins package)

/-- **What having a package on disk comes to**, given the roots of the pins that are settled. -/
inductive Providing (plan : LoadPlan σ) (package : String) (pinned : StringSet) (s : σ) :
    Except LoadError StringSet × σ → Prop
  /-- There is a file in its place. -/
  | occupied (kind : plan.kindOf package s = .ok .file) :
      Providing plan package pinned s
        (.error (.notADirectory (plan.workspace.packageSource package)), s)
  /-- The system does not say what is in its place. -/
  | unreachable {cause : OsError} (kind : plan.kindOf package s = .error cause)
      (other : cause ≠ .notFound) :
      Providing plan package pinned s
        (.error (.unreachable package (plan.workspace.packageSource package) cause), s)
  /-- It is missing, and no repository is known for it. -/
  | unknown {cause : Fault} {s' : σ} (missing : plan.kindOf package s = .error .notFound)
      (asked : plan.repositoryOf package s = (.error cause, s')) :
      Providing plan package pinned s (.error (.unresolved package cause), s')
  /-- It is missing, and its repository cannot be fetched. -/
  | notFetched {checkout : Checkout σ} {cause : Fault} {s' s'' : σ}
      (missing : plan.kindOf package s = .error .notFound)
      (asked : plan.repositoryOf package s = (.ok checkout, s'))
      (refused : checkout.create ((Pin.firstFor plan.pins package).bind (·.revision)) s' =
        (.error cause, s'')) :
      Providing plan package pinned s (.error (.notFetched package checkout.root cause), s'')
  /-- It is missing, and its repository is fetched. -/
  | fetched {checkout : Checkout σ} {s' s'' : σ}
      (missing : plan.kindOf package s = .error .notFound)
      (asked : plan.repositoryOf package s = (.ok checkout, s'))
      (created : checkout.create ((Pin.firstFor plan.pins package).bind (·.revision)) s' =
        (.ok (), s'')) :
      Providing plan package pinned s (.ok (settle pinned (Pin.firstFor plan.pins package)), s'')
  /-- It is there, and nothing asks for its repository to be moved. -/
  | stays (there : plan.kindOf package s = .ok .directory)
      (settled : plan.update = true → ∀ pin, Pin.firstFor plan.pins package = some pin →
        ∀ revision, pin.revision = some revision → pin.root ∈ pinned) :
      Providing plan package pinned s (.ok pinned, s)
  /-- It is there, and its repository is to be moved, but not known. -/
  | stray {pin : Pin} {revision : String} {cause : Fault} {s' : σ}
      (there : plan.kindOf package s = .ok .directory) (update : plan.update = true)
      (governed : Pin.firstFor plan.pins package = some pin)
      (declared : pin.revision = some revision) (unsettled : pin.root ∉ pinned)
      (asked : plan.repositoryOf package s = (.error cause, s')) :
      Providing plan package pinned s (.error (.unresolved package cause), s')
  /-- It is there, and its repository cannot be moved. -/
  | notMoved {pin : Pin} {revision : String} {checkout : Checkout σ} {cause : Fault} {s' s'' : σ}
      (there : plan.kindOf package s = .ok .directory) (update : plan.update = true)
      (governed : Pin.firstFor plan.pins package = some pin)
      (declared : pin.revision = some revision) (unsettled : pin.root ∉ pinned)
      (asked : plan.repositoryOf package s = (.ok checkout, s'))
      (refused : checkout.setRevision revision s' = (.error cause, s'')) :
      Providing plan package pinned s (.error (.notMoved package cause), s'')
  /-- It is there, and its repository is moved. -/
  | moved {pin : Pin} {revision : String} {checkout : Checkout σ} {s' s'' : σ}
      (there : plan.kindOf package s = .ok .directory) (update : plan.update = true)
      (governed : Pin.firstFor plan.pins package = some pin)
      (declared : pin.revision = some revision) (unsettled : pin.root ∉ pinned)
      (asked : plan.repositoryOf package s = (.ok checkout, s'))
      (set : checkout.setRevision revision s' = (.ok (), s'')) :
      Providing plan package pinned s (.ok (pinned.insert pin.root), s'')

/-- **One of these is what having a package on disk comes to.** -/
theorem providing_provide (plan : LoadPlan σ) (package : String) (pinned : StringSet) (s : σ) :
    plan.Providing package pinned s (plan.provide package pinned s) := by
  unfold provide
  dsimp only
  rcases kind : plan.kindOf package s with cause | _ | _ <;> unfold kindOf at kind <;> rw [kind]
  · by_cases missing : cause = .notFound
    · subst missing
      show plan.Providing package pinned s (plan.fetch package _ pinned s)
      unfold fetch
      split
      · next asked => exact .unknown kind asked
      · next asked =>
        split
        · next refused => exact .notFetched kind asked refused
        · next created => exact .fetched kind asked created
    · have blocked : plan.Providing package pinned s _ := .unreachable kind missing
      cases cause <;> first | exact blocked | exact absurd rfl missing
  · dsimp only
    split
    · next pin update governed =>
      split
      · next revision declared =>
        unfold move
        split
        · next settled =>
          refine .stays kind fun _ pin' governed' _ _ => ?_
          obtain rfl := Option.some.inj (governed.symm.trans governed')
          exact (StringSet.contains_iff pinned pin.root).1 settled
        · next unsettled =>
          have unsettled : pin.root ∉ pinned := fun h =>
            unsettled ((StringSet.contains_iff pinned pin.root).2 h)
          have asking : plan.repositoryOf package = plan.resolver.resolve package (some pin) := by
            unfold repositoryOf
            rw [governed]
          split
          · next asked =>
            exact .stray kind update governed declared unsettled (asking ▸ asked)
          · next asked =>
            split
            · next refused =>
              exact .notMoved kind update governed declared unsettled (asking ▸ asked) refused
            · next set =>
              exact .moved kind update governed declared unsettled (asking ▸ asked) set
      · next undeclared =>
        refine .stays kind fun _ pin' governed' revision declared => ?_
        obtain rfl := Option.some.inj (governed.symm.trans governed')
        cases undeclared.symm.trans declared
    · next idle =>
      exact .stays kind fun update pin governed => absurd governed (idle pin update)
  · exact .occupied kind

/-- **Nothing else comes of it**: each of the cases says what the outcome is. -/
theorem provide_of_providing {pinned : StringSet} {outcome : Except LoadError StringSet × σ}
    (h : plan.Providing package pinned s outcome) : plan.provide package pinned s = outcome := by
  -- the repository of a package that is there is asked for under the very pin that governs it
  have move {pin : Pin} {revision : String} (there : plan.kindOf package s = .ok .directory)
      (update : plan.update = true) (governed : Pin.firstFor plan.pins package = some pin)
      (declared : pin.revision = some revision) :
      plan.provide package pinned s = plan.move package pin revision pinned s := by
    unfold kindOf at there
    simp only [provide, there, update, governed, declared]
  have asking {pin : Pin} (governed : Pin.firstFor plan.pins package = some pin) :
      plan.resolver.resolve package (some pin) = plan.repositoryOf package := by
    unfold repositoryOf
    rw [governed]
  have fetch (missing : plan.kindOf package s = .error .notFound) :
      plan.provide package pinned s =
        plan.fetch package (Pin.firstFor plan.pins package) pinned s := by
    unfold kindOf at missing
    simp only [provide, missing]
  have unsettled {pin : Pin} (h : pin.root ∉ pinned) : pinned.contains pin.root = false :=
    Bool.eq_false_iff.2 fun held => h ((StringSet.contains_iff _ _).1 held)
  cases h with
  | occupied kind =>
    unfold kindOf at kind
    simp only [provide, kind]
  | unreachable kind other =>
    unfold kindOf at kind
    simp only [provide, kind]
  | unknown missing asked =>
    unfold repositoryOf at asked
    rw [fetch missing, LoadPlan.fetch, asked]
  | notFetched missing asked refused =>
    unfold repositoryOf at asked
    simp only [fetch missing, LoadPlan.fetch, asked, refused]
  | fetched missing asked created =>
    unfold repositoryOf at asked
    simp only [fetch missing, LoadPlan.fetch, asked, created]
  | stays there settled =>
    rcases update : plan.update with _ | _
    · unfold kindOf at there
      simp only [provide, there, update]
    · rcases governed : Pin.firstFor plan.pins package with _ | pin
      · unfold kindOf at there
        simp only [provide, there, update, governed]
      · rcases declared : pin.revision with _ | revision
        · unfold kindOf at there
          simp only [provide, there, update, governed, declared]
        · have held : pinned.contains pin.root = true :=
            (StringSet.contains_iff _ _).2 (settled update pin governed revision declared)
          simp only [move there update governed declared, LoadPlan.move, held, if_true]
  | stray there update governed declared free asked =>
    simp only [move there update governed declared, LoadPlan.move, unsettled free, asking governed,
      asked, Bool.false_eq_true, if_false]
  | notMoved there update governed declared free asked refused =>
    simp only [move there update governed declared, LoadPlan.move, unsettled free, asking governed,
      asked, refused, Bool.false_eq_true, if_false]
  | moved there update governed declared free asked set =>
    simp only [move there update governed declared, LoadPlan.move, unsettled free, asking governed,
      asked, set, Bool.false_eq_true, if_false]

/-! ## Reading it -/

theorem load_of_provide_error {e : LoadError}
    (h : plan.provide package loader.pinned s = (.error e, s₁)) :
    plan.load package loader s = (.error e, loader, s₁) := by
  rw [load, h]

theorem load_of_provide_ok {pinned : StringSet}
    (h : plan.provide package loader.pinned s = (.ok pinned, s₁)) :
    plan.load package loader s =
      let read := plan.reader.read (plan.workspace.packageSource package) s₁
      match read.1.toExcept with
      | .error cause => (.error (.unread package cause), { loader with pinned }, read.2)
      | .ok imports => (.ok (), ⟨loader.graph.record package imports, pinned⟩, read.2) := by
  rewrite [load, h]
  rfl

/-- **What it takes to load a package**: it is provided, read without error, and recorded. -/
theorem load_eq_ok (h : plan.load package loader s = (.ok (), loader', s')) :
    ∃ pinned s₁ found, plan.provide package loader.pinned s = (.ok pinned, s₁) ∧
      plan.reader.read (plan.workspace.packageSource package) s₁ = (found, s') ∧
      found.error = none ∧ loader' = ⟨loader.graph.record package found.imports, pinned⟩ := by
  rcases provided : plan.provide package loader.pinned s with ⟨cause | pinned, s₁⟩
  · rw [load_of_provide_error provided] at h
    cases congrArg Prod.fst h
  · rw [load_of_provide_ok provided] at h
    rcases read : plan.reader.read (plan.workspace.packageSource package) s₁ with ⟨found, s₂⟩
    simp only [read, PackageImports.toExcept] at h
    cases faulty : found.error with
    | some cause =>
      rw [faulty] at h
      cases congrArg Prod.fst h
    | none =>
      rw [faulty] at h
      obtain ⟨rfl, rfl⟩ : _ ∧ _ := by simpa using h
      exact ⟨pinned, s₁, found, rfl, read, faulty, rfl⟩

/-- **A package that is handled is loaded**, and never skipped. -/
theorem handle_eq_ok {visit : Visit} {before after : Loader × σ}
    (h : plan.visitor.handle package before = (.ok visit, after)) :
    visit = .descend ∧ plan.load package before.1 before.2 = (.ok (), after) := by
  have handled : plan.visitor.handle package before =
      ((plan.load package before.1 before.2).1.map fun () => .descend,
        (plan.load package before.1 before.2).2) := rfl
  rw [handled] at h
  rcases loaded : plan.load package before.1 before.2 with ⟨cause | ⟨⟩, rest⟩
  · rw [loaded] at h
    cases congrArg Prod.fst h
  · rw [loaded] at h
    obtain ⟨e, rfl⟩ := Prod.mk.inj h
    exact ⟨(Except.ok.inj e).symm, rfl⟩

theorem handle_of_load {before after : Loader × σ}
    (h : plan.load package before.1 before.2 = (.ok (), after)) :
    plan.visitor.handle package before = (.ok .descend, after) := by
  simp only [visitor, h]
  rfl

/-- The imports named for a package are those on record. -/
theorem mem_iff_of_importsOf {children : List String}
    (named : importsOf loader package = .ok children) (i : String) :
    i ∈ children ↔ loader.graph.Imports package i := by
  unfold importsOf at named
  rcases found : loader.graph.get? package with _ | dep <;> rw [found] at named
  · cases named
  · obtain rfl := Except.ok.inj named
    rw [Graph.imports_iff found, StringSet.mem_toList]

end Depot.LoadPlan
