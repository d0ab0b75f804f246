import Depot.Proofs.Chronicle
import Depot.Proofs.Get
import Depot.Proofs.Survey.Reach

/-!
# Getting what is there already

With updating off, a package on disk is left as it is, so getting changes the surroundings only
where it fetches. Where it succeeds without having fetched anything, it has done nothing but read:
each package that can be reached was a directory on disk from the beginning, and was read without
error (`Project.get_resident`). Whether something was fetched is told by a chronicle.
-/

namespace Depot

open VisitorCall

variable {σ : Type}

/-- The deed is a fetch. -/
def Deed.IsFetch : Deed → Prop
  | .create .. => True
  | _ => False

/-- **Nothing has been fetched.** -/
def Chronicle.Fetchless (c : Chronicle σ) : Prop := ∀ account ∈ c.accounts, ¬ account.deed.IsFetch

theorem Chronicle.Fetchless.of_append {c c' : Chronicle σ} {accounts : List (Account σ)}
    (h : c'.Fetchless) (grown : c'.accounts = c.accounts ++ accounts) : c.Fetchless :=
  fun account held => h account (grown ▸ List.mem_append_left _ held)

namespace LoadPlan

variable {plan : LoadPlan σ} {package : String} {loader loader' : Loader} {c c' : Chronicle σ}

/-! ## Loading without fetching -/

/-- **A package that is provided without being fetched is there**, and nothing is done. -/
theorem provide_of_fetchless {pinned pinned' : StringSet} (still : plan.update = false)
    (provided : plan.chronicling.provide package pinned c = (.ok pinned', c'))
    (fetchless : c'.Fetchless) : plan.kindOf package c.state = .ok .directory ∧ c' = c := by
  have providing := plan.chronicling.providing_provide package pinned c
  rw [provided] at providing
  cases providing with
  | stays there _ => exact ⟨there, rfl⟩
  | fetched missing asked created =>
    obtain ⟨inner, -, rfl, -⟩ := Chronicle.resolve_eq_ok asked
    obtain ⟨-, told⟩ := Chronicle.written_eq created
    have fetched := fetchless _ (told ▸ List.mem_append_right _ List.mem_cons_self)
    exact absurd trivial fetched
  | moved there update => cases still.symm.trans update

/-- **A package that is loaded without being fetched is there**, and all that is done is to read
it. -/
theorem load_of_fetchless (still : plan.update = false)
    (loaded : plan.chronicling.load package loader c = (.ok (), loader', c'))
    (fetchless : c'.Fetchless) :
    c.Fetchless ∧ plan.kindOf package c.state = .ok .directory ∧
      ∃ pinned found,
        plan.reader.read (plan.workspace.packageSource package) c.state = (found, c'.state) ∧
        found.error = none ∧ loader' = ⟨loader.graph.record package found.imports, pinned⟩ := by
  obtain ⟨pinned, c₁, found, provided, read, sound, recorded⟩ := load_eq_ok loaded
  obtain ⟨rfl, rfl⟩ := Prod.mk.inj read
  have before : c₁.Fetchless := fetchless.of_append rfl
  obtain ⟨there, rfl⟩ := provide_of_fetchless still provided before
  exact ⟨before, there, pinned, _, rfl, sound, recorded⟩

/-- **A package that is there is loaded by reading it.** -/
theorem load_of_there {s s' : σ} {found : PackageImports}
    (still : plan.update = false) (there : plan.kindOf package s = .ok .directory)
    (read : plan.reader.read (plan.workspace.packageSource package) s = (found, s'))
    (sound : found.error = none) :
    plan.load package loader s =
      (.ok (), ⟨loader.graph.record package found.imports, loader.pinned⟩, s') := by
  have stays : plan.Providing package loader.pinned s (.ok loader.pinned, s) :=
    .stays there fun update => by cases still.symm.trans update
  rw [load_of_provide_ok (provide_of_providing stays)]
  simp only [read, PackageImports.toExcept, sound]

/-! ## Where no repository is known -/

/-- **Nothing is fetched for a package whose repository is not found.** -/
theorem fetchless_load (loader : Loader)
    (unknown : ∀ s, ∃ cause s', plan.repositoryOf package s = (.error cause, s'))
    (fetchless : c.Fetchless) : (plan.chronicling.load package loader c).2.2.Fetchless := by
  have told {outcome : Except LoadError StringSet} {c' : Chronicle σ}
      (telling : plan.Telling package loader.pinned c (outcome, c')) : c'.Fetchless := by
    obtain ⟨cause, s, refused⟩ := unknown c.state
    cases telling with
    | idle => exact fetchless
    | fetch _ asked => cases refused.symm.trans asked
    | move _ _ _ _ _ asked => cases refused.symm.trans asked
  have recounting := plan.recounting_load package loader c
  generalize plan.chronicling.load package loader c = loaded at recounting ⊢
  cases recounting with
  | refused telling => exact told telling
  | unread telling => exact List.forall_mem_append.2 ⟨told telling, by simp [Deed.IsFetch]⟩
  | recorded telling => exact List.forall_mem_append.2 ⟨told telling, by simp [Deed.IsFetch]⟩

/-! ## Where reading changes nothing -/

/-- **Reading packages changes nothing** that loading asks for, and the reader answers as told. -/
structure Unchanging (plan : LoadPlan σ) (answer : Path → PackageImports) (s : σ) : Prop where
  /-- What paths lead to stays the same. -/
  kind : ∀ dirs dir,
    plan.files.kind dir (Survey.afterReads plan.reader s dirs) = plan.files.kind dir s
  /-- Each package has one answer. -/
  found : ∀ dirs dir,
    (plan.reader.read dir (Survey.afterReads plan.reader s dirs)).1 = answer dir

variable {answer : Path → PackageImports} {s : σ}

/-- **What getting keeps that does nothing but read**: the packages handled were there from the
beginning, were read without error, and are on record. -/
structure Resident (plan : LoadPlan σ) (answer : Path → PackageImports) (s : σ) (graph : Graph)
    (t : σ) (calls : List (VisitorCall String LoadError)) : Prop where
  /-- The packages handled are on record. -/
  loaded : plan.Loaded answer graph calls
  /-- Nothing has happened but that packages were read. -/
  state_eq : ∃ dirs, t = Survey.afterReads plan.reader s dirs
  /-- The packages were there. -/
  there : ∀ package ∈ handledNodes calls, plan.kindOf package s = .ok .directory
  /-- They were read without error. -/
  sound : ∀ package ∈ handledNodes calls,
    (answer (plan.workspace.packageSource package)).error = none

theorem Resident.nil : plan.Resident answer s .empty s [] where
  loaded := .nil
  state_eq := ⟨[], rfl⟩
  there := by simp
  sound := by simp

section Kept

variable (unchanging : plan.Unchanging answer s) {graph : Graph} {t t' : σ}
  {calls : List (VisitorCall String LoadError)} (kept : plan.Resident answer s graph t calls)
include unchanging kept

/-- What is there is what was there at the beginning. -/
theorem Resident.kindOf_eq (package : String) : plan.kindOf package t = plan.kindOf package s := by
  obtain ⟨dirs, rfl⟩ := kept.state_eq
  exact unchanging.kind dirs _

/-- **Reading one more package that is there** keeps the invariant: the state is one that only
readings led to, so disk and reader answer as they did at the beginning. -/
theorem Resident.descend {pinned : StringSet} {found : PackageImports} {children : List String}
    (there : plan.kindOf package t = .ok .directory)
    (read : plan.reader.read (plan.workspace.packageSource package) t = (found, t'))
    (sound : found.error = none)
    (named : importsOf ⟨graph.record package found.imports, pinned⟩ package = .ok children) :
    plan.Resident answer s (graph.record package found.imports) t'
      (calls ++ [.handle package (.ok .descend)] ++ [.read package (.ok children)]) := by
  obtain ⟨dirs, same⟩ := kept.state_eq
  obtain rfl : found = answer (plan.workspace.packageSource package) := by
    rw [← unchanging.found dirs, ← same]
    exact (congrArg Prod.fst read).symm
  have there' := (kept.kindOf_eq unchanging package).symm.trans there
  exact {
    loaded := kept.loaded.descend named
    state_eq := by
      refine ⟨dirs ++ [plan.workspace.packageSource package], ?_⟩
      rw [Survey.afterReads_concat, ← same]
      exact (congrArg Prod.snd read).symm
    there := by simpa [or_imp, forall_and] using And.intro kept.there there'
    sound := by simpa [or_imp, forall_and] using And.intro kept.sound sound }

end Kept

/-- **Every step keeps the invariant**, as long as nothing is fetched. -/
theorem Resident.step (still : plan.update = false) (unchanging : plan.Unchanging answer s)
    {c c' : Walk.Standing String (Loader × Chronicle σ) LoadError}
    (step : Walk.Step plan.chronicling.visitor c c')
    (h : c.state.2.Fetchless → plan.Resident answer s c.state.1.graph c.state.2.state c.calls)
    (fetchless : c'.state.2.Fetchless) :
    plan.Resident answer s c'.state.1.graph c'.state.2.state c'.calls := by
  cases step with
  | pass seen => exact h fetchless
  | skip new handled => cases (handle_eq_ok handled).1
  | @descend package _ _ _ before after _ _ new handled read =>
    obtain ⟨-, loaded⟩ := handle_eq_ok handled
    obtain ⟨named, rfl⟩ := Prod.mk.inj read
    obtain ⟨earlier, there, pinned, found, answered, sound, recorded⟩ :=
      load_of_fetchless still loaded fetchless
    rw [recorded] at named ⊢
    exact (h earlier).descend unchanging there answered sound named

end LoadPlan

/-- **Where no repository is found, getting fetches nothing.** -/
theorem Project.get_fetchless (p : Project) {means : Means σ}
    (unknown : ∀ package pin s,
      ∃ cause s', means.resolver.resolve package pin s = (.error cause, s'))
    (paths : List String) (s : σ) : (p.get means.chronicling paths ⟨s, []⟩).2.Fetchless :=
  p.get_keeps (P := Chronicle.Fetchless)
    (fun _ loader _ => (p.loadPlan means).fetchless_load loader fun s => unknown _ _ s) paths
    fun _ held => by cases held

/-- **What getting yields that fetches nothing**: the graph of the packages that can be reached, all
of which were on disk and read without error. -/
theorem Project.get_resident (p : Project) (means : Means σ) (paths : List String) (s : σ)
    {answer : Path → PackageImports} {graph : Graph} (still : p.configuration.updates = false)
    (unchanging : (p.loadPlan means).Unchanging answer s)
    (got : (p.get means paths s).1 = .ok graph)
    (fetchless : (p.get means.chronicling paths ⟨s, []⟩).2.Fetchless) :
    ∃ starts packages, p.startsOf paths = .ok starts ∧
      graph = Graph.ofPackages (LoadPlan.importsBy p.workspace answer) packages ∧
      (∀ k, k ∈ packages ↔ Reachable (LoadPlan.importsBy p.workspace answer) starts k) ∧
      ∀ k ∈ packages, means.files.kind (p.workspace.packageSource k) s = .ok .directory ∧
        (answer (p.workspace.packageSource k)).error = none := by
  rw [get_chronicling p means paths ⟨s, []⟩] at got
  rcases result : p.get means.chronicling paths ⟨s, []⟩ with ⟨outcome, c⟩
  rw [result] at got fetchless
  obtain rfl : outcome = .ok graph := got
  obtain ⟨starts, chosen, ended, recorded, rfl⟩ := get_eq_ok result
  have walk := Walk.traverseAll_logged (p.loadPlan means).chronicling.visitor means.budget starts []
    (({} : Loader), (⟨s, []⟩ : Chronicle σ)) []
  change Walk.traverseAll (p.loadPlan means.chronicling).visitor means.chronicling.budget starts []
    (({} : Loader), (⟨s, []⟩ : Chronicle σ)) = _ at walk
  rw [walk] at ended recorded fetchless
  have kept := Walk.traverseAll_induction (v := (p.loadPlan means).chronicling.visitor)
    (motive := fun _ t calls => t.2.Fetchless →
      (p.loadPlan means).Resident answer s t.1.graph t.2.state calls)
    (fun _ _ => .step still unchanging) means.budget starts (fun _ => .nil) ended fetchless
  have read := Walk.traverseAll_induction (v := (p.loadPlan means).chronicling.visitor)
    (motive := fun _ _ calls => readNodes calls = enteredNodes calls)
    (fun _ _ => Walk.readNodes_eq_of_step) means.budget starts rfl ended
  have explored := Walk.traverseAll_explores (p.loadPlan means).chronicling.visitor means.budget
    (.start []) starts ended
  exact ⟨starts, _, chosen, recorded.trans kept.loaded.graph_eq,
    kept.loaded.mem_handledNodes_iff read explored,
    fun k hk => ⟨kept.there k hk, kept.sound k hk⟩⟩

end Depot
