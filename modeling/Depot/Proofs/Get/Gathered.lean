import Depot.Proofs.Failures
import Depot.Proofs.Get.Resident

/-!
# Getting packages that are there

Whether getting does nothing but read can be told from what comes of it. Where updating is off and
all packages of the graph that it yields are on disk, it has not fetched any, and the graph is that
of the packages that can be reached (`Project.get_present`).

It can also be told beforehand. Packages that are all on disk, read without error, and import only
each other are gathered: from any of them, getting comes to its end, and it stays among them
(`Project.get_gathered`). That a budget of their number suffices for each of several traversals is
due to the visited set, which holds only gathered packages, each once.
-/

namespace Depot

open VisitorCall

variable {σ : Type}

namespace LoadPlan

variable {plan : LoadPlan σ} {package : String} {loader loader' : Loader}
  {answer : Path → PackageImports} {s t t' : σ}

/-- **A package that is there and is loaded** was read, and nothing else was done. -/
theorem read_of_load (still : plan.update = false) (there : plan.kindOf package t = .ok .directory)
    (loaded : plan.load package loader t = (.ok (), loader', t')) :
    ∃ found, plan.reader.read (plan.workspace.packageSource package) t = (found, t') ∧
      found.error = none ∧
      loader' = ⟨loader.graph.record package found.imports, loader.pinned⟩ := by
  obtain ⟨pinned, t₁, found, provided, read, sound, recorded⟩ := load_eq_ok loaded
  have stays : plan.Providing package loader.pinned t (.ok loader.pinned, t) :=
    .stays there fun update => by cases still.symm.trans update
  obtain ⟨kept, rfl⟩ := Prod.mk.inj ((provide_of_providing stays).symm.trans provided)
  rw [← Except.ok.inj kept] at recorded
  exact ⟨found, read, sound, recorded⟩

/-- Loading a package puts it on record, and takes nothing off. -/
theorem has_of_load (loaded : plan.load package loader t = (.ok (), loader', t')) {k : String}
    (h : loader.graph.Has k ∨ k = package) : loader'.graph.Has k := by
  obtain ⟨pinned, t₁, found, -, -, -, rfl⟩ := load_eq_ok loaded
  rw [Graph.record_eq_addAll, Graph.has_addAll, Graph.exists_recordsOf]
  exact h.imp_right .inl

/-- **Every step keeps the invariant**, as long as what is on record was there. -/
theorem Resident.step_of_there (still : plan.update = false) (unchanging : plan.Unchanging answer s)
    {c c' : Walk.Standing String (Loader × σ) LoadError} (step : Walk.Step plan.visitor c c')
    (h : (∀ k, c.state.1.graph.Has k → plan.kindOf k s = .ok .directory) →
      plan.Resident answer s c.state.1.graph c.state.2 c.calls)
    (there : ∀ k, c'.state.1.graph.Has k → plan.kindOf k s = .ok .directory) :
    plan.Resident answer s c'.state.1.graph c'.state.2 c'.calls := by
  cases step with
  | pass seen => exact h there
  | skip new handled => cases (handle_eq_ok handled).1
  | @descend package _ _ _ before after _ _ new handled read =>
    obtain ⟨-, loaded⟩ := handle_eq_ok handled
    obtain ⟨named, rfl⟩ := Prod.mk.inj read
    have kept := h fun k hk => there k (has_of_load loaded (.inl hk))
    have here : plan.kindOf package before.2 = .ok .directory :=
      (kept.kindOf_eq unchanging package).trans (there package (has_of_load loaded (.inr rfl)))
    obtain ⟨found, answered, sound, recorded⟩ := read_of_load still here loaded
    rw [recorded] at named ⊢
    exact kept.descend unchanging here answered sound named

end LoadPlan

/-- **What getting yields whose packages are all there**: the graph of the packages that can be
reached, each of which was read without error. -/
theorem Project.get_present (p : Project) (means : Means σ) (paths : List String) (s : σ)
    {answer : Path → PackageImports} {graph : Graph} (still : p.configuration.updates = false)
    (unchanging : (p.loadPlan means).Unchanging answer s)
    (got : (p.get means paths s).1 = .ok graph)
    (there : ∀ k, graph.Has k → (p.loadPlan means).kindOf k s = .ok .directory) :
    ∃ starts packages, p.startsOf paths = .ok starts ∧
      graph = Graph.ofPackages (LoadPlan.importsBy p.workspace answer) packages ∧
      (∀ k, k ∈ packages ↔ Reachable (LoadPlan.importsBy p.workspace answer) starts k) ∧
      ∀ k ∈ packages, (answer (p.workspace.packageSource k)).error = none := by
  rcases result : p.get means paths s with ⟨outcome, after⟩
  rw [result] at got
  obtain rfl : outcome = .ok graph := got
  obtain ⟨starts, chosen, ended, recorded, rfl⟩ := get_eq_ok result
  rw [Walk.traverseAll_logged (p.loadPlan means).visitor means.budget starts []
    (({} : Loader), s) []] at ended recorded
  have kept := Walk.traverseAll_induction (v := (p.loadPlan means).visitor)
    (motive := fun _ t calls =>
      (∀ k, t.1.graph.Has k → (p.loadPlan means).kindOf k s = .ok .directory) →
        (p.loadPlan means).Resident answer s t.1.graph t.2 calls)
    (fun _ _ => .step_of_there still unchanging) means.budget starts (fun _ => .nil) ended
    fun k hk => there k (recorded ▸ hk)
  have read := Walk.traverseAll_induction (v := (p.loadPlan means).visitor)
    (motive := fun _ _ calls => readNodes calls = enteredNodes calls)
    (fun _ _ => Walk.readNodes_eq_of_step) means.budget starts rfl ended
  have explored := Walk.traverseAll_explores (p.loadPlan means).visitor means.budget (.start [])
    starts ended
  exact ⟨starts, _, chosen, recorded.trans kept.loaded.graph_eq,
    kept.loaded.mem_handledNodes_iff read explored, kept.sound⟩

/-! ## Packages that are gathered -/

namespace LoadPlan

/-- **Packages that are gathered**: all are there, are read without error, and import only each
other. -/
structure Gathered (plan : LoadPlan σ) (answer : Path → PackageImports) (s : σ)
    (packages : List String) : Prop where
  /-- They are there. -/
  there : ∀ k ∈ packages, plan.kindOf k s = .ok .directory
  /-- They are read without error. -/
  sound : ∀ k ∈ packages, (answer (plan.workspace.packageSource k)).error = none
  /-- They import only each other. -/
  closed : ∀ k ∈ packages, ∀ i ∈ importsBy plan.workspace answer k, i ∈ packages

/-- **What a walk keeps that begins among gathered packages.** -/
structure Among (plan : LoadPlan σ) (answer : Path → PackageImports) (s : σ)
    (packages visited : List String) (loader : Loader) (t : σ)
    (calls : List (VisitorCall String LoadError)) : Prop where
  /-- Nothing is done but to read. -/
  resident : plan.Resident answer s loader.graph t calls
  /-- No package is visited twice. -/
  once : visited.Nodup
  /-- Only gathered packages are visited, -/
  visited : ∀ k ∈ visited, k ∈ packages
  /-- and handled. -/
  handled : ∀ k ∈ handledNodes calls, k ∈ packages

variable {plan : LoadPlan σ} {answer : Path → PackageImports} {s : σ} {packages : List String}
  (still : plan.update = false) (unchanging : plan.Unchanging answer s)
  (gathered : plan.Gathered answer s packages)
include still unchanging gathered

/-- **Every step stays among them**: a package that is read leads to its imports, which are gathered
as well. -/
theorem Among.step {c c' : Walk.Standing String (Loader × σ) LoadError}
    (step : Walk.Step plan.visitor c c')
    (h : (∀ k ∈ c.queue, k ∈ packages) ∧
      plan.Among answer s packages c.visited c.state.1 c.state.2 c.calls) :
    (∀ k ∈ c'.queue, k ∈ packages) ∧
      plan.Among answer s packages c'.visited c'.state.1 c'.state.2 c'.calls := by
  cases step with
  | pass seen => exact ⟨fun k hk => h.1 k (List.mem_cons_of_mem _ hk), h.2⟩
  | skip new handled => cases (handle_eq_ok handled).1
  | @descend package queue children visited before after _ calls new handled read =>
    obtain ⟨queued, kept⟩ := h
    obtain ⟨-, loaded⟩ := handle_eq_ok handled
    obtain ⟨named, rfl⟩ := Prod.mk.inj read
    have hp : package ∈ packages := queued package List.mem_cons_self
    have here : plan.kindOf package before.2 = .ok .directory :=
      (kept.resident.kindOf_eq unchanging package).trans (gathered.there package hp)
    obtain ⟨found, answered, sound, recorded⟩ := read_of_load still here loaded
    rw [recorded] at named
    have resident := kept.resident.descend unchanging here answered sound named
    have leads : ∀ i ∈ children, i ∈ packages := by
      intro i hi
      obtain ⟨_, named, same⟩ := resident.loaded.steady (.read package (.ok children)) (by simp)
      obtain rfl := Except.ok.inj named
      have hi : i ∈ childrenBy plan.workspace answer package := same ▸ List.mem_map_of_mem hi
      exact gathered.closed package hp i
        (StringSet.mem_ofList.1 (StringSet.mem_toList.1 hi))
    refine ⟨List.forall_mem_append.2 ⟨fun k hk => queued k (List.mem_cons_of_mem _ hk),
      fun k hk => leads k (Walk.mem_pending.1 hk).1⟩, ?_⟩
    exact {
      resident := by
        rw [recorded]
        exact resident
      once := List.nodup_cons.2 ⟨new, kept.once⟩
      visited := List.forall_mem_cons.2 ⟨hp, kept.visited⟩
      handled := by simpa [or_imp, forall_and] using And.intro kept.handled hp }

/-- **A traversal among gathered packages comes to its end**, and stays among them. -/
theorem Among.traverse {budget : Nat} (enough : packages.length ≤ budget) {start : String}
    (among : start ∈ packages) {visited : List String} {l : Logged String (Loader × σ) LoadError}
    (h : plan.Among answer s packages visited l.state.1 l.state.2 l.calls) :
    let walked := Walk.traverse plan.visitor.logged budget start visited l
    walked.outcome = .ok () ∧
      plan.Among answer s packages walked.visited walked.state.state.1 walked.state.state.2
        walked.state.calls := by
  obtain ⟨c, ⟨queued, kept⟩, stop, count⟩ := Walk.run_induction (v := plan.visitor)
    (motive := fun c => (∀ k ∈ c.queue, k ∈ packages) ∧
      plan.Among answer s packages c.visited c.state.1 c.state.2 c.calls)
    (fun _ _ => Among.step still unchanging gathered) budget [start] visited l.state l.calls
    ⟨by simpa using among, h⟩
  intro walked
  change Walk.Stop plan.visitor c walked at stop
  change ∀ node, walked.outcome = _ → _ at count
  generalize walked = walked at stop count ⊢
  cases stop with
  | finished => exact ⟨rfl, kept⟩
  | @handle package _ _ before _ _ _ new failed =>
    -- a gathered package that is next in the queue is loaded
    have hp := queued package List.mem_cons_self
    have here := (kept.resident.kindOf_eq unchanging package).trans (gathered.there package hp)
    have sound : (plan.reader.read (plan.workspace.packageSource package) before.2).1.error
        = none := by
      obtain ⟨dirs, same⟩ := kept.resident.state_eq
      dsimp only at same
      rw [same, unchanging.found dirs]
      exact gathered.sound package hp
    cases congrArg Prod.fst (failed.symm.trans
      (handle_of_load (load_of_there still here rfl sound)))
  | read new handled failed => exact absurd (.read handled failed) (not_failedBy_read _ _ _)
  | @exhausted package _ visited _ _ new =>
    have few : (package :: visited).length ≤ packages.length :=
      (List.Nodup.subperm (List.nodup_cons.2 ⟨new, kept.once⟩)
        (List.forall_mem_cons.2 ⟨queued package List.mem_cons_self, kept.visited⟩)).length_le
    have used := count _ rfl
    simp only [List.length_cons] at few used
    omega

theorem Among.traverseAll {budget : Nat} (enough : packages.length ≤ budget) {starts : List String}
    (among : ∀ k ∈ starts, k ∈ packages) {visited : List String}
    {l : Logged String (Loader × σ) LoadError}
    (h : plan.Among answer s packages visited l.state.1 l.state.2 l.calls) :
    let walked := Walk.traverseAll plan.visitor.logged budget starts visited l
    walked.outcome = .ok () ∧
      plan.Among answer s packages walked.visited walked.state.state.1 walked.state.state.2
        walked.state.calls := by
  induction starts generalizing visited l with
  | nil => exact ⟨rfl, h⟩
  | cons start starts ih =>
    obtain ⟨here, rest⟩ := List.forall_mem_cons.1 among
    obtain ⟨ended, kept⟩ := Among.traverse still unchanging gathered enough here h
    rcases first : Walk.traverse plan.visitor.logged budget start visited l with
      ⟨cause | _, visited', l'⟩ <;> rw [first] at ended kept
    · cases ended
    · rw [Walk.traverseAll_cons_of_ok starts first]
      exact ih rest kept

end LoadPlan

/-- **Getting gathered packages succeeds**, and gets no others. -/
theorem Project.get_gathered (p : Project) (means : Means σ) (s : σ)
    {answer : Path → PackageImports} {paths starts packages : List String}
    (still : p.configuration.updates = false) (unchanging : (p.loadPlan means).Unchanging answer s)
    (gathered : (p.loadPlan means).Gathered answer s packages)
    (enough : packages.length ≤ means.budget) (chosen : p.startsOf paths = .ok starts)
    (among : ∀ k ∈ starts, k ∈ packages) :
    ∃ graph, (p.get means paths s).1 = .ok graph ∧ ∀ k, graph.Has k → k ∈ packages := by
  have begun : (p.loadPlan means).Among answer s packages [] {} s [] :=
    ⟨.nil, List.nodup_nil, by simp, by simp⟩
  obtain ⟨ended, kept⟩ := LoadPlan.Among.traverseAll still unchanging gathered enough among
    (l := ⟨({}, s), []⟩) begun
  have walk := Walk.traverseAll_logged (p.loadPlan means).visitor means.budget starts []
    (({} : Loader), s) []
  generalize Walk.traverseAll (p.loadPlan means).visitor.logged means.budget starts []
    ⟨({}, s), []⟩ = walked at ended kept walk
  refine ⟨walked.state.state.1.graph, ?_, fun k hk => ?_⟩
  · rw [Walk.project, ended] at walk
    rw [get_of_walk chosen walk]
  · rw [kept.resident.loaded.graph_eq] at hk
    obtain ⟨q, hq, rfl | edge⟩ := Graph.has_ofPackages.1 hk
    · exact kept.handled k hq
    · exact gathered.closed q (kept.handled q hq) k edge

end Depot
