import Depot.Proofs.Reports
import Depot.Proofs.Walk.Reach

/-!
# What getting yields

Getting walks the import graph from its starting points and records each package as it is loaded.
An importer puts a record in place for every package it names, so a package is on record before it
is loaded itself, and packages import each other in cycles. What comes out is all the same exactly
the graph of the packages that can be reached: the invariant of the walk is that the graph on record
is that of the packages handled (`Loaded`).

Readers may answer anything, but are taken to give the same answer for a directory throughout a run.
-/

namespace Depot

open VisitorCall

/-- **What can be reached** from some starting points along imports. -/
def Reachable (imports : String → List String) (starts : List String) (k : String) : Prop :=
  ∃ start ∈ starts, Relation.ReflTransGen (fun a b => b ∈ imports a) start k

/-- Starting points with the same members reach the same. -/
theorem Reachable.congr {imports : String → List String} {starts starts' : List String}
    (h : ∀ k, k ∈ starts ↔ k ∈ starts') (k : String) :
    Reachable imports starts k ↔ Reachable imports starts' k :=
  exists_congr fun start => and_congr_left fun _ => h start

theorem Reachable.tail {imports : String → List String} {starts : List String} {a b : String}
    (h : Reachable imports starts a) (edge : b ∈ imports a) : Reachable imports starts b := by
  obtain ⟨start, hs, path⟩ := h
  exact ⟨start, hs, path.tail edge⟩

theorem Reachable.mono {imports imports' : String → List String} {starts : List String}
    (more : ∀ a, ∀ i ∈ imports a, i ∈ imports' a) {k : String} (h : Reachable imports starts k) :
    Reachable imports' starts k := by
  obtain ⟨start, hs, path⟩ := h
  exact ⟨start, hs, Relation.ReflTransGen.mono more _ _ path⟩

namespace LoadPlan

variable {σ : Type} {plan : LoadPlan σ} {answer : Path → PackageImports}

/-- The imports of a package, by the answers of the reader. -/
def importsBy (workspace : Workspace) (answer : Path → PackageImports) (package : String) :
    List String :=
  (answer (workspace.packageSource package)).imports

/-- The children of a package in the walk: its imports, in order and without repetition. -/
def childrenBy (workspace : Workspace) (answer : Path → PackageImports) (package : String) :
    List String :=
  (StringSet.ofList (importsBy workspace answer package)).toList

theorem handledKeys_eq {ε : Type} (calls : List (VisitorCall String ε)) :
    handledKeys calls = handledNodes calls :=
  List.map_id _

/-- Where nothing was visited before and nothing is skipped, the children lead wherever the imports
do. -/
theorem reaches_iff {workspace : Workspace} {start k : String} :
    Walk.Reaches (Walk.Leads (childrenBy workspace answer) ∅) [] start k ↔
      Relation.ReflTransGen (fun a b => b ∈ importsBy workspace answer a) start k := by
  have edge : (fun a b => Walk.Leads (childrenBy workspace answer) ∅ a b ∧ b ∉ ([] : List String))
      = fun a b => b ∈ importsBy workspace answer a := by
    funext a b
    simp [Walk.Leads, childrenBy]
  unfold Walk.Reaches
  rw [edge]
  exact and_iff_right List.not_mem_nil

/-- **What loading keeps**: the graph on record is that of the packages handled, and the walk is
answered by the graph of imports. -/
structure Loaded (plan : LoadPlan σ) (answer : Path → PackageImports) (graph : Graph)
    (calls : List (VisitorCall String LoadError)) : Prop where
  /-- The packages handled are on record with their imports. -/
  graph_eq : graph = Graph.ofPackages (importsBy plan.workspace answer) (handledNodes calls)
  /-- All packages were loaded, and their imports named. -/
  steady : ∀ call ∈ calls, Walk.AnsweredBy (childrenBy plan.workspace answer) ∅ call

theorem Loaded.nil : Loaded plan answer .empty [] where
  graph_eq := rfl
  steady := by simp

/-- Loading a package, and naming its imports, keeps the invariant. -/
theorem Loaded.descend {graph : Graph} {calls : List (VisitorCall String LoadError)}
    (h : Loaded plan answer graph calls) {package : String} {pinned : StringSet}
    {children : List String}
    (named : importsOf ⟨graph.record package (importsBy plan.workspace answer package), pinned⟩
      package = .ok children) :
    Loaded plan answer (graph.record package (importsBy plan.workspace answer package))
      (calls ++ [.handle package (.ok .descend)] ++ [.read package (.ok children)]) := by
  have graph_eq : graph.record package (importsBy plan.workspace answer package) =
      Graph.ofPackages (importsBy plan.workspace answer) (handledNodes calls ++ [package]) := by
    rw [h.graph_eq, Graph.record_ofPackages]
  refine ⟨by simpa using graph_eq, ?_⟩
  rw [importsOf, graph_eq] at named
  rcases found : (Graph.ofPackages (importsBy plan.workspace answer)
    (handledNodes calls ++ [package])).get? package with _ | dep
  · rw [found] at named
    cases named
  · rw [found] at named
    obtain rfl := Except.ok.inj named
    rw [Graph.imports_eq_of_mem (by simp) found]
    refine List.forall_mem_append.2 ⟨List.forall_mem_append.2 ⟨h.steady, ?_⟩, ?_⟩
    · intro call hc
      obtain rfl := List.mem_singleton.1 hc
      exact .inr ⟨Set.notMem_empty _, rfl⟩
    · intro call hc
      obtain rfl := List.mem_singleton.1 hc
      exact ⟨_, rfl, List.map_id _⟩

/-- **Every step keeps the invariant**, as long as the reports agree. -/
theorem Loaded.step {c c' : Walk.Standing String (Loader × Reported σ) LoadError}
    (step : Walk.Step plan.reporting.visitor c c')
    (h : c.state.2.Agree answer → Loaded plan answer c.state.1.graph c.calls)
    (agree : c'.state.2.Agree answer) : Loaded plan answer c'.state.1.graph c'.calls := by
  cases step with
  | pass seen => exact h agree
  | skip new handled => cases (handle_eq_ok handled).1
  | @descend package _ _ _ before after _ _ new handled read =>
    obtain ⟨-, loaded⟩ := handle_eq_ok handled
    obtain ⟨pinned, found, reports, -, recorded⟩ := reports_of_load_eq_ok loaded
    obtain ⟨named, rfl⟩ := Prod.mk.inj read
    -- the report of this package agrees, and so do the earlier ones
    obtain ⟨agreed, rfl⟩ := Reported.Agree.of_append agree reports
    rw [recorded] at named ⊢
    exact (h agreed).descend named

/-- **Where nothing is queued, the packages handled are those that can be reached.** -/
theorem Loaded.mem_handledNodes_iff {graph : Graph} {starts visited : List String}
    {calls : List (VisitorCall String LoadError)} (h : Loaded plan answer graph calls)
    (read : readNodes calls = enteredNodes calls)
    (explored : Walk.Explores [] (starts.map NodeId.key) ([] : List String) visited calls)
    (k : String) :
    k ∈ handledNodes calls ↔ Reachable (importsBy plan.workspace answer) starts k := by
  rw [← handledKeys_eq, explored.mem_handledKeys_iff_leads h.steady read]
  refine exists_congr fun start => and_congr ?_ reaches_iff
  exact (List.map_id starts).symm ▸ .rfl

/-- **What a load walk leaves on record**: the graph of the packages that can be reached. -/
theorem traverseAll_ofPackages (plan : LoadPlan σ) (budget : Nat) (starts : List String) (s : σ)
    {walked : Walked String (Loader × Reported σ) LoadError}
    (walk : Walk.traverseAll plan.reporting.visitor budget starts [] ({}, ⟨s, []⟩) = walked)
    (ended : walked.outcome = .ok ()) (agree : walked.state.2.Agree answer) :
    ∃ packages,
      walked.state.1.graph = Graph.ofPackages (importsBy plan.workspace answer) packages ∧
      ∀ k, k ∈ packages ↔ Reachable (importsBy plan.workspace answer) starts k := by
  rw [Walk.traverseAll_logged _ budget starts [] _ []] at walk
  subst walk
  have loaded := Walk.traverseAll_induction (v := plan.reporting.visitor)
    (motive := fun _ s calls => s.2.Agree answer → Loaded plan answer s.1.graph calls)
    (fun _ _ => Loaded.step) budget starts (fun _ => .nil) ended agree
  have read := Walk.traverseAll_induction (v := plan.reporting.visitor)
    (motive := fun _ _ calls => readNodes calls = enteredNodes calls)
    (fun _ _ => Walk.readNodes_eq_of_step) budget starts rfl ended
  have explored := Walk.traverseAll_explores plan.reporting.visitor budget (.start []) starts ended
  exact ⟨_, loaded.graph_eq, loaded.mem_handledNodes_iff read explored⟩

end LoadPlan

namespace Project

variable {σ : Type}

/-- Getting that succeeds is a load walk that came to its end. -/
theorem get_eq_ok {p : Project} {means : Means σ} {paths : List String} {s s' : σ} {graph : Graph}
    (h : p.get means paths s = (.ok graph, s')) :
    ∃ starts, p.startsOf paths = .ok starts ∧
      let walked := Walk.traverseAll (p.loadPlan means).visitor means.budget starts [] ({}, s)
      walked.outcome = .ok () ∧ graph = walked.state.1.graph ∧ s' = walked.state.2 := by
  unfold get at h
  rcases chosen : p.startsOf paths with cause | starts
  · rw [chosen] at h
    cases congrArg Prod.fst h
  · rw [chosen] at h
    refine ⟨starts, rfl, ?_⟩
    rcases ended : (Walk.traverseAll (p.loadPlan means).visitor means.budget starts []
      (({} : Loader), s)).outcome with cause | ⟨⟩
    · simp [ended] at h
    · simp only [ended, Prod.mk.injEq, Except.ok.injEq] at h
      exact ⟨ended, h.1.symm, h.2.symm⟩

/-- A load walk that comes to its end is getting that succeeds. -/
theorem get_of_walk {p : Project} {means : Means σ} {paths starts visited : List String} {s s' : σ}
    {loader : Loader} (chosen : p.startsOf paths = .ok starts)
    (walk : Walk.traverseAll (p.loadPlan means).visitor means.budget starts [] ({}, s) =
      ⟨.ok (), visited, (loader, s')⟩) :
    p.get means paths s = (.ok loader.graph, s') := by
  simp only [get, chosen, walk]

/-- **What getting yields**: the graph of the packages that can be reached from the starting
points. -/
theorem get_eq_ofPackages (p : Project) (means : Means σ) (paths : List String) (s : σ)
    {answer : Path → PackageImports} {graph : Graph}
    (steady : (p.get means.reporting paths ⟨s, []⟩).2.Agree answer)
    (got : (p.get means paths s).1 = .ok graph) :
    ∃ starts packages, p.startsOf paths = .ok starts ∧
      graph = Graph.ofPackages (LoadPlan.importsBy p.workspace answer) packages ∧
      ∀ k, k ∈ packages ↔ Reachable (LoadPlan.importsBy p.workspace answer) starts k := by
  rw [get_reporting p means paths ⟨s, []⟩] at got
  rcases result : p.get means.reporting paths ⟨s, []⟩ with ⟨outcome, r⟩
  rw [result] at got steady
  obtain rfl : outcome = .ok graph := got
  obtain ⟨starts, chosen, ended, recorded, rfl⟩ := get_eq_ok result
  obtain ⟨packages, same, reached⟩ :=
    (p.loadPlan means).traverseAll_ofPackages means.budget starts s rfl ended steady
  exact ⟨starts, packages, chosen, recorded.trans same, reached⟩

/-- Lists with the same members choose the same starting points. -/
theorem startsOf_congr {p : Project} {paths paths' starts starts' : List String}
    (h : ∀ k, k ∈ paths' ↔ k ∈ paths) (chosen : p.startsOf paths = .ok starts)
    (chosen' : p.startsOf paths' = .ok starts') (k : String) : k ∈ starts' ↔ k ∈ starts := by
  cases paths with
  | nil =>
    obtain rfl : paths' = [] := List.eq_nil_iff_forall_not_mem.2 fun k hk => by cases (h k).1 hk
    obtain rfl := Except.ok.inj (chosen.symm.trans chosen')
    exact .rfl
  | cons path paths =>
    cases paths' with
    | nil => cases (h path).2 List.mem_cons_self
    | cons path' paths' =>
      obtain rfl := Except.ok.inj chosen
      obtain rfl := Except.ok.inj chosen'
      exact h k

/-- **What loading keeps, getting keeps**, whatever comes of it. -/
theorem get_keeps (p : Project) {means : Means σ} {P : σ → Prop}
    (load : ∀ package loader s, P s → P ((p.loadPlan means).load package loader s).2.2)
    (paths : List String) {s : σ} (h : P s) : P (p.get means paths s).2 := by
  unfold get
  cases p.startsOf paths with
  | error cause => exact h
  | ok starts =>
    have kept : P (Walk.traverseAll (p.loadPlan means).visitor means.budget starts []
        (({} : Loader), s)).state.2 :=
      Walk.traverseAll_keeps (P := fun s : Loader × σ => P s.2) _
        (fun package s h => load package s.1 s.2 h) (fun _ _ h => h) starts h
    dsimp only
    split <;> exact kept

/-- Where the reader's answers never change, the reports agree with them. -/
theorem agree_of_steady (p : Project) {means : Means σ} {answer : Path → PackageImports}
    (steady : ∀ dir s, (means.reader.read dir s).1 = answer dir) (paths : List String) (s : σ) :
    (p.get means.reporting paths ⟨s, []⟩).2.Agree answer := by
  have load (package : String) (loader : Loader) (r : Reported σ) (h : r.Agree answer) :
      ((p.loadPlan means.reporting).load package loader r).2.2.Agree answer :=
    (p.loadPlan means).agree_load package steady loader h
  exact p.get_keeps load paths fun _ h => by cases h

/-- **What getting means, end to end.** Let the reader give one answer for each directory throughout
the run, and let getting succeed. Then the import paths on record are exactly those that can be
reached from the starting points along the imports reported; each record has the imports reported
for its package, the reachable packages whose imports include it as importers, and no error.

So the graph is a function of the answers and of which starting points are given: any other run with
the same ones, in any order and any number of times, has the same result. -/
theorem get_reachable (p : Project) (means : Means σ) (paths : List String) (s : σ)
    {answer : Path → PackageImports} {graph : Graph}
    (steady : (p.get means.reporting paths ⟨s, []⟩).2.Agree answer)
    (got : (p.get means paths s).1 = .ok graph) :
    let imports package := (answer (p.workspace.packageSource package)).imports
    (∃ starts, p.startsOf paths = .ok starts ∧
      (∀ k, k ∈ graph.importPaths ↔ Reachable imports starts k) ∧
      ∀ k dep, graph.get? k = some dep →
        (∀ q, q ∈ dep.imports ↔ q ∈ imports k) ∧
        (∀ q, q ∈ dep.importedFrom ↔ Reachable imports starts q ∧ k ∈ imports q) ∧
        dep.error = none) ∧
    ∀ paths' s' graph', (∀ k, k ∈ paths' ↔ k ∈ paths) →
      (p.get means.reporting paths' ⟨s', []⟩).2.Agree answer →
      (p.get means paths' s').1 = .ok graph' → graph' = graph := by
  intro imports
  obtain ⟨starts, packages, chosen, rfl, reached⟩ := get_eq_ofPackages p means paths s steady got
  change ∀ k, k ∈ packages ↔ Reachable imports starts k at reached
  -- what is on record is reachable, since a reachable package imports only such
  have has (k : String) :
      (Graph.ofPackages imports packages).Has k ↔ Reachable imports starts k := by
    rw [Graph.has_ofPackages, ← reached]
    refine ⟨?_, fun hk => ⟨k, hk, .inl rfl⟩⟩
    rintro ⟨q, hq, rfl | edge⟩
    · exact hq
    · exact (reached k).2 (((reached q).1 hq).tail edge)
  refine ⟨⟨starts, chosen, fun k => Graph.mem_importPaths.trans (has k), ?_⟩, ?_⟩
  · intro k dep found
    have hk : k ∈ packages := (reached k).2 ((has k).1 ⟨dep, found⟩)
    refine ⟨fun q => ?_, fun q => ?_, ?_⟩
    · rw [← Graph.imports_iff found, Graph.imports_ofPackages]
      exact and_iff_right hk
    · rw [← Graph.importedFrom_iff found, Graph.importedFrom_ofPackages, reached]
      rfl
    · rw [← Graph.errorOf_eq found, Graph.errorOf_ofPackages]
  · intro paths' s' graph' same steady' got'
    obtain ⟨starts', packages', chosen', rfl, reached'⟩ :=
      get_eq_ofPackages p means paths' s' steady' got'
    refine Graph.ofPackages_congr fun k => ?_
    rw [reached k, reached' k]
    exact Reachable.congr (startsOf_congr same chosen chosen') k

/-- A project whose workspace is its own directory. -/
def sample : Project where
  cwd := ⟨"/w"⟩
  root := ⟨"/w"⟩
  configuration := {}
  usualWorkspace := ⟨"/w"⟩

/-- Two packages that import each other, the first with a repetition and a third package, which
imports itself. -/
def sampleAnswer (dir : Path) : PackageImports :=
  if dir.text = "/w/src/a" then { imports := ["c", "b", "c"] }
  else if dir.text = "/w/src/b" then { imports := ["a"] }
  else { imports := ["c"] }

/-- Everything is on disk, and the answers never change. -/
def sampleMeans : Means Unit where
  files := { kind := fun _ _ => .ok .directory, directories := fun _ _ => .ok [] }
  reader := { read := fun dir s => (sampleAnswer dir, s) }
  resolver := { resolve := fun _ _ s => (.error .foreign, s) }
  budget := 3

/-- What has been loaded of it. -/
def sampleLoader (packages : List String) : Loader :=
  { graph := .ofPackages (LoadPlan.importsBy sample.workspace sampleAnswer) packages }

/-- Three packages that import one another in circles are got from the first. -/
theorem get_sample :
    let imports package := (sampleAnswer (sample.workspace.packageSource package)).imports
    let graph := (sampleLoader ["a", "b", "c"]).graph
    (sample.get sampleMeans.reporting ["a"] ⟨(), []⟩).2.Agree sampleAnswer ∧
      (sample.get sampleMeans ["a"] ()).1 = .ok graph ∧
      (∃ starts, sample.startsOf ["a"] = .ok starts ∧
        (∀ k, k ∈ graph.importPaths ↔ Reachable imports starts k) ∧
        ∀ k dep, graph.get? k = some dep →
          (∀ q, q ∈ dep.imports ↔ q ∈ imports k) ∧
          (∀ q, q ∈ dep.importedFrom ↔ Reachable imports starts q ∧ k ∈ imports q) ∧
          dep.error = none) ∧
      ∀ paths' s' graph', (∀ k, k ∈ paths' ↔ k ∈ ["a"]) →
        (sample.get sampleMeans.reporting paths' ⟨s', []⟩).2.Agree sampleAnswer →
        (sample.get sampleMeans paths' s').1 = .ok graph' → graph' = graph := by
  intro imports graph
  have steady : (sample.get sampleMeans.reporting ["a"] ⟨(), []⟩).2.Agree sampleAnswer :=
    sample.agree_of_steady (fun _ _ => rfl) ["a"] ()
  let v := (sample.loadPlan sampleMeans).visitor
  have a : v.handle "a" (sampleLoader [], ()) = (.ok .descend, (sampleLoader ["a"], ())) := by
    decide +kernel
  have b : v.handle "b" (sampleLoader ["a"], ()) =
      (.ok .descend, (sampleLoader ["a", "b"], ())) := by
    decide +kernel
  have c : v.handle "c" (sampleLoader ["a", "b"], ()) =
      (.ok .descend, (sampleLoader ["a", "b", "c"], ())) := by
    decide +kernel
  have read_a : v.read "a" (sampleLoader ["a"], ()) =
      (.ok ["b", "c"], (sampleLoader ["a"], ())) := by
    decide +kernel
  have read_b : v.read "b" (sampleLoader ["a", "b"], ()) =
      (.ok ["a"], (sampleLoader ["a", "b"], ())) := by
    decide +kernel
  have read_c : v.read "c" (sampleLoader ["a", "b", "c"], ()) =
      (.ok ["c"], (sampleLoader ["a", "b", "c"], ())) := by
    decide +kernel
  have walk : Walk.traverseAll v 3 ["a"] [] (sampleLoader [], ()) =
      ⟨.ok (), ["c", "b", "a"], (sampleLoader ["a", "b", "c"], ())⟩ := by
    have first : Walk.pending [NodeId.key "a"] ["b", "c"] = ["b", "c"] := by
      rw [Walk.pending_of_sorted (by decide +kernel)]
      decide +kernel
    have second : Walk.pending [NodeId.key "b", NodeId.key "a"] ["a"] = [] := by
      rw [Walk.pending_of_sorted (List.pairwise_singleton _ _)]
      decide +kernel
    have third : Walk.pending [NodeId.key "c", NodeId.key "b", NodeId.key "a"] ["c"] = [] := by
      rw [Walk.pending_of_sorted (List.pairwise_singleton _ _)]
      decide +kernel
    refine Walk.traverseAll_cons_of_ok [] ?_
    rw [Walk.traverse, Walk.run_descend 2 (by decide) a read_a, first,
      List.nil_append, Walk.run_descend 1 (by decide) b read_b, second, List.append_nil,
      Walk.run_descend 0 (by decide) c read_c, third]
    rfl
  have got : (sample.get sampleMeans ["a"] ()).1 = .ok graph := by
    rw [get_of_walk rfl walk]
  exact ⟨steady, got, get_reachable sample sampleMeans ["a"] () steady got⟩

end Project

end Depot
