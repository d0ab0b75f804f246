import Depot.Proofs.Get
import Depot.Proofs.Graph.Merging
import Depot.Proofs.Path.Resolved
import Depot.Proofs.Save

/-!
# Records and directories

Getting has one record for each import path, and reads each package on record once, in its own
directory. Import paths are told apart by their text, though, and directories by what paths mean:
segments that are empty or `.` make another import path but not another directory. So one directory
may be read twice and have two records, where it was asked for in two spellings
(`Project.recorded_in_two_spellings`).

That is the only way. Two import paths have one directory exactly if the same segments count in
them, so if none is written with more than these (`ImportPath.Terse`), each record has a directory
to itself (`Project.directories_told_apart`). The walk is told of the very edges that are on record,
so it handles what is on record and nothing else (`LoadPlan.Filed`).
-/

namespace Depot

open VisitorCall

/-- **An import path that is written with no more than the segments that count.** -/
def ImportPath.Terse (path : String) : Prop :=
  "/".intercalate (Segments.solid (Segments.ofString path)) = path

instance (path : String) : Decidable (ImportPath.Terse path) :=
  inferInstanceAs (Decidable (_ = _))

/-- Terse import paths in which the same segments count are one. -/
theorem ImportPath.Terse.eq {path path' : String} (h : Terse path) (h' : Terse path')
    (same : Segments.solid (Segments.ofString path) = Segments.solid (Segments.ofString path')) :
    path = path' := by
  rw [← h, same, h']

/-- **The import path of a directory is terse.** -/
theorem Workspace.terse_of_packageName {w : Workspace} {dir : Path} {name : String}
    (h : w.packageName dir = .ok name) : ImportPath.Terse name := by
  obtain ⟨names, below, rfl⟩ := packageName_eq_ok.1 h
  have plain := plain_of_components below
  unfold ImportPath.Terse
  cases names with
  | nil => rfl
  | cons first names =>
    have segments : Segments.ofString ("/".intercalate (first :: names)) = first :: names :=
      Segments.ofString_intercalate (fun n hn => (plain n hn).2.2.2) (by simp)
    have solid : Segments.solid (first :: names) = first :: names :=
      List.filter_eq_self.2 fun n hn => by
        obtain ⟨nonempty, here, -⟩ := plain n hn
        have counts : n ≠ "" ∧ n ≠ "." :=
          ⟨fun e => nonempty (by rw [e]; rfl), fun e => here (by rw [e]; rfl)⟩
        simpa using counts
    rw [segments, solid]

namespace LoadPlan

variable {σ : Type} {plan : LoadPlan σ}

/-- **What is on file while packages are loaded**: the directories read, the records, and the edges
that the walk was told of. -/
structure Filed (plan : LoadPlan σ) (graph : Graph) (reports : List (Path × PackageImports))
    (calls : List (VisitorCall String LoadError)) : Prop where
  /-- The directory of each package that was handled was read, in order, and no other. -/
  read : reports.map Prod.fst = (handledNodes calls).map plan.workspace.packageSource
  /-- On record are the packages that were handled and those that are imported. -/
  has : ∀ k, graph.Has k ↔ k ∈ handledNodes calls ∨ ∃ a, graph.Imports a k
  /-- The walk was told of the edges on record. -/
  told : ∀ a b, Walk.Reports calls a b ↔ graph.Imports a b
  /-- What is imported was reported. -/
  reported : ∀ a b, graph.Imports a b → ∃ report ∈ reports, b ∈ report.2.imports

theorem Filed.nil : Filed plan .empty [] [] where
  read := rfl
  has k := by simp
  told a b := by simp
  reported a b h := absurd h (Graph.not_imports_empty a b)

variable {graph : Graph} {reports : List (Path × PackageImports)}
  {calls : List (VisitorCall String LoadError)}

/-- **Loading a package, and naming its imports, keeps the file.** -/
theorem Filed.descend (h : Filed plan graph reports calls) {package : String}
    {found : PackageImports} {pinned : StringSet} {children : List String}
    (named : importsOf ⟨graph.record package found.imports, pinned⟩ package = .ok children) :
    Filed plan (graph.record package found.imports)
      (reports ++ [(plan.workspace.packageSource package, found)])
      (calls ++ [.handle package (.ok .descend)] ++ [.read package (.ok children)]) := by
  have imports (a b : String) : (graph.record package found.imports).Imports a b ↔
      graph.Imports a b ∨ (a = package ∧ b ∈ found.imports) := by
    rw [Graph.record_eq_addAll, Graph.imports_addAll, Graph.exists_imports_recordsOf]
  refine ⟨by simp [h.read], fun k => ?_, fun a b => ?_, fun a b edge => ?_⟩
  · have more : k ∈ handledNodes (calls ++ [.handle package (.ok .descend)] ++
        [.read package (.ok children)]) ↔ k ∈ handledNodes calls ∨ k = package := by simp
    have edges : (∃ a, (graph.record package found.imports).Imports a k) ↔
        (∃ a, graph.Imports a k) ∨ k ∈ found.imports := by
      simp only [imports, exists_or, exists_eq_left]
    rw [more, edges, Graph.record_eq_addAll, Graph.has_addAll, Graph.exists_recordsOf, h.has,
      or_or_or_comm]
  · -- the children of the package are its imports, also those that were on record before
    rw [Walk.reports_concat_read, Walk.reports_concat_handle, h.told, imports]
    have child : b ∈ children.map NodeId.key ↔ graph.Imports package b ∨ b ∈ found.imports := by
      have key : children.map NodeId.key = children := List.map_id _
      rw [key, mem_iff_of_importsOf named, imports, and_iff_right rfl]
    rw [child]
    constructor
    · rintro (edge | ⟨rfl, edge | edge⟩)
      · exact .inl edge
      · exact .inl edge
      · exact .inr ⟨rfl, edge⟩
    · rintro (edge | ⟨rfl, edge⟩)
      · exact .inl edge
      · exact .inr ⟨rfl, .inr edge⟩
  · rcases (imports a b).1 edge with edge | ⟨-, edge⟩
    · obtain ⟨report, hr, edge⟩ := h.reported a b edge
      exact ⟨report, List.mem_append_left _ hr, edge⟩
    · exact ⟨_, List.mem_append_right _ (List.mem_singleton_self _), edge⟩

/-- **Every step keeps the file.** -/
theorem Filed.step {c c' : Walk.Standing String (Loader × Reported σ) LoadError}
    (step : Walk.Step plan.reporting.visitor c c')
    (h : Filed plan c.state.1.graph c.state.2.reports c.calls) :
    Filed plan c'.state.1.graph c'.state.2.reports c'.calls := by
  cases step with
  | pass seen => exact h
  | skip new handled => cases (handle_eq_ok handled).1
  | descend new handled read =>
    obtain ⟨-, loaded⟩ := handle_eq_ok handled
    obtain ⟨pinned, found, reports, -, recorded⟩ := reports_of_load_eq_ok loaded
    obtain ⟨named, rfl⟩ := Prod.mk.inj read
    rw [recorded] at named ⊢
    rw [reports]
    exact h.descend named

section Ended

variable {starts visited : List String} (h : Filed plan graph reports calls)
  (explored : Walk.Explores [] starts ([] : List String) visited calls)
include h explored

/-- **Where nothing is queued, what is on record was handled**, each import path once. -/
theorem Filed.perm_handledNodes : (handledNodes calls).Perm graph.importPaths := by
  have once : (handledNodes calls).Nodup := handledKeys_eq calls ▸ explored.nodup
  refine (List.perm_ext_iff_of_nodup once graph.nodup_importPaths).2 fun k => ?_
  rw [Graph.mem_importPaths, h.has, or_iff_left_of_imp]
  rintro ⟨a, edge⟩
  have seen := explored.closed a k ((h.told a k).2 edge)
  rw [explored.mem_visited, handledKeys_eq] at seen
  simpa using seen

theorem Filed.perm_read :
    (reports.map Prod.fst).Perm (graph.importPaths.map plan.workspace.packageSource) := by
  rw [h.read]
  exact (h.perm_handledNodes explored).map _

/-- **What is on record is a starting point, or was reported as an import.** -/
theorem Filed.start_or_reported {k : String} (recorded : k ∈ graph.importPaths) :
    k ∈ starts ∨ ∃ report ∈ reports, k ∈ report.2.imports := by
  have handled : k ∈ handledKeys calls := by
    rw [handledKeys_eq]
    exact (h.perm_handledNodes explored).mem_iff.2 recorded
  obtain ⟨start, hs, -, path⟩ := explored.mem_handledKeys_iff.1 handled
  rcases path.cases_tail with rfl | ⟨a, -, edge, -⟩
  · exact .inl hs
  · exact .inr (h.reported a k ((h.told a k).1 edge))

end Ended

/-- **A walk that comes to its end leaves a file of what it was sent to.** -/
theorem traverseAll_filed (plan : LoadPlan σ) (budget : Nat) (starts : List String) (s : σ)
    {walked : Walked String (Loader × Reported σ) LoadError}
    (walk : Walk.traverseAll plan.reporting.visitor budget starts [] ({}, ⟨s, []⟩) = walked)
    (ended : walked.outcome = .ok ()) :
    ∃ visited calls, Filed plan walked.state.1.graph walked.state.2.reports calls ∧
      Walk.Explores [] starts ([] : List String) visited calls := by
  rw [Walk.traverseAll_logged _ budget starts [] _ []] at walk
  subst walk
  have filed := Walk.traverseAll_induction (v := plan.reporting.visitor)
    (motive := fun _ t calls => Filed plan t.1.graph t.2.reports calls)
    (fun _ _ => Filed.step) budget starts .nil ended
  have explored := Walk.traverseAll_explores plan.reporting.visitor budget (.start []) starts ended
  have keys : [] ++ starts.map NodeId.key = starts := List.map_id _
  exact ⟨_, _, filed, keys ▸ explored⟩

end LoadPlan

namespace Project

variable {σ : Type}

/-- Where the import paths given are terse, so are the starting points. -/
theorem terse_of_startsOf {p : Project} {paths starts : List String}
    (chosen : p.startsOf paths = .ok starts) (given : ∀ path ∈ paths, ImportPath.Terse path) :
    ∀ k ∈ starts, ImportPath.Terse k := by
  cases paths with
  | cons path paths =>
    obtain rfl := Except.ok.inj chosen
    exact given
  | nil =>
    rcases named : p.importPath with cause | name <;> rw [startsOf, named] at chosen
    · cases chosen
    · obtain rfl := Except.ok.inj chosen
      exact List.forall_mem_singleton.2 (Workspace.terse_of_packageName (packageName_root named))

/-- **Getting that succeeds leaves a file** of what was read and recorded. -/
theorem get_filed {p : Project} {means : Means σ} {paths : List String} {s : σ} {graph : Graph}
    (got : (p.get means paths s).1 = .ok graph) :
    ∃ starts visited calls, p.startsOf paths = .ok starts ∧
      (p.loadPlan means).Filed graph (p.get means.reporting paths ⟨s, []⟩).2.reports calls ∧
      Walk.Explores [] starts ([] : List String) visited calls := by
  rw [get_reporting p means paths ⟨s, []⟩] at got
  rcases result : p.get means.reporting paths ⟨s, []⟩ with ⟨outcome, r⟩
  rw [result] at got
  obtain rfl : outcome = .ok graph := got
  obtain ⟨starts, chosen, ended, rfl, rfl⟩ := get_eq_ok result
  obtain ⟨visited, calls, filed, explored⟩ :=
    (p.loadPlan means).traverseAll_filed means.budget starts s rfl ended
  exact ⟨starts, visited, calls, chosen, filed, explored⟩

/-- **How records and directories correspond.** Let getting succeed. Then it has read one directory
for each record, that of its import path, and there is one record for each import path. Two import
paths have one directory exactly if the same segments count in them, those that are neither empty
nor `.`; if neither goes up, this is also what they have once paths are resolved.

So if the import paths to start from, and all imports that were reported, are written with the
segments that count alone, different records have different directories, and no directory was read
twice. -/
theorem directories_told_apart (p : Project) (means : Means σ) (paths : List String) (s : σ)
    {graph : Graph} (got : (p.get means paths s).1 = .ok graph) :
    let reports := (p.get means.reporting paths ⟨s, []⟩).2.reports
    let dir := p.workspace.packageSource
    let counting path := Segments.solid (Segments.ofString path)
    graph.importPaths.Nodup ∧
      (reports.map Prod.fst).Perm (graph.importPaths.map dir) ∧
      (∀ k k', (dir k).same (dir k') = true ↔ counting k = counting k') ∧
      (∀ k k', ".." ∉ Segments.ofString k → ".." ∉ Segments.ofString k' →
        ((dir k).resolved = (dir k').resolved ↔ counting k = counting k')) ∧
      ((∀ path ∈ paths, ImportPath.Terse path) →
        (∀ report ∈ reports, ∀ i ∈ report.2.imports, ImportPath.Terse i) →
        (∀ k ∈ graph.importPaths, ∀ k' ∈ graph.importPaths,
          (dir k).same (dir k') = true → k = k') ∧
        reports.Pairwise fun a b => a.1.same b.1 = false) := by
  intro reports dir counting
  obtain ⟨starts, visited, calls, chosen, filed, explored⟩ := get_filed got
  have once := graph.nodup_importPaths
  have read : (reports.map Prod.fst).Perm (graph.importPaths.map dir) := filed.perm_read explored
  refine ⟨once, read, fun _ _ => Workspace.same_packageSource_iff,
    fun _ _ => Workspace.resolved_packageSource_eq_iff, fun given imported => ?_⟩
  have terse (k : String) (hk : k ∈ graph.importPaths) : ImportPath.Terse k := by
    rcases filed.start_or_reported explored hk with hk | ⟨report, hr, hk⟩
    · exact terse_of_startsOf chosen given k hk
    · exact imported report hr k hk
  have apart : ∀ k ∈ graph.importPaths, ∀ k' ∈ graph.importPaths,
      (dir k).same (dir k') = true → k = k' := fun k hk k' hk' same =>
    (terse k hk).eq (terse k' hk') (Workspace.same_packageSource_iff.1 same)
  have different : (graph.importPaths.map dir).Pairwise fun a b => a.same b = false :=
    List.pairwise_map.2 <| once.pairwise_of_forall_ne fun k hk k' hk' other =>
      Bool.eq_false_iff.2 fun same => other (apart k hk k' hk' same)
  have symmetric {a b : Path} (h : a.same b = false) : b.same a = false := BEq.comm.trans h
  exact ⟨apart, List.pairwise_map.1 ((read.pairwise_iff symmetric).2 different)⟩

/-- Everything is on disk, and no package imports anything. -/
def aloneMeans : Means Unit :=
  { sampleMeans with reader := { read := fun _ s => ({}, s) } }

/-- **One directory, asked for in two spellings**, is read twice and has two records. -/
theorem recorded_in_two_spellings :
    let dir := sample.workspace.packageSource
    let paths := ["e.org/p", "e.org/p/"]
    (sample.get aloneMeans paths ()).1.toOption.map Graph.importPaths = some paths ∧
      (dir "e.org/p").same (dir "e.org/p/") = true ∧
      (sample.get aloneMeans.reporting paths ⟨(), []⟩).2.reports =
        [(dir "e.org/p", {}), (dir "e.org/p", {})] := by
  decide +kernel

/-- Two packages are told apart by their directories. -/
theorem directories_told_apart_alone :
    let got := sample.get aloneMeans.reporting ["e.org/p", "e.org/q/r"] ⟨(), []⟩
    ∃ graph, (sample.get aloneMeans ["e.org/p", "e.org/q/r"] ()).1 = .ok graph ∧
      (∀ path ∈ ["e.org/p", "e.org/q/r"], ImportPath.Terse path) ∧
      (∀ report ∈ got.2.reports, ∀ i ∈ report.2.imports, ImportPath.Terse i) ∧
      graph.importPaths = ["e.org/p", "e.org/q/r"] ∧
      got.2.reports.Pairwise fun a b => a.1.same b.1 = false := by
  intro got
  have recorded : (sample.get aloneMeans ["e.org/p", "e.org/q/r"] ()).1.toOption.map
      Graph.importPaths = some ["e.org/p", "e.org/q/r"] := by
    decide +kernel
  obtain ⟨graph, found, listed⟩ := Option.map_eq_some_iff.1 recorded
  have got' : (sample.get aloneMeans ["e.org/p", "e.org/q/r"] ()).1 = .ok graph := by
    rcases outcome : (sample.get aloneMeans ["e.org/p", "e.org/q/r"] ()).1 with cause | graph' <;>
      rw [outcome] at found
    · cases found
    · exact congrArg _ (Option.some.inj found)
  have terse : ∀ path ∈ ["e.org/p", "e.org/q/r"], ImportPath.Terse path := by decide +kernel
  have imported : ∀ report ∈ got.2.reports, ∀ i ∈ report.2.imports, ImportPath.Terse i := by
    decide +kernel
  exact ⟨graph, got', terse, imported, listed,
    ((directories_told_apart sample aloneMeans _ () got').2.2.2.2 terse imported).2⟩

end Project

end Depot
