import Depot.Proofs.Reports
import Depot.Proofs.Survey.Records
import Depot.Proofs.Walk.Reach

/-!
# What a survey covers

A survey walks the directory tree of the project and the import graph at once, and it decides where
to go next by what its own graph has on record, where other directories have left their marks. What
it covers is all the same a least set (`Covered`): the root, the visible directories below a covered
directory of the project, and the directories of a covered package's imports. The invariant of the
walk is that its graph is the snapshot of the paths handled (`Surveyed`), and a snapshot says of
each of its paths only what the path itself was found to be.

The disk and the reader may be anything that reading packages does not change (`Unchanging`). One
path may be written in several ways, and the disk may answer differently for them; what counts is
how the walk wrote it when it came upon it first.
-/

namespace Depot.Survey

open VisitorCall

variable {σ : Type} {survey : Survey σ} {s t : σ} {path : Path}

/-! ## Surroundings that do not change -/

/-- Two states in which the disk and the reader answer alike. -/
structure Alike (survey : Survey σ) (t s : σ) : Prop where
  /-- What paths lead to. -/
  kind : ∀ p, survey.files.kind p t = survey.files.kind p s
  /-- What directories hold. -/
  directories : ∀ p, survey.files.directories p t = survey.files.directories p s
  /-- What packages are. -/
  found : ∀ p, survey.found t p = survey.found s p

/-- The state after some packages were read. -/
def afterReads (reader : PackageReader σ) (s : σ) (dirs : List Path) : σ :=
  dirs.foldl (fun s dir => (reader.read dir s).2) s

/-- **Reading packages changes nothing** that the survey asks for, whichever are read. -/
def Unchanging (survey : Survey σ) (s : σ) : Prop :=
  ∀ dirs, survey.Alike (afterReads survey.reader s dirs) s

theorem afterReads_concat (reader : PackageReader σ) (s : σ) (dirs : List Path) (dir : Path) :
    afterReads reader s (dirs ++ [dir]) = (reader.read dir (afterReads reader s dirs)).2 := by
  simp [afterReads]

namespace Alike

theorem reads_iff (h : survey.Alike t s) {name : String} :
    survey.Reads t path name ↔ survey.Reads s path name :=
  ⟨fun r => ⟨r.named, h.kind path ▸ r.directory, r.proper⟩,
    fun r => ⟨r.named, (h.kind path).trans r.directory, r.proper⟩⟩

theorem records_eq (h : survey.Alike t s) : survey.records t path = survey.records s path := by
  unfold records
  rw [h.kind, h.found]

theorem next_eq (h : survey.Alike t s) (graph : Graph) :
    survey.next path graph t = survey.next path graph s := by
  unfold next below Files.visibleSubdirectories
  rw [h.directories]

end Alike

/-! ## A survey beside reports -/

theorem reads_reporting {r : Reported σ} {name : String} :
    survey.reporting.Reads r path name ↔ survey.Reads r.state path name :=
  ⟨fun h => ⟨h.named, h.directory, h.proper⟩, fun h => ⟨h.named, h.directory, h.proper⟩⟩

/-- **What handling a path does**: it records the path, and reads it if it is a package. -/
theorem examine_reporting (survey : Survey σ) (path : Path) (graph : Graph) (r : Reported σ) :
    ((∃ name, survey.Reads r.state path name) ∧
      survey.reporting.examine path graph r =
        (.descend, graph.addAll (survey.records r.state path),
          ⟨(survey.reader.read path r.state).2,
            r.reports ++ [(path, survey.found r.state path)]⟩) ∧
      survey.examine path graph r.state =
        (.descend, graph.addAll (survey.records r.state path),
          (survey.reader.read path r.state).2)) ∨
    ((∀ name, ¬ survey.Reads r.state path name) ∧
      survey.reporting.examine path graph r =
        (.skip, graph.addAll (survey.records r.state path), r) ∧
      survey.examine path graph r.state =
        (.skip, graph.addAll (survey.records r.state path), r.state)) := by
  by_cases h : ∃ name, survey.Reads r.state path name
  · obtain ⟨name, reads⟩ := h
    exact .inl ⟨⟨name, reads⟩, examine_of_reads (reads_reporting.2 reads) graph,
      examine_of_reads reads graph⟩
  · rw [not_exists] at h
    exact .inr ⟨h, examine_of_not_reads (fun name reads => h name (reads_reporting.1 reads)) graph,
      examine_of_not_reads h graph⟩

/-- **What it takes to handle a path.** -/
theorem handle_eq_ok {before after : Graph × Reported σ} {visit : Visit}
    (h : survey.reporting.visitor.handle path before = (.ok visit, after)) :
    ((∃ name, survey.Reads before.2.state path name) ∧ visit = .descend ∧
      after = (before.1.addAll (survey.records before.2.state path),
        ⟨(survey.reader.read path before.2.state).2,
          before.2.reports ++ [(path, survey.found before.2.state path)]⟩)) ∨
    ((∀ name, ¬ survey.Reads before.2.state path name) ∧ visit = .skip ∧
      after = (before.1.addAll (survey.records before.2.state path), before.2)) := by
  have handled : survey.reporting.visitor.handle path before =
      (.ok (survey.reporting.examine path before.1 before.2).1,
        (survey.reporting.examine path before.1 before.2).2) := rfl
  rw [handled] at h
  obtain ⟨e, rfl⟩ := Prod.mk.inj h
  obtain rfl := Except.ok.inj e
  rcases survey.examine_reporting path before.1 before.2 with ⟨reads, beside, -⟩ | ⟨none, beside, -⟩
  · exact .inl ⟨reads, by rw [beside], by rw [beside]⟩
  · exact .inr ⟨none, by rw [beside], by rw [beside]⟩

/-- Surveying is seen in the state without its reports. -/
theorem projects_reporting (survey : Survey σ) :
    Walk.Projects (fun s : Graph × Reported σ => (s.1, s.2.state)) survey.reporting.visitor
      survey.visitor where
  handle path s := by
    unfold visitor
    dsimp only
    rcases survey.examine_reporting path s.1 s.2 with ⟨-, beside, alone⟩ | ⟨-, beside, alone⟩ <;>
      rw [beside, alone]
  read path s := rfl

/-! ## The invariant of the walk -/

/-- **The call is answered by what is at the path**: packages are entered, and lead to their
children; everything else is skipped. -/
def Answered (survey : Survey σ) (s : σ) : VisitorCall Path SurveyError → Prop
  | .handle path answer =>
    ((∃ name, survey.Reads s path name) ∧ answer = .ok .descend) ∨
      ((∀ name, ¬ survey.Reads s path name) ∧ answer = .ok .skip)
  | .read path answer =>
    (∃ dirs, survey.below path s = .ok dirs) ∧ answer = .ok (survey.children s path)

/-- **What surveying keeps.** -/
structure Surveyed (survey : Survey σ) (s : σ)
    (c : Walk.Standing Path (Graph × Reported σ) SurveyError) : Prop where
  /-- Nothing has happened but that packages were read. -/
  state_eq : c.state.2.state = afterReads survey.reader s (c.state.2.reports.map Prod.fst)
  /-- The packages read are those entered. -/
  reads_eq : c.state.2.reports.map Prod.fst = enteredNodes c.calls
  /-- The graph is that of the paths handled. -/
  graph_eq : c.state.1 = survey.snapshot s (handledNodes c.calls)
  /-- What is queued is placed. -/
  queued : ∀ p ∈ c.queue, survey.workspace.Placed p
  /-- The paths handled are kept apart. -/
  apart : survey.Apart (handledNodes c.calls)
  /-- All calls were answered by what is there. -/
  answered : ∀ call ∈ c.calls, survey.Answered s call

/-- One more path is kept apart from those before it. -/
theorem Apart.concat {paths : List Path} (h : survey.Apart paths)
    (once : ((paths ++ [path]).map Path.components).Nodup)
    (placed : survey.workspace.Placed path) : survey.Apart (paths ++ [path]) :=
  ⟨once, List.forall_mem_append.2 ⟨h.placed, by simpa using placed⟩⟩

namespace Surveyed

variable {node : Path} {queue : List Path} {visited : List (List Component)}
  {before after : Graph × Reported σ} {calls : List (VisitorCall Path SurveyError)}

theorem alike (steady : survey.Unchanging s)
    {c : Walk.Standing Path (Graph × Reported σ) SurveyError} (h : survey.Surveyed s c) :
    survey.Alike c.state.2.state s :=
  h.state_eq ▸ steady _

/-- **Handling a path that is no package** adds its records to the graph. -/
theorem skip (steady : survey.Unchanging s)
    (h : survey.Surveyed s ⟨node :: queue, visited, before, calls⟩)
    (handled : survey.reporting.visitor.handle node before = (.ok .skip, after))
    (once : (handledKeys (calls ++ [.handle node (.ok .skip)])).Nodup) :
    survey.Surveyed s
      ⟨queue, NodeId.key node :: visited, after, calls ++ [.handle node (.ok .skip)]⟩ := by
  have alike := h.alike steady
  rcases handle_eq_ok handled with ⟨-, e, -⟩ | ⟨none, -, rfl⟩
  · cases e
  rw [handledKeys, handledNodes_append] at once
  have apart := h.apart.concat once (h.queued node List.mem_cons_self)
  exact
    { state_eq := h.state_eq
      reads_eq := by simpa using h.reads_eq
      graph_eq := by
        dsimp only
        rw [alike.records_eq, h.graph_eq, addAll_snapshot, handledNodes_append]
        rfl
      queued := fun p hp => h.queued p (List.mem_cons_of_mem _ hp)
      apart := by simpa using apart
      answered := by
        refine List.forall_mem_append.2 ⟨h.answered, ?_⟩
        intro call hc
        obtain rfl := List.mem_singleton.1 hc
        exact .inr ⟨fun name reads => none name (alike.reads_iff.2 reads), rfl⟩ }

/-- **Entering a package** adds its records to the graph, and leads to what its directory and its
imports lead to. -/
theorem descend (steady : survey.Unchanging s) {children : List Path}
    {middle : Graph × Reported σ}
    (h : survey.Surveyed s ⟨node :: queue, visited, before, calls⟩)
    (handled : survey.reporting.visitor.handle node before = (.ok .descend, middle))
    (read : survey.reporting.visitor.read node middle = (.ok children, after))
    (once : (handledKeys (calls ++ [.handle node (.ok .descend)] ++
      [.read node (.ok children)])).Nodup) :
    survey.Surveyed s
      ⟨queue ++ Walk.pending (NodeId.key node :: visited) children, NodeId.key node :: visited,
        after, calls ++ [.handle node (.ok .descend)] ++ [.read node (.ok children)]⟩ := by
  have alike := h.alike steady
  rcases handle_eq_ok handled with ⟨⟨name, reads⟩, -, rfl⟩ | ⟨-, e, -⟩
  swap
  · cases e
  rw [handledKeys, handledNodes_append, handledNodes_append, handledNodes_cons_read,
    handledNodes_nil, List.append_nil] at once
  have apart := h.apart.concat once (h.queued node List.mem_cons_self)
  have reads' := alike.reads_iff.1 reads
  have graph_eq : before.1.addAll (survey.records before.2.state node) =
      survey.snapshot s (handledNodes calls ++ [node]) := by
    rw [alike.records_eq, h.graph_eq, addAll_snapshot]
  have state_eq : (survey.reader.read node before.2.state).2 =
      afterReads survey.reader s (before.2.reports.map Prod.fst ++ [node]) := by
    rw [afterReads_concat, ← h.state_eq]
  -- the graph that decides where to go next has the records of this very node
  have named : (∃ dirs, survey.below node s = .ok dirs) ∧ children = survey.children s node := by
    obtain ⟨ok, rfl⟩ := Prod.mk.inj read
    have alike' : survey.Alike (survey.reader.read node before.2.state).2 s :=
      state_eq ▸ steady _
    refine next_snapshot apart (by simp) reads' ?_
    rw [← graph_eq, ← alike'.next_eq]
    exact ok
  obtain ⟨-, rfl⟩ := Prod.mk.inj read
  exact
    { state_eq := by
        dsimp only
        rw [List.map_append]
        exact state_eq
      reads_eq := by simpa using h.reads_eq
      graph_eq := by simpa using graph_eq
      queued := by
        refine List.forall_mem_append.2 ⟨fun p hp => h.queued p (List.mem_cons_of_mem _ hp), ?_⟩
        intro p hp
        rw [named.2] at hp
        exact placed_children reads.named p (Walk.mem_pending.1 hp).1
      apart := by simpa using apart
      answered := by
        refine List.forall_mem_append.2 ⟨List.forall_mem_append.2 ⟨h.answered, ?_⟩, ?_⟩
        · intro call hc
          obtain rfl := List.mem_singleton.1 hc
          exact .inl ⟨⟨name, reads'⟩, rfl⟩
        · intro call hc
          obtain rfl := List.mem_singleton.1 hc
          exact ⟨named.1, congrArg Except.ok named.2⟩ }

/-- **Every step keeps the invariant.** -/
theorem step (steady : survey.Unchanging s)
    {c c' : Walk.Standing Path (Graph × Reported σ) SurveyError}
    (step : Walk.Step survey.reporting.visitor c c') (once : (handledKeys c'.calls).Nodup)
    (h : survey.Surveyed s c) : survey.Surveyed s c' := by
  cases step with
  | pass seen =>
    exact { h with queued := fun p hp => h.queued p (List.mem_cons_of_mem _ hp) }
  | skip new handled => exact h.skip steady handled once
  | descend new handled read => exact h.descend steady handled read once

end Surveyed

/-! ## What is covered -/

/-- **The directory is entered**: it is read as a package, and it is not broken. -/
def Enters (survey : Survey σ) (s : σ) (path : Path) : Prop :=
  (∃ name, survey.Reads s path name) ∧ ¬ (survey.found s path).Broken

/-- **What a survey covers**: the least set of paths with its root in it that holds, of each
directory in it that is entered, the directories below if it is inside the project, and those of its
imports. Paths are told apart by their components, and `spell` says how each is written. -/
inductive Covered (survey : Survey σ) (s : σ) (spell : List Component → Path) :
    List Component → Prop
  /-- The root is covered. -/
  | root : Covered survey s spell survey.root.components
  /-- So are the directories below a covered one inside the project. -/
  | subdirectory {k : List Component} {dir : Path} (covered : Covered survey s spell k)
      (enters : survey.Enters s (spell k)) (inside : (spell k).startsWith survey.root = true)
      (sub : survey.Subdirectory s (spell k) dir) : Covered survey s spell dir.components
  /-- So are those of the imports of a covered package. -/
  | imported {k : List Component} {i : String} (covered : Covered survey s spell k)
      (enters : survey.Enters s (spell k)) (imports : i ∈ (survey.found s (spell k)).imports) :
      Covered survey s spell (survey.workspace.packageSource i).components

/-- The same survey with another reader. -/
def rereading (survey : Survey σ) (reader : PackageReader σ) : Survey σ := { survey with reader }

/-- **What is covered stays covered** when directories are written otherwise and read by another
reader, as long as those that are entered still are, hold the same directories, and have no fewer
imports. -/
theorem Covered.enlarge {reader : PackageReader σ} {spell spell' : List Component → Path}
    (proper : ∀ k, survey.Covered s spell k → (spell k).components = k)
    (proper' : ∀ k, (survey.rereading reader).Covered s spell' k → (spell' k).components = k)
    (more : ∀ k, survey.Covered s spell k → (survey.rereading reader).Covered s spell' k →
      survey.Enters s (spell k) →
        (survey.rereading reader).Enters s (spell' k) ∧
          survey.files.directories (spell' k) s = survey.files.directories (spell k) s ∧
          ∀ i ∈ (survey.found s (spell k)).imports,
            i ∈ ((survey.rereading reader).found s (spell' k)).imports)
    {k : List Component} (h : survey.Covered s spell k) :
    (survey.rereading reader).Covered s spell' k := by
  induction h with
  | root => exact .root
  | @subdirectory k dir covered enters inside sub ih =>
    have same := (proper k covered).trans (proper' k ih).symm
    obtain ⟨names, held, name, hn, visible, rfl, wanted⟩ := sub
    obtain ⟨into, holds, -⟩ := more k covered ih enters
    have joined : ((spell k).join name).components = ((spell' k).join name).components := by
      obtain ⟨⟨_, reads⟩, -⟩ := enters
      obtain ⟨⟨_, reads'⟩, -⟩ := into
      exact Path.components_join_congr same (Workspace.text_ne_empty_of_packageName reads.named)
        (Workspace.text_ne_empty_of_packageName reads'.named) name
    rw [joined]
    refine .subdirectory ih into ?_ ⟨names, holds.trans held, name, hn, visible, rfl, ?_⟩
    · rwa [Path.startsWith, ← same]
    · unfold isAvoided Path.fileName? at wanted ⊢
      rwa [← joined]
  | @imported k i covered enters imports ih =>
    obtain ⟨into, -, keeps⟩ := more k covered ih enters
    exact .imported ih into (keeps i imports)

/-- **How a list of paths writes each of them.** -/
def spelling (paths : List Path) (k : List Component) : Path :=
  (paths.find? fun p => p.components = k).getD ⟨""⟩

/-- Paths that are kept apart are written as they are. -/
theorem Apart.spelling_eq {paths : List Path} (h : survey.Apart paths) {p : Path} (hp : p ∈ paths) :
    spelling paths p.components = p := by
  rcases found : paths.find? fun q => decide (q.components = p.components) with _ | q
  · have := List.find?_eq_none.1 found p hp
    simp at this
  · obtain ⟨same, -⟩ := List.find?_eq_some_iff_append.1 found
    rw [spelling, found]
    exact h.eq_of_components (List.mem_of_find?_eq_some found) hp (by simpa using same)

/-- Calls that are answered by what is there are answered by a fixed graph of paths. -/
theorem answeredBy_of_answered {calls : List (VisitorCall Path SurveyError)}
    {spell : List Component → Path} (spelled : ∀ p ∈ handledNodes calls, spell p.components = p)
    (read : readNodes calls = enteredNodes calls)
    (answered : ∀ call ∈ calls, survey.Answered s call) :
    ∀ call ∈ calls, Walk.AnsweredBy
      (fun k : List Component => (survey.children s (spell k)).map Path.components)
      {k : List Component | ∀ name, ¬ survey.Reads s (spell k) name} call := by
  intro call hc
  cases call with
  | handle path answer =>
    have same := spelled path (mem_handledNodes.2 ⟨answer, hc⟩)
    show ((∀ name, ¬ survey.Reads s (spell path.components) name) ∧ _) ∨
      (¬ (∀ name, ¬ survey.Reads s (spell path.components) name) ∧ _)
    rw [same]
    rcases answered _ hc with ⟨⟨name, reads⟩, rfl⟩ | ⟨none, rfl⟩
    · exact .inr ⟨fun none => none name reads, rfl⟩
    · exact .inl ⟨none, rfl⟩
  | read path answer =>
    have entered : path ∈ enteredNodes calls := read ▸ mem_readNodes.2 ⟨answer, hc⟩
    have same := spelled path (mem_handledNodes.2 ⟨_, mem_enteredNodes.1 entered⟩)
    refine ⟨_, (answered _ hc).2, ?_⟩
    show _ = (survey.children s (spell path.components)).map Path.components
    rw [same]
    rfl

section Covering

variable {calls : List (VisitorCall Path SurveyError)} {visited : List (List Component)}
  {spell : List Component → Path} (spelled : ∀ p ∈ handledNodes calls, spell p.components = p)
  (read : readNodes calls = enteredNodes calls)
  (answered : ∀ call ∈ calls, survey.Answered s call)
  (explored : Walk.Explores [] [survey.root.components] ([] : List Path) visited calls)
include spelled read answered

/-- A directory that was handled and is a package could be listed, if it had to be. -/
theorem listed_of_handled {k : List Component} (handled : k ∈ handledKeys calls)
    (reads : ∃ name, survey.Reads s (spell k) name) :
    ∃ dirs, survey.below (spell k) s = .ok dirs := by
  obtain ⟨path, hp, rfl⟩ := List.mem_map.1 handled
  have same : spell (NodeId.key path) = path := spelled path hp
  rw [same] at reads ⊢
  obtain ⟨answer, hp⟩ := mem_handledNodes.1 hp
  rcases answered _ hp with ⟨-, rfl⟩ | ⟨none, -⟩
  · have hr : path ∈ readNodes calls := read ▸ mem_enteredNodes.2 hp
    obtain ⟨answer, hr⟩ := mem_readNodes.1 hr
    exact (answered _ hr).1
  · obtain ⟨name, reads⟩ := reads
    exact absurd reads (none name)

include explored

/-- **What was handled is what is covered.** -/
theorem mem_handledKeys_iff_covered {k : List Component} :
    k ∈ handledKeys calls ↔ survey.Covered s spell k := by
  have steady := answeredBy_of_answered spelled read answered
  have handled_iff (k : List Component) := explored.mem_handledKeys_iff_leads steady read (k := k)
  have leads {a b : List Component} (ha : a ∈ handledKeys calls)
      (enters : survey.Enters s (spell a))
      (next : ∀ dirs, survey.below (spell a) s = .ok dirs →
        b ∈ (survey.children s (spell a)).map Path.components) : b ∈ handledKeys calls := by
    obtain ⟨dirs, listed⟩ := listed_of_handled spelled read answered ha enters.1
    obtain ⟨root, hr, reached⟩ := (handled_iff a).1 ha
    obtain ⟨name, reads⟩ := enters.1
    exact (handled_iff b).2
      ⟨root, hr, reached.tail ⟨fun none => none name reads, next dirs listed⟩ List.not_mem_nil⟩
  constructor
  · intro hk
    obtain ⟨root, hr, new, path⟩ := (handled_iff k).1 hk
    obtain rfl := List.mem_singleton.1 hr
    clear hk
    -- along the path every node was handled, so each could be listed
    induction path with
    | refl => exact .root
    | @tail a b before edge ih =>
      have ha := (handled_iff a).2 ⟨_, hr, new, before⟩
      have reads : ∃ name, survey.Reads s (spell a) name := not_forall_not.1 edge.1.1
      obtain ⟨dirs, listed⟩ := listed_of_handled spelled read answered ha reads
      rcases (mem_map_children listed).1 edge.1.2 with
        ⟨sound, ⟨inside, dir, sub, rfl⟩ | ⟨i, hi, rfl⟩⟩
      · exact .subdirectory ih ⟨reads, sound⟩ inside sub
      · exact .imported ih ⟨reads, sound⟩ hi
  · intro h
    induction h with
    | root => exact (handled_iff _).2 ⟨_, List.mem_singleton_self _, .refl List.not_mem_nil⟩
    | @subdirectory a dir _ enters inside sub ih =>
      exact leads ih enters fun dirs listed =>
        (mem_map_children listed).2 ⟨enters.2, .inl ⟨inside, dir, sub, rfl⟩⟩
    | @imported a i _ enters hi ih =>
      exact leads ih enters fun dirs listed =>
        (mem_map_children listed).2 ⟨enters.2, .inr ⟨i, hi, rfl⟩⟩

end Covering

/-! ## The whole survey -/

/-- Wherever a survey of a named root stops, it has explored what it was led to, and kept its
invariant. If its budget was used up, it has handled as many paths as that allows. -/
theorem run_surveyed (survey : Survey σ) (budget : Nat) (s : σ) {name : String}
    (named : survey.workspace.packageName survey.root = .ok name) (steady : survey.Unchanging s) :
    ∃ c, Walk.Explores [] [NodeId.key survey.root] c.queue c.visited c.calls ∧
      survey.Surveyed s c ∧ readNodes c.calls = enteredNodes c.calls ∧
      Walk.Stop survey.reporting.visitor c (Walk.traverse survey.reporting.visitor.logged budget
        survey.root [] ⟨(Graph.empty, ⟨s, []⟩), []⟩) ∧
      ∀ node, (Walk.traverse survey.reporting.visitor.logged budget survey.root []
        ⟨(Graph.empty, ⟨s, []⟩), []⟩).outcome = .error (.exhausted node) →
        c.visited.length = budget := by
  have start : survey.Surveyed s ⟨[survey.root], [], (Graph.empty, ⟨s, []⟩), []⟩ :=
    { state_eq := rfl
      reads_eq := rfl
      graph_eq := rfl
      queued := by simpa using Workspace.Placed.of_packageName named
      apart := ⟨List.nodup_nil, by simp⟩
      answered := by simp }
  obtain ⟨c, ⟨explored, surveyed, read⟩, stop, count⟩ := Walk.run_induction
    (v := survey.reporting.visitor)
    (motive := fun c =>
      Walk.Explores [] [NodeId.key survey.root] c.queue c.visited c.calls ∧ survey.Surveyed s c ∧
        readNodes c.calls = enteredNodes c.calls)
    (fun c c' step h =>
      have explored := h.1.step step
      ⟨explored, h.2.1.step steady step explored.nodup, Walk.readNodes_eq_of_step step h.2.2⟩)
    budget [survey.root] [] _ [] ⟨(Walk.Explores.start []).restart survey.root, start, rfl⟩
  rw [List.length_nil, Nat.zero_add] at count
  exact ⟨c, explored, surveyed, read, stop, count⟩

/-- A survey of a named root that comes to its end has explored what the root leads to, and kept its
invariant. -/
theorem traverse_surveyed (survey : Survey σ) (budget : Nat) (s : σ) {name : String}
    (named : survey.workspace.packageName survey.root = .ok name) (steady : survey.Unchanging s)
    {walked : Walked Path (Logged Path (Graph × Reported σ) SurveyError) SurveyError}
    (walk : Walk.traverse survey.reporting.visitor.logged budget survey.root []
      ⟨(Graph.empty, ⟨s, []⟩), []⟩ = walked) (ended : walked.outcome = .ok ()) :
    Walk.Explores [] [NodeId.key survey.root] ([] : List Path) walked.visited walked.state.calls ∧
      survey.Surveyed s ⟨[], walked.visited, walked.state.state, walked.state.calls⟩ := by
  obtain ⟨c, explored, surveyed, -, stop, -⟩ := run_surveyed survey budget s named steady
  rw [walk] at stop
  cases stop with
  | finished => exact ⟨explored, surveyed⟩
  | _ => cases ended

/-- **What a survey means, end to end.** Let reading packages change nothing, and let the survey of
a root inside the source directory come to its end. Then

* each path is handled once, and the paths handled are exactly those that are covered, however the
  walk happened to write them;
* the reader is called once for each of them that is a directory with an import path other than the
  source directory, and for no other;
* the graph is the merge of what these paths are: on record are the usable packages, what they
  import, and the paths in trouble; imports and importers are the edges found; and the errors are
  the troubles. -/
theorem survey_covers (survey : Survey σ) (budget : Nat) (s : σ) {name : String}
    (named : survey.workspace.packageName survey.root = .ok name) (steady : survey.Unchanging s)
    (ended : (Walk.traverse survey.visitor budget survey.root [] (Graph.empty, s)).outcome
      = .ok ()) :
    let walked := Walk.traverse survey.reporting.visitor.logged budget survey.root []
      ⟨(Graph.empty, ⟨s, []⟩), []⟩
    let handled := handledNodes walked.state.calls
    let reads := walked.state.state.2.reports.map Prod.fst
    let graph := walked.state.state.1
    Walk.traverse survey.visitor budget survey.root [] (Graph.empty, s) =
        ⟨.ok (), walked.visited, (graph, walked.state.state.2.state)⟩ ∧
      ((handled.map Path.components).Nodup ∧
        ∃ spell : List Component → Path, (∀ p ∈ handled, spell p.components = p) ∧
          ∀ k, k ∈ handled.map Path.components ↔ survey.Covered s spell k) ∧
      ((reads.map Path.components).Nodup ∧
        ∀ p, p ∈ reads ↔ p ∈ handled ∧ ∃ name, survey.Reads s p name) ∧
      (∀ k, k ∈ graph.importPaths ↔
        ∃ p ∈ handled, (∃ name, survey.Reads s p name ∧ (survey.found s p).Usable ∧
            (k = name ∨ k ∈ (survey.found s p).imports)) ∨
          ∃ e, survey.Trouble s p k e) ∧
      (∀ k q, graph.Imports k q ↔
        ∃ p ∈ handled, survey.Reads s p k ∧ q ∈ (survey.found s p).imports) ∧
      (∀ k q, graph.ImportedFrom k q ↔
        ∃ p ∈ handled, survey.Reads s p q ∧ k ∈ (survey.found s p).imports) ∧
      ∀ k e, graph.errorOf k = some e ↔ ∃ p ∈ handled, survey.Trouble s p k e := by
  intro walked handled reads graph
  have alone : Walk.traverse survey.visitor budget survey.root [] (Graph.empty, s) =
      ⟨walked.outcome, walked.visited, (graph, walked.state.state.2.state)⟩ := by
    have beside := Walk.traverse_project survey.projects_reporting budget survey.root []
      (Graph.empty, ⟨s, []⟩)
    rw [Walk.traverse_logged survey.reporting.visitor budget survey.root [] _ []] at beside
    exact beside
  rw [alone] at ended
  obtain ⟨explored, surveyed⟩ := traverse_surveyed survey budget s named steady rfl ended
  have read : readNodes walked.state.calls = enteredNodes walked.state.calls :=
    Walk.run_readNodes _ budget [survey.root] [] _ [] rfl
  have graph_eq : graph = survey.snapshot s handled := surveyed.graph_eq
  have reads_eq : reads = enteredNodes walked.state.calls := surveyed.reads_eq
  have spelled : ∀ p ∈ handled, spelling handled p.components = p :=
    fun p hp => surveyed.apart.spelling_eq hp
  refine ⟨?_, ⟨surveyed.apart.once, spelling handled, spelled, fun k => ?_⟩, ⟨?_, fun p => ?_⟩,
    fun k => ?_, fun k q => ?_, fun k q => ?_, fun k e => ?_⟩
  · rw [alone]
    exact congrArg (Walked.mk · _ _) ended
  · exact mem_handledKeys_iff_covered spelled read surveyed.answered explored
  · rw [reads_eq]
    exact surveyed.apart.once.sublist ((enteredNodes_sublist _).map _)
  · rw [reads_eq, mem_enteredNodes]
    constructor
    · intro entered
      refine ⟨mem_handledNodes.2 ⟨_, entered⟩, ?_⟩
      rcases surveyed.answered _ entered with ⟨found, -⟩ | ⟨-, e⟩
      · exact found
      · cases e
    · rintro ⟨hp, name, found⟩
      obtain ⟨answer, hp⟩ := mem_handledNodes.1 hp
      rcases surveyed.answered _ hp with ⟨-, rfl⟩ | ⟨none, -⟩
      · exact hp
      · exact absurd found (none name)
  · rw [graph_eq, Graph.mem_importPaths, has_snapshot]
  · rw [graph_eq, imports_snapshot]
  · rw [graph_eq, importedFrom_snapshot]
  · rw [graph_eq, surveyed.apart.errorOf_snapshot]

/-- A small workspace: a project with a directory in it that holds no sources, and a library beside
it that imports the project and a package that is missing. -/
def sample : Survey Unit where
  workspace := ⟨⟨"/w"⟩⟩
  root := ⟨"/w/src/p"⟩
  avoided := .ofList ["skip"]
  files :=
    { kind path _ := if path.text = "/w/src/gone" then .error .notFound else .ok .directory
      directories path _ :=
        .ok (if path.text = "/w/src/p" then [".git", "cmd"]
          else if path.text = "/w/src/p/cmd" then ["skip"] else []) }
  reader :=
    { read path s :=
        (if path.text = "/w/src/p" then { imports := ["lib"] }
          else if path.text = "/w/src/lib" then { imports := ["p", "gone"] }
          else { error := some (.package (.ofMessage "no Go files in cmd")) }, s) }

/-- What is on record after some of its paths were handled. -/
def sampleGraph (paths : List Path) : Graph × Unit := (sample.snapshot () paths, ())

/-- How the survey of the small workspace goes. -/
theorem run_sample :
    let p : Path := ⟨"/w/src/p"⟩
    let lib : Path := ⟨"/w/src/lib"⟩
    let cmd : Path := ⟨"/w/src/p/cmd"⟩
    let gone : Path := ⟨"/w/src/gone"⟩
    Walk.traverse sample.visitor 4 p [] (sampleGraph []) =
      ⟨.ok (), [gone.components, cmd.components, lib.components, p.components],
        sampleGraph [p, lib, cmd, gone]⟩ := by
  intro p lib cmd gone
  have handle_p : sample.visitor.handle p (sampleGraph []) = (.ok .descend, sampleGraph [p]) := by
    decide +kernel
  have handle_lib : sample.visitor.handle lib (sampleGraph [p]) =
      (.ok .descend, sampleGraph [p, lib]) := by
    decide +kernel
  have handle_cmd : sample.visitor.handle cmd (sampleGraph [p, lib]) =
      (.ok .descend, sampleGraph [p, lib, cmd]) := by
    decide +kernel
  have handle_gone : sample.visitor.handle gone (sampleGraph [p, lib, cmd]) =
      (.ok .skip, sampleGraph [p, lib, cmd, gone]) := by
    decide +kernel
  have read_p : sample.visitor.read p (sampleGraph [p]) = (.ok [lib, cmd], sampleGraph [p]) := by
    decide +kernel
  have read_lib : sample.visitor.read lib (sampleGraph [p, lib]) =
      (.ok [gone, p], sampleGraph [p, lib]) := by
    decide +kernel
  have read_cmd : sample.visitor.read cmd (sampleGraph [p, lib, cmd]) =
      (.ok [], sampleGraph [p, lib, cmd]) := by
    decide +kernel
  have first : Walk.pending [NodeId.key p] [lib, cmd] = [lib, cmd] := by
    rw [Walk.pending_of_sorted (by decide +kernel)]
    decide +kernel
  have second : Walk.pending [NodeId.key lib, NodeId.key p] [gone, p] = [gone] := by
    rw [Walk.pending_of_sorted (by decide +kernel)]
    decide +kernel
  rw [Walk.traverse, Walk.run_descend 3 (by decide +kernel) handle_p read_p, first, List.nil_append,
    Walk.run_descend 2 (by decide +kernel) handle_lib read_lib, second, List.singleton_append,
    Walk.run_descend 1 (by decide +kernel) handle_cmd read_cmd,
    Walk.pending_of_sorted .nil, List.filter_nil, List.append_nil,
    Walk.run_skip 0 (by decide +kernel) handle_gone, Walk.run_nil]
  rfl

/-- The survey of the small workspace comes to its end after the project, its directory, the library
and the package that is missing. -/
theorem survey_sample :
    sample.workspace.packageName sample.root = .ok "p" ∧ sample.Unchanging () ∧
      (Walk.traverse sample.visitor 4 sample.root [] (Graph.empty, ())).outcome = .ok () ∧
      let walked := Walk.traverse sample.reporting.visitor.logged 4 sample.root []
        ⟨(Graph.empty, ⟨(), []⟩), []⟩
      let handled := handledNodes walked.state.calls
      let graph := walked.state.state.1
      Walk.traverse sample.visitor 4 sample.root [] (Graph.empty, ()) =
          ⟨.ok (), walked.visited, (graph, walked.state.state.2.state)⟩ ∧
        (∃ spell : List Component → Path, (∀ p ∈ handled, spell p.components = p) ∧
          ∀ k, k ∈ handled.map Path.components ↔ sample.Covered () spell k) ∧
        ∀ k e, graph.errorOf k = some e ↔ ∃ p ∈ handled, sample.Trouble () p k e := by
  have named : sample.workspace.packageName sample.root = .ok "p" := by decide +kernel
  have steady : sample.Unchanging () := fun _ => ⟨fun _ => rfl, fun _ => rfl, fun _ => rfl⟩
  have ended : (Walk.traverse sample.visitor 4 sample.root [] (Graph.empty, ())).outcome
      = .ok () := congrArg Walked.outcome run_sample
  obtain ⟨same, ⟨-, covered⟩, -, -, -, -, errors⟩ := survey_covers sample 4 () named steady ended
  exact ⟨named, steady, ended, same, covered, errors⟩

end Depot.Survey
