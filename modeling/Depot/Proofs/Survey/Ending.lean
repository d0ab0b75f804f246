import Depot.Proofs.Survey.Reach
import Depot.World
import Mathlib.Data.Fintype.EquivFin
import Mathlib.Data.Set.Finite.Lattice
import Mathlib.Data.Set.Finite.List

/-!
# A survey comes to its end

A survey goes wherever directories and imports lead, and imports may lead anywhere. It still comes
to its end on any disk with finitely many directories: each node handled is the root or one that an
existing directory leads to. Trouble with a package does not end it early, and neither does a
missing one; only a directory of the project that cannot be listed would.

The disk of a world is such a disk. A path of `Disk.pathLimit` bytes leads nowhere, so there are
finitely many that lead to a directory, links and detours included, and any directory can be listed.
-/

namespace Depot

namespace Survey

open VisitorCall

variable {σ : Type} {survey : Survey σ} {s : σ}

/-- **The directories of the project can be listed.** -/
def Listable (survey : Survey σ) (s : σ) : Prop :=
  ∀ path, path.startsWith survey.root = true → survey.files.kind path s = .ok .directory →
    ∃ names, survey.files.directories path s = .ok names

/-- **Where a survey may go**: the root, and whatever a directory leads to. -/
def region (survey : Survey σ) (s : σ) : Set (List Component) :=
  {survey.root.components} ∪ ⋃ path ∈ {path | survey.files.kind path s = .ok .directory},
    {k | k ∈ (survey.children s path).map Path.components}

/-- Finitely many directories lead to finitely many places. -/
theorem finite_region (few : {path | survey.files.kind path s = .ok .directory}.Finite) :
    (survey.region s).Finite :=
  (Set.finite_singleton _).union (few.biUnion fun _ _ => List.finite_toSet _)

/-- **A survey does not leave its region.** -/
theorem mem_region_of_reaches {calls : List (VisitorCall Path SurveyError)}
    (read : readNodes calls = enteredNodes calls)
    (answered : ∀ call ∈ calls, survey.Answered s call) {k : List Component}
    (h : Walk.Reaches (Walk.Reports calls) [] (NodeId.key survey.root) k) :
    k ∈ survey.region s := by
  obtain ⟨-, path⟩ := h
  -- the last edge of the path was reported by a directory that was entered
  rcases Relation.ReflTransGen.cases_tail path with rfl | ⟨_, -, ⟨node, children, named, -, hk⟩, -⟩
  · exact .inl rfl
  · have entered : node ∈ enteredNodes calls := read ▸ mem_readNodes.2 ⟨_, named⟩
    obtain ⟨-, e⟩ := answered _ named
    obtain rfl := Except.ok.inj e
    rcases answered _ (mem_enteredNodes.1 entered) with ⟨⟨name, reads⟩, -⟩ | ⟨-, e⟩
    · exact .inr (Set.mem_biUnion reads.directory hk)
    · cases e

/-- A package that is entered can be asked for what it leads to. -/
theorem next_isOk {path : Path} {name : String} (reads : survey.Reads s path name)
    (listable : survey.Listable s) (graph : Graph) : ∃ nodes, survey.next path graph s = .ok nodes := by
  have below : ∃ dirs, survey.below path s = .ok dirs := by
    unfold below
    by_cases inside : path.startsWith survey.root = true
    · obtain ⟨names, listed⟩ := listable path inside reads.directory
      rw [if_pos inside, Files.visibleSubdirectories, listed]
      exact ⟨_, rfl⟩
    · rw [if_neg inside]
      exact ⟨[], rfl⟩
  obtain ⟨dirs, below⟩ := below
  unfold next
  rw [below, reads.named]
  dsimp only
  cases graph.get? name with
  | none => exact ⟨_, rfl⟩
  | some dep =>
    dsimp only
    split <;> exact ⟨_, rfl⟩

theorem Apart.next_eq {paths : List Path} {path : Path} {name : String} (h : survey.Apart paths)
    (hp : path ∈ paths) (reads : survey.Reads s path name) (listable : survey.Listable s) :
    survey.next path (survey.snapshot s paths) s = .ok (survey.children s path) := by
  obtain ⟨nodes, named⟩ := next_isOk reads listable (survey.snapshot s paths)
  rw [named, (next_snapshot h hp reads named).2]

/-- A survey goes as it does beside reports and a log. -/
theorem traverse_reporting (survey : Survey σ) (budget : Nat) (s : σ) :
    Walk.traverse survey.visitor budget survey.root [] (Graph.empty, s) =
      let walked := Walk.traverse survey.reporting.visitor.logged budget survey.root []
        ⟨(Graph.empty, ⟨s, []⟩), []⟩
      ⟨walked.outcome, walked.visited, (walked.state.state.1, walked.state.state.2.state)⟩ := by
  have beside := Walk.traverse_project survey.projects_reporting budget survey.root []
    (Graph.empty, ⟨s, []⟩)
  rw [Walk.traverse_logged survey.reporting.visitor budget survey.root [] _ []] at beside
  exact beside

/-- **A survey comes to its end**, if its root has an import path, reading packages changes nothing,
the directories of the project can be listed and there are finitely many directories. -/
theorem traverse_ends (survey : Survey σ) (s : σ) {name : String}
    (named : survey.workspace.packageName survey.root = .ok name) (steady : survey.Unchanging s)
    (listable : survey.Listable s)
    (few : {path | survey.files.kind path s = .ok .directory}.Finite) {budget : Nat}
    (enough : (survey.region s).ncard ≤ budget) :
    (Walk.traverse survey.visitor budget survey.root [] (Graph.empty, s)).outcome = .ok () := by
  rw [traverse_reporting]
  obtain ⟨c, explored, surveyed, read, stop, count⟩ := run_surveyed survey budget s named steady
  generalize Walk.traverse survey.reporting.visitor.logged budget survey.root []
    ⟨(Graph.empty, ⟨s, []⟩), []⟩ = walked at stop count ⊢
  cases stop with
  | finished => rfl
  | handle new failed => cases failed
  | @read node _ _ before middle _ _ _ new handled failed =>
    have alike : survey.Alike before.2.state s := surveyed.alike steady
    rcases handle_eq_ok handled with ⟨⟨name, reads⟩, -, rfl⟩ | ⟨-, e, -⟩
    · have alike' : survey.Alike (survey.reader.read node before.2.state).2 s := by
        have := steady (before.2.reports.map Prod.fst ++ [node])
        rwa [afterReads_concat, ← surveyed.state_eq] at this
      obtain ⟨nodes, next⟩ := next_isOk (alike.reads_iff.1 reads) listable
        (before.1.addAll (survey.records before.2.state node))
      rw [← alike'.next_eq] at next
      obtain ⟨e, -⟩ := Prod.mk.inj failed
      cases e.symm.trans next
    · cases e
  | exhausted new =>
    have room := explored.length_lt_ncard new
      (fun k => mem_region_of_reaches read surveyed.answered) (finite_region few)
    have used := count _ rfl
    rw [explored.visited_eq, List.append_nil, List.length_reverse] at used
    omega

/-! ## Handling paths one after another -/

/-- A path that is a package joins the snapshot and is entered. -/
theorem handle_of_reads {path : Path} {name : String} (reads : survey.Reads s path name)
    (paths : List Path) :
    survey.visitor.handle path (survey.snapshot s paths, s) =
      (.ok .descend, (survey.snapshot s (paths ++ [path]), (survey.reader.read path s).2)) := by
  rw [← addAll_snapshot]
  show (Except.ok (survey.examine path (survey.snapshot s paths) s).1,
    (survey.examine path (survey.snapshot s paths) s).2) = _
  rw [examine_of_reads reads]

/-- Any other path joins the snapshot and is skipped. -/
theorem handle_of_not_reads {path : Path} (none : ∀ name, ¬ survey.Reads s path name)
    (paths : List Path) :
    survey.visitor.handle path (survey.snapshot s paths, s) =
      (.ok .skip, (survey.snapshot s (paths ++ [path]), s)) := by
  rw [← addAll_snapshot]
  show (Except.ok (survey.examine path (survey.snapshot s paths) s).1,
    (survey.examine path (survey.snapshot s paths) s).2) = _
  rw [examine_of_not_reads none]

/-- Where the graph names what to visit next, that is read. -/
theorem read_of_next {path : Path} {graph : Graph} {children : List Path}
    (next : survey.next path graph s = .ok children) :
    survey.visitor.read path (graph, s) = (.ok children, (graph, s)) :=
  congrArg (·, (graph, s)) next

/-- **Paths that lead nowhere new** join the snapshot one after another, and then the survey is at
its end. -/
theorem run_snapshot (listable : survey.Listable s) (paths : List Path) {queue : List Path}
    {budget : Nat} (enough : queue.length ≤ budget) (apart : survey.Apart (paths ++ queue))
    (still : ∀ path ∈ queue, (survey.reader.read path s).2 = s)
    (old : ∀ path ∈ queue, ∀ child ∈ survey.children s path,
      child.components = path.components ∨ child.components ∈ paths.map Path.components) :
    Walk.run survey.visitor budget queue (paths.map Path.components).reverse
      (survey.snapshot s paths, s) =
        ⟨.ok (), ((paths ++ queue).map Path.components).reverse,
          (survey.snapshot s (paths ++ queue), s)⟩ := by
  induction queue generalizing paths budget with
  | nil =>
    rw [List.append_nil]
    exact Walk.run_nil budget
  | cons path queue ih =>
    obtain _ | budget := budget
    · cases enough
    have new : NodeId.key path ∉ (paths.map Path.components).reverse := by
      have once := apart.once
      rw [List.map_append, List.map_cons] at once
      rw [List.mem_reverse]
      exact fun before => (List.nodup_append.1 once).2.2 _ before _ List.mem_cons_self rfl
    have visited : ((paths ++ [path]).map Path.components).reverse =
        NodeId.key path :: (paths.map Path.components).reverse := by
      rw [List.map_append, List.reverse_append]
      rfl
    have apart' : survey.Apart ((paths ++ [path]) ++ queue) := by
      rwa [List.append_assoc]
    have rest := ih (paths ++ [path]) (Nat.le_of_succ_le_succ enough) apart'
      (fun p hp => still p (List.mem_cons_of_mem path hp)) fun p hp child hc => by
        rw [List.map_append]
        exact (old p (List.mem_cons_of_mem path hp) child hc).imp_right (List.mem_append_left _)
    rw [visited, List.append_assoc] at rest
    by_cases reads : ∃ name, survey.Reads s path name
    · obtain ⟨name, reads⟩ := reads
      have handle := handle_of_reads reads paths
      rw [still path List.mem_cons_self] at handle
      have next := (apart'.sublist (List.sublist_append_left _ _)).next_eq (by simp) reads listable
      have nothing : Walk.pending (NodeId.key path :: (paths.map Path.components).reverse)
          (survey.children s path) = [] :=
        Walk.pending_of_old fun child hc =>
          List.mem_cons.2 ((old path List.mem_cons_self child hc).imp_right List.mem_reverse.2)
      rw [Walk.run_descend budget new handle (read_of_next next), nothing, List.append_nil]
      exact rest
    · rw [Walk.run_skip budget new (handle_of_not_reads (not_exists.1 reads) paths)]
      exact rest

/-! ## What a survey that has come to its end leaves -/

/-- **Paths that are all that a survey covers**, and how each is written among them. -/
structure Covering (survey : Survey σ) (s : σ) (paths : List Path) (spell : List Component → Path) :
    Prop where
  /-- No two of them are the same. -/
  apart : survey.Apart paths
  /-- Each is written as it is. -/
  spelled : ∀ p ∈ paths, spell p.components = p
  /-- They are what is covered. -/
  covered : ∀ k, k ∈ paths.map Path.components ↔ survey.Covered s spell k

namespace Covering

variable {paths : List Path} {spell : List Component → Path} {k : List Component} {path : Path}

/-- Whatever is covered is written as one of the paths. -/
theorem mem (h : survey.Covering s paths spell) (covered : survey.Covered s spell k) :
    spell k ∈ paths ∧ (spell k).components = k := by
  obtain ⟨path, hp, rfl⟩ := List.mem_map.1 ((h.covered k).2 covered)
  rw [h.spelled path hp]
  exact ⟨hp, rfl⟩

theorem covered_of_mem (h : survey.Covering s paths spell) (hp : path ∈ paths) :
    survey.Covered s spell path.components :=
  (h.covered _).1 (List.mem_map_of_mem hp)

end Covering

/-- **A survey that has come to its end** leaves the snapshot of what it covers. -/
theorem exists_covering (survey : Survey σ) (budget : Nat) (s : σ) {name : String}
    (named : survey.workspace.packageName survey.root = .ok name) (steady : survey.Unchanging s) :
    let surveyed := Walk.traverse survey.visitor budget survey.root [] (Graph.empty, s)
    surveyed.outcome = .ok () →
      ∃ paths spell, survey.Covering s paths spell ∧
        surveyed.state.1 = survey.snapshot s paths := by
  rw [traverse_reporting]
  intro surveyed ended
  obtain ⟨explored, kept⟩ := traverse_surveyed survey budget s named steady rfl ended
  have read := Walk.run_readNodes survey.reporting.visitor budget [survey.root] []
    (Graph.empty, ⟨s, []⟩) [] rfl
  have spelled := fun p hp => kept.apart.spelling_eq (p := p) hp
  exact ⟨_, _, ⟨kept.apart, spelled, fun k =>
    mem_handledKeys_iff_covered spelled read kept.answered explored⟩, kept.graph_eq⟩

/-- **Paths that the imports of their packages do not leave**: they are kept apart, the root is
among them, and so are the directories of what their packages import. -/
structure Closed (survey : Survey σ) (s : σ) (paths : List Path) : Prop where
  /-- No two of them are the same. -/
  apart : survey.Apart paths
  /-- The root is among them. -/
  root : ∃ path ∈ paths, path.components = survey.root.components
  /-- So are the imports of their packages. -/
  imports : ∀ path ∈ paths, ∀ name, survey.Reads s path name → ∀ i ∈ (survey.found s path).imports,
    ∃ there ∈ paths, there.components = (survey.workspace.packageSource i).components

theorem Covering.closed {paths : List Path} {spell : List Component → Path}
    (h : survey.Covering s paths spell) : survey.Closed s paths where
  apart := h.apart
  root := ⟨_, h.mem .root⟩
  imports path hp name reads i hi := by
    have here := h.spelled path hp
    have enters : survey.Enters s (spell path.components) := by
      rw [here]
      exact ⟨⟨name, reads⟩, fun broken => List.ne_nil_of_mem hi broken.1⟩
    exact ⟨_, h.mem (.imported (h.covered_of_mem hp) enters (here.symm ▸ hi))⟩

/-- **A survey that has come to its end** leaves the snapshot of such paths. -/
theorem exists_closed (survey : Survey σ) (budget : Nat) (s : σ) {name : String}
    (named : survey.workspace.packageName survey.root = .ok name) (steady : survey.Unchanging s) :
    let surveyed := Walk.traverse survey.visitor budget survey.root [] (Graph.empty, s)
    surveyed.outcome = .ok () →
      ∃ paths, survey.Closed s paths ∧ surveyed.state.1 = survey.snapshot s paths := by
  intro surveyed ended
  obtain ⟨paths, _, covering, graph_eq⟩ := exists_covering survey budget s named steady ended
  exact ⟨paths, covering.closed, graph_eq⟩

/-- **What is missing is on record as missing**, and no imports are. -/
theorem Apart.recorded_missing {paths : List Path} (apart : survey.Apart paths) {path : Path}
    (hp : path ∈ paths) (missing : survey.files.kind path s = .error .notFound) {k : String}
    (named : survey.workspace.packageName path = .ok k) :
    (survey.snapshot s paths).errorOf k = some (.notFound path) ∧
      ∀ j, ¬ (survey.snapshot s paths).Imports k j := by
  constructor
  · exact apart.errorOf_snapshot.2 ⟨path, hp, .absent named (by rw [missing]; rfl)⟩
  · intro j edge
    obtain ⟨q, hq, reads, -⟩ := imports_snapshot.1 edge
    obtain rfl := apart.eq_of_packageName hq hp reads.named named
    cases missing.symm.trans reads.directory

/-- **The survey tells what is missing.** In the graph of a survey that has come to its end, a path
that an import leads to is on record as missing, and without imports, if nothing is there. -/
theorem traverse_missing (survey : Survey σ) (budget : Nat) (s : σ) {name : String}
    (named : survey.workspace.packageName survey.root = .ok name) (steady : survey.Unchanging s) :
    let surveyed := Walk.traverse survey.visitor budget survey.root [] (Graph.empty, s)
    surveyed.outcome = .ok () → ∀ q i, surveyed.state.1.Imports q i → ∃ path : Path,
      path.components = (survey.workspace.packageSource i).components ∧
        (survey.files.kind path s = .error .notFound →
          ∀ k, survey.workspace.packageName path = .ok k →
            surveyed.state.1.errorOf k = some (.notFound path) ∧
              ∀ j, ¬ surveyed.state.1.Imports k j) := by
  intro surveyed ended q i edge
  obtain ⟨paths, closed, graph_eq⟩ := exists_closed survey budget s named steady ended
  rw [graph_eq] at edge ⊢
  obtain ⟨path, hp, reads, hi⟩ := imports_snapshot.1 edge
  obtain ⟨there, ht, same⟩ := closed.imports path hp q reads i hi
  exact ⟨there, same, fun missing k named => closed.apart.recorded_missing ht missing named⟩

end Survey

/-! ## The disk of a world -/

namespace World

theorem finite_texts (limit : Nat) : {text : String | text.utf8ByteSize < limit}.Finite := by
  have octets : Finite UInt8 := Finite.of_injective UInt8.toFin fun _ _ => UInt8.toFin_inj.1
  have bytes : ((fun text : String => text.toByteArray.data.toList) ''
      {text | text.utf8ByteSize < limit}).Finite := by
    refine (List.finite_length_lt UInt8 limit).subset ?_
    rintro _ ⟨text, short, rfl⟩
    exact short
  refine bytes.of_finite_image fun text _ text' _ same => ?_
  exact String.toByteArray_inj.1 (ByteArray.ext (Array.toList_inj.1 same))

theorem size_lt_of_kind {path : Path} {w : World} {kind : FileKind}
    (h : files.kind path w = .ok kind) : path.text.utf8ByteSize < Disk.pathLimit := by
  by_contra long
  have refused : ∃ e, w.disk.locate w.cwd path true = .error e := by
    unfold Disk.locate
    split
    · exact ⟨_, rfl⟩
    · split
      · exact ⟨_, rfl⟩
      · rw [if_pos (Nat.le_of_not_lt long)]
        exact ⟨_, rfl⟩
  obtain ⟨e, refused⟩ := refused
  simp [files, Disk.resolve, refused] at h

/-- **A disk has finitely many directories**, in whatever way they are written. -/
theorem finite_directories (w : World) : {path | files.kind path w = .ok .directory}.Finite := by
  refine ((finite_texts Disk.pathLimit).image Path.mk).subset fun path h => ?_
  exact ⟨path.text, size_lt_of_kind h, rfl⟩

/-- **A directory can be listed.** -/
theorem directories_isOk {path : Path} {w : World} (h : files.kind path w = .ok .directory) :
    ∃ names, files.directories path w = .ok names := by
  unfold files at h ⊢
  dsimp only at h ⊢
  rcases found : w.disk.resolve w.cwd path with e | ⟨l, entry⟩
  · rw [found] at h
    cases h
  · cases entry <;> exact ⟨_, rfl⟩

end World

end Depot
