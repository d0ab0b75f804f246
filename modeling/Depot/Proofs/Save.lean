import Depot.Operation
import Depot.Proofs.Consolidation.Placing
import Depot.Proofs.Git.WorkCopy
import Depot.Proofs.Survey.Ending

/-!
# What saving comes to

Saving surveys the project and draws up the manifest of what was found. Where all work trees are in
order and reading packages changes nothing, the survey comes to its end, and a package that is
missing is on record as missing. The manifest, however, asks for the repositories of missing
packages as well: where a pin or a well-known host says which one it would be, the repository is
asked for its revision although it may not be there, and then nothing is saved (`save_orderly`,
`not_saved_for_missing_import`). No other trouble keeps a project from being saved.
-/

namespace Depot

open Git

/-- The repository that an error is about. -/
def ResolveError.root : ResolveError → String
  | revision root _ => root
  | source root _ => root

/-- **Reading packages changes nothing** on disk, nor what other packages are. -/
structure PackageReader.Undisturbed (reader : PackageReader World) (w : World) : Prop where
  /-- The disk stays as it is. -/
  disk : ∀ dirs, (Survey.afterReads reader w dirs).disk = w.disk
  /-- So does the current directory. -/
  cwd : ∀ dirs, (Survey.afterReads reader w dirs).cwd = w.cwd
  /-- And so does what is found in any directory. -/
  found : ∀ dirs dir, (reader.read dir (Survey.afterReads reader w dirs)).1 = (reader.read dir w).1

/-- A reader that leaves the world as it is disturbs nothing. -/
theorem PackageReader.undisturbed_of_still {reader : PackageReader World}
    (still : ∀ dir w, (reader.read dir w).2 = w) (w : World) : reader.Undisturbed w := by
  have same (dirs : List Path) : Survey.afterReads reader w dirs = w := by
    unfold Survey.afterReads
    refine List.foldlRecOn (motive := fun t => t = w) dirs _ rfl fun t ht dir _ => ?_
    rw [still, ht]
  exact ⟨fun dirs => by rw [same], fun dirs => by rw [same], fun dirs dir => by rw [same]⟩

/-! ## The survey -/

namespace Survey

variable {survey : Survey World} {w : World}

/-- A survey of a disk that reading packages does not change. -/
theorem unchanging_of_undisturbed (files : survey.files = World.files)
    (undisturbed : survey.reader.Undisturbed w) : survey.Unchanging w := by
  intro dirs
  refine ⟨fun p => ?_, fun p => ?_, undisturbed.found dirs⟩
  · rw [files]
    unfold World.files
    dsimp only
    rw [undisturbed.disk dirs, undisturbed.cwd dirs]
  · rw [files]
    unfold World.files
    dsimp only
    rw [undisturbed.disk dirs, undisturbed.cwd dirs]

/-- **Nothing happens in a survey but that packages are read.** -/
theorem traverse_afterReads {σ : Type} (survey : Survey σ) (budget : Nat) (s : σ) :
    ∃ dirs, (Walk.traverse survey.visitor budget survey.root [] (Graph.empty, s)).state.2 =
      afterReads survey.reader s dirs := by
  refine Walk.run_keeps (P := fun t : Graph × σ => ∃ dirs, t.2 = afterReads survey.reader s dirs)
    budget ?_ (fun _ _ h => h) ⟨[], rfl⟩
  rintro path ⟨graph, t⟩ ⟨dirs, same⟩
  by_cases h : ∃ name, survey.Reads t path name
  · obtain ⟨name, reads⟩ := h
    refine ⟨dirs ++ [path], ?_⟩
    show (survey.examine path graph t).2.2 = _
    rw [examine_of_reads reads, afterReads_concat, ← same]
  · refine ⟨dirs, ?_⟩
    show (survey.examine path graph t).2.2 = _
    rw [examine_of_not_reads (not_exists.1 h)]
    exact same

end Survey

/-! ## The manifest -/

namespace Consolidation

variable {c : Consolidation World} {w : World}

/-- A work copy that does not tell what is checked out does not tell its revision. -/
theorem revisionOf_handle (c : Consolidation World) (copy : WorkCopy) (w : World) :
    (∃ shown, c.revisionOf copy.handle w = (.ok shown, w)) ∨
      ∃ cause, c.revisionOf copy.handle w = (.error (.revision copy.root cause), w) ∧
        (copy.revision w).1 = .error cause := by
  have root : copy.handle.root = copy.root := rfl
  have branch : copy.handle.branch w = ((copy.branch w).1, w) := rfl
  have revision : copy.handle.revision w = ((copy.revision w).1, w) := rfl
  unfold revisionOf
  rcases exact : (copy.revision w).1 with cause | shown <;>
    rcases named : (copy.branch w).1 with _ | _ <;> rw [exact] at revision <;>
    rw [named] at branch <;> cases c.branches <;> simp [root, branch, revision]

/-- **Putting a work copy on record** leaves the world as it is, and fails only if the work copy
does not tell its revision or where it was fetched from. -/
theorem open?_handle (c : Consolidation World) (copy : WorkCopy) (dep : Dependency) (w : World) :
    (∃ repository, c.open? copy.handle dep w = (.ok repository, w)) ∨
      ∃ e, c.open? copy.handle dep w = (.error e, w) ∧ e.root = copy.root ∧
        ¬ WorkCopy.Sound w copy.path := by
  have remote : copy.handle.remote w = ((copy.source w).1, w) := rfl
  unfold open?
  rcases c.revisionOf_handle copy w with ⟨shown, told⟩ | ⟨cause, told, failed⟩
  · simp only [told, remote]
    rcases answer : (copy.source w).1 with cause | url
    · refine .inr ⟨_, rfl, rfl, fun sound => ?_⟩
      obtain ⟨url, told⟩ := copy.source_of_sound sound
      rw [told] at answer
      cases answer
    · exact .inl ⟨_, rfl⟩
  · simp only [told]
    refine .inr ⟨_, rfl, rfl, fun sound => ?_⟩
    obtain ⟨shown, told⟩ := copy.revision_of_sound sound
    rw [told] at failed
    cases failed

/-- **What may keep a manifest from being drawn up**: a package is missing, and the repository where
it would be, by its pin or its host, is not in order. -/
def LacksRepository (c : Consolidation World) (w : World) (dep : Dependency) (root : String) : Prop :=
  w.disk.exists? w.cwd (c.workspace.packageSource dep.importPath) = false ∧
    ∃ copy, WorkCopy.holding c.workspace dep.importPath (Pin.firstFor c.pins dep.importPath) w
        = .ok copy ∧ copy.root = root ∧ ¬ WorkCopy.Sound w copy.path

theorem LacksRepository.congr {w' : World} {dep : Dependency} {root : String}
    (disk : w'.disk = w.disk) (cwd : w'.cwd = w.cwd) :
    c.LacksRepository w' dep root ↔ c.LacksRepository w dep root := by
  unfold LacksRepository
  simp only [WorkCopy.holding_congr disk cwd, WorkCopy.Sound.congr disk cwd, disk, cwd]

section Manifest

variable (resolver : c.resolver = WorkCopy.resolver c.workspace)
  (orderly : WorkCopy.Orderly c.workspace w)
include resolver orderly

/-- **Placing a package** leaves the world as it is, and fails only if the package is missing and
its repository is not in order. -/
theorem place_world (m : Manifest) (dep : Dependency) :
    (∃ m', c.place m dep w = (.ok m', w)) ∨
      ∃ e, c.place m dep w = (.error e, w) ∧ c.LacksRepository w dep e.root := by
  have found : c.repositoryOf dep.importPath w =
      ((WorkCopy.holding c.workspace dep.importPath
        (Pin.firstFor c.pins dep.importPath) w).map WorkCopy.handle, w) := by
    unfold repositoryOf
    rw [resolver]
    rfl
  have placing := c.placing_place m dep w
  generalize c.place m dep w = placed at placing ⊢
  -- the checkout that is put on record is the work copy that holds the package
  have held {checkout : Checkout World} {s' : World}
      (asked : c.repositoryOf dep.importPath w = (.ok checkout, s')) :
      ∃ copy, WorkCopy.holding c.workspace dep.importPath (Pin.firstFor c.pins dep.importPath) w
        = .ok copy ∧ checkout = copy.handle ∧ s' = w := by
    obtain ⟨answer, rfl⟩ := Prod.mk.inj (found.symm.trans asked)
    rcases here : WorkCopy.holding c.workspace dep.importPath
      (Pin.firstFor c.pins dep.importPath) w with cause | copy
    · rw [here] at answer
      cases answer
    · rw [here] at answer
      exact ⟨copy, rfl, (Except.ok.inj answer).symm, rfl⟩
  cases placing with
  | held => exact .inl ⟨_, rfl⟩
  | unresolved free asked =>
    obtain ⟨-, rfl⟩ := Prod.mk.inj (found.symm.trans asked)
    exact .inl ⟨_, rfl⟩
  | own free asked encloses =>
    obtain ⟨-, rfl⟩ := Prod.mk.inj (found.symm.trans asked)
    exact .inl ⟨_, rfl⟩
  | opened free asked apart told =>
    obtain ⟨copy, -, rfl, same⟩ := held asked
    rw [same] at told
    rcases c.open?_handle copy dep w with ⟨_, opened⟩ | ⟨_, untold, -⟩
    · cases opened.symm.trans told
      exact .inl ⟨_, rfl⟩
    · cases untold.symm.trans told
  | failed free asked apart untold =>
    obtain ⟨copy, holds, rfl, same⟩ := held asked
    rw [same] at untold
    rcases c.open?_handle copy dep w with ⟨_, opened⟩ | ⟨_, failed, root, unsound⟩
    · cases opened.symm.trans untold
    · cases failed.symm.trans untold
      refine .inr ⟨_, rfl, ?_, copy, holds, root.symm, unsound⟩
      by_contra there
      exact unsound (WorkCopy.holding_sound orderly (by simpa using there) holds)

/-- **A manifest is drawn up**, unless the repository of a missing package is not in order. -/
theorem manifest_world (graph : Graph) :
    (∃ m, (c.manifest graph w).1 = .ok m) ∨
      ∃ e, (c.manifest graph w).1 = .error e ∧
        ∃ dep ∈ graph.records, c.LacksRepository w dep e.root := by
  have run := placeAll_run (c := c) graph.records (s := w) (motive := fun _ _ t => t = w) rfl
    fun done dep rest m s m' s' _ same placed => by
      subst same
      rcases place_world resolver orderly m dep with ⟨_, here⟩ | ⟨_, here, -⟩
      · exact (Prod.mk.inj (here.symm.trans placed)).2.symm
      · cases here.symm.trans placed
  unfold manifest
  rcases run with ⟨m, s', all, -⟩ | ⟨done, dep, rest, m, t, e, s', split, rfl, placed, all⟩
  · rw [all]
    exact .inl ⟨_, rfl⟩
  · rcases place_world resolver orderly m dep with ⟨_, here⟩ | ⟨e', here, lacks⟩
    · cases here.symm.trans placed
    · cases here.symm.trans placed
      rw [all]
      exact .inr ⟨e, rfl, dep, by simp [split], lacks⟩

end Manifest

end Consolidation

/-! ## The whole operation -/

namespace Project

/-- What a project in a world of work copies is saved with. -/
def workCopies (p : Project) (reader : PackageReader World) (budget : Nat) : Means World where
  files := World.files
  reader := reader
  resolver := WorkCopy.resolver p.workspace
  budget := budget

/-- The import path of a project is that of its directory. -/
theorem packageName_root {p : Project} {name : String} (named : p.importPath = .ok name) :
    p.workspace.packageName p.root = .ok name := by
  unfold importPath at named
  split at named
  · next found => rwa [← Except.ok.inj named]
  · cases named

/-- Once the survey has come to its end, saving is drawing up the manifest of its graph. -/
theorem save_of_ended {σ : Type} {p : Project} {means : Means σ} {s : σ} {name : String}
    (named : p.importPath = .ok name)
    (ended : (Walk.traverse (p.survey means).visitor means.budget p.root []
      (Graph.empty, s)).outcome = .ok ()) :
    let graph := (Walk.traverse (p.survey means).visitor means.budget p.root []
      (Graph.empty, s)).state
    (p.save means s).1 =
      (((p.consolidation means).manifest graph.1 graph.2).1.mapError .resolving).map
        fun m => (graph.1, m) := by
  intro graph
  unfold save
  rw [named]
  dsimp only
  rw [ended]
  dsimp only [graph]
  generalize (p.consolidation means).manifest _ _ = drawn
  rcases drawn with ⟨_ | _, _⟩ <;> rfl

/-- **A project is saved, unless the repository of a missing package is not in order.** Let the
project have an import path, let reading packages change nothing, and let all work trees below the
source directory be in order. Then, on a budget that is large enough,

* the survey comes to its end;
* the path of each import, as the survey wrote it, is on record as missing if nothing is there, and
  it has no imports on record;
* the project is saved with the graph of the survey, or else there is a package in that graph that
  is missing, for which its pin or its host says a repository that is not in order, and the error
  names this repository. -/
theorem save_orderly (p : Project) (reader : PackageReader World) (w : World) {name : String}
    (named : p.importPath = .ok name) (undisturbed : reader.Undisturbed w)
    (orderly : WorkCopy.Orderly p.workspace w) :
    ∃ enough, ∀ budget, enough ≤ budget →
      let means := p.workCopies reader budget
      let surveyed := Walk.traverse (p.survey means).visitor budget p.root [] (Graph.empty, w)
      let graph := surveyed.state.1
      surveyed.outcome = .ok () ∧
        (∀ q i, graph.Imports q i → ∃ path : Path,
          path.components = (p.workspace.packageSource i).components ∧
            (World.files.kind path w = .error .notFound →
              ∀ k, p.workspace.packageName path = .ok k →
                graph.errorOf k = some (.notFound path) ∧ ∀ j, ¬ graph.Imports k j)) ∧
        ((∃ m, (p.save means w).1 = .ok (graph, m)) ∨
          ∃ e, (p.save means w).1 = .error (.resolving e) ∧
            ∃ dep ∈ graph.records, (p.consolidation means).LacksRepository w dep e.root) := by
  have inside := packageName_root named
  refine ⟨((p.survey (p.workCopies reader 0)).region w).ncard, fun budget enough => ?_⟩
  intro means surveyed graph
  have steady : (p.survey means).Unchanging w :=
    Survey.unchanging_of_undisturbed rfl undisturbed
  have ended : surveyed.outcome = .ok () :=
    Survey.traverse_ends (p.survey means) w inside steady
      (fun path _ there => World.directories_isOk there) w.finite_directories enough
  obtain ⟨dirs, after⟩ := (p.survey means).traverse_afterReads budget w
  have disk : surveyed.state.2.disk = w.disk := after ▸ undisturbed.disk dirs
  have cwd : surveyed.state.2.cwd = w.cwd := after ▸ undisturbed.cwd dirs
  have drawn := Consolidation.manifest_world (c := p.consolidation means) rfl
    (WorkCopy.Orderly.congr disk cwd orderly) graph
  refine ⟨ended, (p.survey means).traverse_missing budget w inside steady ended, ?_⟩
  have save : (p.save means w).1 =
      (((p.consolidation means).manifest graph surveyed.state.2).1.mapError .resolving).map
        fun m => (graph, m) := save_of_ended named ended
  rcases drawn with ⟨m, drawn⟩ | ⟨e, failed, dep, hd, lacks⟩
  · rw [drawn] at save
    exact .inl ⟨m, save⟩
  · rw [failed] at save
    exact .inr ⟨e, save, dep, hd, (Consolidation.LacksRepository.congr disk cwd).1 lacks⟩

/-- A project whose workspace holds nothing else. -/
def lonely : Project where
  cwd := ⟨"/w/src/p"⟩
  root := ⟨"/w/src/p"⟩
  configuration := {}
  usualWorkspace := ⟨"/w"⟩

/-- The world it is in. -/
def lonelyWorld : World where
  disk := ⟨[(["w"], .directory), (["w", "src"], .directory), (["w", "src", "p"], .directory)]⟩

/-- It imports a package of a well-known host. -/
def lonelyReader : PackageReader World where
  read dir w := ((if dir.text = "/w/src/p" then { imports := ["github.com/gone/away"] } else {}), w)

theorem lonely_undisturbed : lonelyReader.Undisturbed lonelyWorld :=
  PackageReader.undisturbed_of_still (fun _ _ => rfl) lonelyWorld

theorem lonely_orderly : WorkCopy.Orderly lonely.workspace lonelyWorld := by
  have directories {l : Location} {e : Entry} (h : lonelyWorld.disk.get? l = some e) :
      e = .directory ∧ l.getLast? ≠ some ".git" := by
    unfold Disk.get? at h
    split at h
    · next top =>
      cases h
      exact ⟨rfl, by simp [top]⟩
    · obtain ⟨before, after, held, -⟩ := List.lookup_eq_some_iff.1 h
      have entry : (l, e) ∈ lonelyWorld.disk.entries := by simp [held]
      simp only [lonelyWorld, List.mem_cons, List.not_mem_nil, or_false, Prod.mk.injEq] at entry
      rcases entry with ⟨rfl, rfl⟩ | ⟨rfl, rfl⟩ | ⟨rfl, rfl⟩ <;> exact ⟨rfl, by decide⟩
  refine WorkCopy.orderly_of_none (fun l target h => ?_) fun l h => ?_
  · cases (directories h).1
  · obtain ⟨e, h⟩ := Option.isSome_iff_exists.1 h
    exact (directories h).2

/-- The lonely project imports a package that is missing, and all work trees are in order, for there
are none. -/
theorem save_lonely :
    lonely.importPath = .ok "p" ∧ lonelyReader.Undisturbed lonelyWorld ∧
      WorkCopy.Orderly lonely.workspace lonelyWorld ∧
      ∃ enough, ∀ budget, enough ≤ budget →
        let means := lonely.workCopies lonelyReader budget
        let surveyed := Walk.traverse (lonely.survey means).visitor budget lonely.root []
          (Graph.empty, lonelyWorld)
        let graph := surveyed.state.1
        surveyed.outcome = .ok () ∧
          (∀ q i, graph.Imports q i → ∃ path : Path,
            path.components = (lonely.workspace.packageSource i).components ∧
              (World.files.kind path lonelyWorld = .error .notFound →
                ∀ k, lonely.workspace.packageName path = .ok k →
                  graph.errorOf k = some (.notFound path) ∧ ∀ j, ¬ graph.Imports k j)) ∧
          ((∃ m, (lonely.save means lonelyWorld).1 = .ok (graph, m)) ∨
            ∃ e, (lonely.save means lonelyWorld).1 = .error (.resolving e) ∧
              ∃ dep ∈ graph.records,
                (lonely.consolidation means).LacksRepository lonelyWorld dep e.root) := by
  have named : lonely.importPath = .ok "p" := by decide +kernel
  exact ⟨named, lonely_undisturbed, lonely_orderly,
    save_orderly lonely lonelyReader lonelyWorld named lonely_undisturbed lonely_orderly⟩

/-- The survey of the lonely project. -/
def lonelySurvey : Survey World := lonely.survey (lonely.workCopies lonelyReader 0)

/-- It enters the project, and finds nothing where the import leads. -/
theorem survey_lonely (budget : Nat) :
    let p : Path := ⟨"/w/src/p"⟩
    let gone : Path := ⟨"/w/src/github.com/gone/away"⟩
    Walk.traverse lonelySurvey.visitor (budget + 2) p [] (Graph.empty, lonelyWorld) =
      ⟨.ok (), [gone.components, p.components],
        (lonelySurvey.snapshot lonelyWorld [p, gone], lonelyWorld)⟩ := by
  intro p gone
  have reads : lonelySurvey.Reads lonelyWorld p "p" :=
    ⟨by decide +kernel, by decide +kernel, by decide +kernel⟩
  have none (name : String) : ¬ lonelySurvey.Reads lonelyWorld gone name := by
    intro reads
    have missing : lonelySurvey.files.kind gone lonelyWorld = .error .notFound := by
      decide +kernel
    cases missing.symm.trans reads.directory
  have read_p : lonelySurvey.visitor.read p (lonelySurvey.snapshot lonelyWorld [p], lonelyWorld) =
      (.ok [gone], (lonelySurvey.snapshot lonelyWorld [p], lonelyWorld)) := by
    have next : lonelySurvey.next p (lonelySurvey.snapshot lonelyWorld [p]) lonelyWorld =
        .ok [gone] := by
      decide +kernel
    exact congrArg (·, _) next
  have first : Walk.pending [NodeId.key p] [gone] = [gone] := by
    rw [Walk.pending_of_sorted (List.pairwise_singleton _ _)]
    decide +kernel
  have start : (Graph.empty : Graph) = lonelySurvey.snapshot lonelyWorld [] := rfl
  rw [Walk.traverse, start, Walk.run_descend (budget + 1) (by decide +kernel)
      (Survey.handle_of_reads reads []) read_p, first, List.nil_append,
    Walk.run_skip budget (by decide +kernel) (Survey.handle_of_not_reads none [p]), Walk.run_nil]
  rfl

/-- **A missing import may keep a project from being saved**, although the directories of the
project can be listed and there is no work tree that is not in order. -/
theorem not_saved_for_missing_import :
    lonely.importPath = .ok "p" ∧ lonelyReader.Undisturbed lonelyWorld ∧
      WorkCopy.Orderly lonely.workspace lonelyWorld ∧
      ∀ budget, 2 ≤ budget →
        (lonely.save (lonely.workCopies lonelyReader budget) lonelyWorld).1 =
          .error (.resolving (.revision "github.com/gone/away"
            { messages := ["failed to open git repository: /w/src/github.com/gone/away"]
              beyond := some "failed to resolve path '/w/src/github.com/gone/away'" })) := by
  have named : lonely.importPath = .ok "p" := by decide +kernel
  refine ⟨named, lonely_undisturbed, lonely_orderly, fun budget enough => ?_⟩
  obtain ⟨budget, rfl⟩ := Nat.exists_eq_add_of_le' enough
  let means := lonely.workCopies lonelyReader (budget + 2)
  let graph := lonelySurvey.snapshot lonelyWorld [⟨"/w/src/p"⟩, ⟨"/w/src/github.com/gone/away"⟩]
  have walk : Walk.traverse (lonely.survey means).visitor means.budget lonely.root []
      (Graph.empty, lonelyWorld) = ⟨.ok (), _, (graph, lonelyWorld)⟩ := survey_lonely budget
  have drawn : ((lonely.consolidation means).manifest graph lonelyWorld).1 =
      .error (.revision "github.com/gone/away"
        { messages := ["failed to open git repository: /w/src/github.com/gone/away"]
          beyond := some "failed to resolve path '/w/src/github.com/gone/away'" }) := by
    show ((lonely.consolidation (lonely.workCopies lonelyReader 0)).manifest graph lonelyWorld).1 = _
    decide +kernel
  have saved := save_of_ended named (congrArg Walked.outcome walk)
  rw [walk] at saved
  exact saved.trans (by rw [drawn]; rfl)

end Project

end Depot
