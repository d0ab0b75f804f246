import Depot.Proofs.Cloning
import Depot.Proofs.Git.Holding
import Depot.Proofs.Git.Remains
import Depot.Proofs.Loader.Recording
import Depot.Proofs.Path.Resolved
import Depot.Proofs.Workspace.Containment

/-!
# Where loading looks, reads and clones

To load a package is to look on disk at one place, that of the package, and to read there; and if
the package is missing, to clone into the place of a root that contains it. The packages that a walk
loads are its starting points and what was reported as an import on the way (`LoadPlan.Named`). So
where a walk goes is told by the import paths it was given, and as long as none leads above where it
begins, it does not leave the source directory (`LoadPlan.fetching_confined`).

An import path that does leave is not stopped. The segments after the first one do not decide
whether an import path is remote, and they may be `..`: then packages outside the workspace are
read, and repositories are cloned there (`LoadPlan.fetching_leaves_workspace`).
-/

namespace Depot

open VisitorCall

/-- **What contains a grounded import path is grounded**: its segments come first. -/
theorem ImportPath.Grounded.of_contains {root path : String} (h : Grounded path)
    (contains : contains root path = true) : Grounded root := by
  have begins := contains_iff_prefix.1 contains
  unfold Grounded at h ⊢
  rw [← Segments.solid_counted]
  exact h.of_begins (begins.filter _)

namespace LoadPlan

variable {σ : Type} {plan : LoadPlan σ} {package : String} {loader : Loader}

/-! ## One package -/

/-- **Of the disk, only the place of the package counts** when it is loaded. -/
theorem load_congr_files (plan : LoadPlan σ) {files : Files σ}
    (agree : ∀ s, files.kind (plan.workspace.packageSource package) s =
      plan.files.kind (plan.workspace.packageSource package) s) (loader : Loader) (s : σ) :
    ({ plan with files } : LoadPlan σ).load package loader s = plan.load package loader s := by
  have provide : ({ plan with files } : LoadPlan σ).provide package loader.pinned s =
      plan.provide package loader.pinned s := by
    unfold LoadPlan.provide
    simp only [agree]
    rfl
  unfold load
  rw [provide]

/-- **What is done for a package.** -/
inductive DoneFor (plan : LoadPlan σ) (package : String) : Account σ → Prop
  /-- Its directory is read. -/
  | read {succeeded : Bool} {before after : σ} :
      DoneFor plan package
        ⟨.read (plan.workspace.packageSource package), succeeded, before, after⟩
  /-- It is missing, and the repository that is known for it is fetched. -/
  | create {checkout : Checkout σ} {s before after : σ} {result : Except Fault Unit}
      (missing : plan.kindOf package s = .error .notFound)
      (asked : plan.repositoryOf package s = (.ok checkout, before))
      (done : checkout.create ((Pin.firstFor plan.pins package).bind (·.revision)) before =
        (result, after)) :
      DoneFor plan package
        ⟨.create package (Pin.firstFor plan.pins package) checkout.root
          ((Pin.firstFor plan.pins package).bind (·.revision)), result.toBool, before, after⟩
  /-- The repository that is known for it is moved. -/
  | setRevision {pin : Option Pin} {root revision : String} {succeeded : Bool} {before after : σ} :
      DoneFor plan package ⟨.setRevision package pin root revision, succeeded, before, after⟩

/-- What is done to have a package on disk is done for it. -/
theorem Telling.exists_accounts {pinned : StringSet} {c c' : Chronicle σ}
    {outcome : Except LoadError StringSet} (telling : plan.Telling package pinned c (outcome, c')) :
    ∃ more, c'.accounts = c.accounts ++ more ∧ ∀ a ∈ more, plan.DoneFor package a := by
  cases telling with
  | idle _ _ => exact ⟨[], (List.append_nil _).symm, by simp⟩
  | fetch missing asked done =>
    exact ⟨_, rfl, List.forall_mem_singleton.2 (.create missing asked done)⟩
  | move there update governed declared unsettled asked done =>
    exact ⟨_, rfl, List.forall_mem_singleton.2 .setRevision⟩

/-- **So is all that is done to load it.** -/
theorem exists_accounts_load (plan : LoadPlan σ) (package : String) (loader : Loader)
    (c : Chronicle σ) :
    ∃ more, (plan.chronicling.load package loader c).2.2.accounts = c.accounts ++ more ∧
      ∀ a ∈ more, plan.DoneFor package a := by
  have recounting := plan.recounting_load package loader c
  generalize plan.chronicling.load package loader c = told at recounting ⊢
  cases recounting with
  | refused telling => exact telling.exists_accounts
  | unread telling _ _ | recorded telling _ _ =>
    obtain ⟨more, added, done⟩ := telling.exists_accounts
    exact ⟨more ++ [_], by rw [added, List.append_assoc],
      List.forall_mem_append.2 ⟨done, List.forall_mem_singleton.2 .read⟩⟩

/-! ## A walk -/

/-- **A walk of the loader**, with its calls and a chronicle. -/
def followed (plan : LoadPlan σ) (budget : Nat) (roots : List String) (s : σ) :
    Walked String (Logged String (Loader × Chronicle σ) LoadError) LoadError :=
  Walk.traverseAll plan.chronicling.visitor.logged budget roots [] ⟨({}, ⟨s, []⟩), []⟩

/-- **An import path that was named to a walk**: a starting point, or what was found to be imported.
-/
def Named (plan : LoadPlan σ) (roots : List String) (accounts : List (Account σ)) (path : String) :
    Prop :=
  path ∈ roots ∨ ∃ found ∈ plan.importsRead accounts, path ∈ found.2

/-- **What a walk keeps**: its accounts are of what was done for the packages it was sent to, and it
was told of no edge but to what was found to be imported. -/
structure Traced (plan : LoadPlan σ) (l : Logged String (Loader × Chronicle σ) LoadError) :
    Prop where
  /-- The graph is made of what was read. -/
  recorded : ∃ records, plan.Recorded .empty records l
  /-- All that was done was done for a package that was handled. -/
  done : ∀ a ∈ l.state.2.accounts, ∃ package ∈ handledNodes l.calls, plan.DoneFor package a
  /-- Every edge leads to what was found to be imported. -/
  told : ∀ a b, Walk.Reports l.calls a b →
    ∃ found ∈ plan.importsRead l.state.2.accounts, b ∈ found.2

variable {l : Logged String (Loader × Chronicle σ) LoadError}

theorem Traced.handle (h : plan.Traced l) (package : String) :
    plan.Traced (plan.chronicling.visitor.logged.handle package l).2 := by
  obtain ⟨more, added, done⟩ := plan.exists_accounts_load package l.state.1 l.state.2
  have accounts : (plan.chronicling.visitor.logged.handle package l).2.state.2.accounts =
      l.state.2.accounts ++ more := added
  have handled : handledNodes (plan.chronicling.visitor.logged.handle package l).2.calls =
      handledNodes l.calls ++ [package] := handledNodes_append _ _
  refine ⟨exists_recorded_handle h.recorded package, fun a ha => ?_, fun a b edge => ?_⟩
  · rw [handled]
    rw [accounts] at ha
    rcases List.mem_append.1 ha with ha | ha
    · obtain ⟨k, hk, done⟩ := h.done a ha
      exact ⟨k, List.mem_append_left _ hk, done⟩
    · exact ⟨package, List.mem_append_right _ (List.mem_singleton_self _), done a ha⟩
  · obtain ⟨found, hf, hb⟩ := h.told a b (Walk.reports_concat_handle.1 edge)
    rw [accounts, importsRead_append]
    exact ⟨found, List.mem_append_left _ hf, hb⟩

/-- Naming its imports keeps it: they are on record, and on record is what was read. -/
theorem Traced.read (h : plan.Traced l) (package : String) :
    plan.Traced (plan.chronicling.visitor.logged.read package l).2 := by
  refine ⟨exists_recorded_read h.recorded package, ?_, fun a b edge => ?_⟩
  · have handled : handledNodes (plan.chronicling.visitor.logged.read package l).2.calls =
        handledNodes l.calls :=
      (handledNodes_append _ _).trans (List.append_nil _)
    rw [handled]
    exact h.done
  · have calls : (plan.chronicling.visitor.logged.read package l).2.calls =
        l.calls ++ [.read package (importsOf l.state.1 package)] := rfl
    rw [calls] at edge
    rcases named : importsOf l.state.1 package with cause | children <;> rw [named] at edge
    · exact h.told a b (Walk.reports_concat_error.1 edge)
    · rcases Walk.reports_concat_read.1 edge with edge | ⟨-, child⟩
      · exact h.told a b edge
      · obtain ⟨records, recorded⟩ := h.recorded
        have child : b ∈ children := by simpa [NodeId.key] using child
        have imported := (mem_iff_of_importsOf named b).1 child
        rw [recorded.graph, Graph.imports_foldl_record] at imported
        obtain ⟨r, hr, -, hb⟩ := imported.resolve_left (Graph.not_imports_empty _ _)
        refine ⟨(plan.workspace.packageSource r.1, r.2), ?_, hb⟩
        have read : _ = plan.importsRead l.state.2.accounts := recorded.imports
        exact read ▸ List.mem_map_of_mem hr

variable (plan) (budget : Nat) (roots : List String) (s : σ)

/-- **Every walk keeps it**, however it ends. -/
theorem traced_followed : plan.Traced (plan.followed budget roots s).state :=
  Walk.traverseAll_keeps (P := plan.Traced) budget (fun package _ h => h.handle package)
    (fun package _ h => h.read package) roots
    { recorded := ⟨[], rfl, rfl, rfl, fun _ => List.not_mem_nil⟩
      done := by simp
      told := fun a b edge => absurd edge (Walk.reports_nil a b) }

/-- **A package that is loaded was named.** -/
theorem named_of_mem_handledNodes
    (handled : package ∈ handledNodes (plan.followed budget roots s).state.calls) :
    plan.Named roots (plan.followed budget roots s).state.state.2.accounts package := by
  obtain ⟨begun, queue, first, explored⟩ :=
    Walk.traverseAll_stop plan.chronicling.visitor budget (l := ⟨({}, ⟨s, []⟩), []⟩) (.start []) roots
  have visited := explored.mem_visited.2 (.inr (handledKeys_eq _ ▸ handled))
  obtain ⟨root, hr, -, path⟩ := (explored.reached package (.inl visited)).resolve_left (by simp)
  rcases path.cases_tail with rfl | ⟨a, -, edge, -⟩
  · refine .inl (first.subset ?_)
    simpa [NodeId.key] using hr
  · exact .inr ((plan.traced_followed budget roots s).told a package edge)

/-- **A work copy that is made for a package has a root that contains the package**, and is made in
the place of that root. -/
theorem DoneFor.exists_copy {plan : LoadPlan σ} {part : σ → World} {hosted : LoadPlan World}
    (projects : plan.Projects part hosted) (files : hosted.files = World.files)
    (resolver : hosted.resolver = Git.WorkCopy.resolver hosted.workspace) {a : Account σ}
    (done : plan.DoneFor package a) {asked : String} {pin : Option Pin} {root : String}
    {revision : Option String} (deed : a.deed = .create asked pin root revision) :
    asked = package ∧ ∃ copy : Git.WorkCopy, copy.root = root ∧
      copy.path = plan.workspace.packageSource root ∧ ImportPath.contains root package = true ∧
      (copy.create revision (part a.before)).2 = part a.after := by
  cases done with
  | read | setRevision => cases deed
  | @create checkout s before after result missing asked done =>
    cases deed
    -- what is missing and what is found is so in the part of the state that has the work copies
    have workspace := projects.workspace
    obtain ⟨inner, found, alike⟩ := projects.finds _ _ _ _ _ asked
    rw [resolver] at found
    obtain ⟨told, -⟩ := Prod.mk.inj found
    rcases held : Git.WorkCopy.holding hosted.workspace package (Pin.firstFor plan.pins package)
      (part s) with cause | copy <;> rw [held] at told
    · cases told
    · obtain rfl : copy.handle = inner := Except.ok.inj told
      have absent : (part s).disk.exists? (part s).cwd
          (hosted.workspace.packageSource package) = false := by
        refine Git.WorkCopy.exists?_of_missing ?_
        rw [← files, projects.kind, workspace]
        exact missing
      have root : copy.root = checkout.root := alike.root
      refine ⟨rfl, copy, root, ?_, ?_, ?_⟩
      · rw [← root, ← workspace]
        exact Git.WorkCopy.holding_of_missing absent held
      · rw [← root]
        exact Git.WorkCopy.contains_of_missing absent held
      · have created := alike.create ((Pin.firstFor plan.pins package).bind (·.revision)) before
        rw [done] at created
        exact congrArg Prod.snd created

/-- **Where fetching goes is told by the import paths that are named.** A walk of the loader, in any
surroundings and however it ends, loads only packages that are starting points or were found to be
imported. Loading a package asks the disk for nothing but the directory of the package, and reads no
other directory; and a directory is inside the source directory, once `..` is worked off, if the
path it is named by does not lead above where it begins.

Where missing packages are fetched as work copies, be it in a part of the surroundings, one is made
only for a package that is loaded, in the directory of a root that contains the package. So this is
inside the source directory as well, if the import path of the package does not lead above where it
begins. -/
theorem fetching_confined (plan : LoadPlan σ) (budget : Nat) (roots : List String) (s : σ) :
    let walk := plan.followed budget roots s
    let loaded := handledNodes walk.state.calls
    let accounts := walk.state.state.2.accounts
    let dir := plan.workspace.packageSource
    Walk.traverseAll plan.visitor budget roots [] ({}, s) =
        ⟨walk.outcome, walk.visited, walk.state.state.1, walk.state.state.2.state⟩ ∧
      (∀ package ∈ loaded, plan.Named roots accounts package ∧
        (∀ files : Files σ, (∀ t, files.kind (dir package) t = plan.files.kind (dir package) t) →
          ∀ loader t, ({ plan with files } : LoadPlan σ).load package loader t =
            plan.load package loader t) ∧
        (ImportPath.Grounded package → plan.workspace.Inside (dir package))) ∧
      (∀ a ∈ accounts, ∀ place, a.deed = .read place → ∃ package ∈ loaded, place = dir package) ∧
      ∀ (part : σ → World) (hosted : LoadPlan World), plan.Projects part hosted →
        hosted.files = World.files →
        hosted.resolver = Git.WorkCopy.resolver hosted.workspace →
        ∀ a ∈ accounts, ∀ package pin root revision, a.deed = .create package pin root revision →
          package ∈ loaded ∧
          ∃ copy : Git.WorkCopy, copy.root = root ∧ copy.path = dir root ∧
            ImportPath.contains root package = true ∧
            (copy.create revision (part a.before)).2 = part a.after ∧
            (ImportPath.Grounded package → plan.workspace.Inside copy.path) := by
  intro walk loaded accounts dir
  have traced := plan.traced_followed budget roots s
  refine ⟨?_, fun package handled => ⟨plan.named_of_mem_handledNodes budget roots s handled,
    fun files agree => plan.load_congr_files agree, plan.workspace.inside_of_grounded⟩, ?_, ?_⟩
  · have parts := (Walk.projects_logged plan.chronicling.visitor).comp
      (plan.projects_chronicling.visitor fun _ _ => rfl)
    exact Walk.traverseAll_project parts budget roots [] ⟨({}, ⟨s, []⟩), []⟩
  · intro a ha place deed
    obtain ⟨package, handled, done⟩ := traced.done a ha
    cases done with
    | read =>
      cases deed
      exact ⟨package, handled, rfl⟩
    | create | setRevision => cases deed
  · intro part hosted projects files resolver a ha package pin root revision deed
    obtain ⟨asked, handled, done⟩ := traced.done a ha
    obtain ⟨rfl, copy, of_root, place, contains, created⟩ :=
      done.exists_copy projects files resolver deed
    refine ⟨handled, copy, of_root, place, contains, created, fun grounded => ?_⟩
    rw [place]
    exact plan.workspace.inside_of_grounded (grounded.of_contains contains)

/-- A workspace with the directory of a host, and beside it a package and a repository without a
commit. -/
def hostWorld : World where
  disk := ⟨[(["w"], .directory), (["w", "src"], .directory), (["w", "src", "e.org"], .directory),
    (["out"], .directory), (["out", "p"], .directory),
    (["lib"], .directory), (["lib", "HEAD"], .file "ref: refs/heads/main\n".toUTF8 false),
    (["lib", "objects"], .directory), (["lib", "refs"], .directory)]⟩

/-- How packages of that workspace are loaded, when none imports anything. -/
def hostPlan (pins : List Pin) : LoadPlan World where
  workspace := ⟨⟨"/w"⟩⟩
  pins := pins
  update := false
  files := World.files
  resolver := Git.WorkCopy.resolver ⟨⟨"/w"⟩⟩
  reader := Project.emptyReader

/-- An import path that goes up, but not above where it begins: its package is looked for inside the
source directory, and so is its repository to be cloned there. -/
theorem fetching_confined_hosted :
    let plan := hostPlan []
    let path := "github.com/foo/bar/../baz"
    let accounts := (plan.followed 1 [path] hostWorld).state.state.2.accounts
    plan.Projects id plan ∧ plan.files = World.files ∧
      plan.resolver = Git.WorkCopy.resolver plan.workspace ∧ ImportPath.Grounded path ∧
      plan.workspace.Inside (plan.workspace.packageSource path) ∧
      ∃ a ∈ accounts, a.deed = .create path none "github.com/foo/bar" none ∧
        ∃ copy : Git.WorkCopy, copy.root = "github.com/foo/bar" ∧
          (copy.create none a.before).2 = a.after ∧ plan.workspace.Inside copy.path := by
  intro plan path accounts
  have grounded : ImportPath.Grounded path := by decide +kernel
  have deeds : accounts.map Account.deed = [.create path none "github.com/foo/bar" none] := by
    decide +kernel
  obtain ⟨a, ha, deed⟩ : ∃ a ∈ accounts, a.deed = .create path none "github.com/foo/bar" none := by
    rw [← List.mem_map, deeds]
    exact List.mem_cons_self
  obtain ⟨-, looks, -, clones⟩ := fetching_confined plan 1 [path] hostWorld
  obtain ⟨loaded, copy, root, -, -, created, inside⟩ :=
    clones id plan (.refl plan) rfl rfl a ha _ _ _ _ deed
  exact ⟨.refl plan, rfl, rfl, grounded, (looks _ loaded).2.2 grounded, a, ha, deed, copy, root,
    created, inside grounded⟩

/-- Two import paths of the host lead out of the workspace. The package of one is read, the
repository of the other is cloned. -/
theorem hostPlan_leaves {w : World} (world : w = hostWorld) :
    let pin : Pin := { root := "e.org/../../../out/q", source := some "file:///lib" }
    let walk := (hostPlan [pin]).followed 1 ["e.org/../../../out/p", "e.org/../../../out/q"] w
    walk.outcome.toBool = true ∧
      walk.state.state.2.accounts.map Account.deed =
        [.read ⟨"/w/src/e.org/../../../out/p"⟩,
          .create "e.org/../../../out/q" (some pin) "e.org/../../../out/q" none,
          .read ⟨"/w/src/e.org/../../../out/q"⟩] ∧
      w.disk.exists? [] ⟨"/out/q"⟩ = false ∧
      walk.state.state.2.state.disk.exists? [] ⟨"/out/q"⟩ = true := by
  -- as long as the world is a variable, nothing is computed while unfolding
  delta hostPlan Git.WorkCopy.resolver Git.WorkCopy.handle Git.WorkCopy.create Git.Clone.make?
    Git.Repository.find? Git.Repository.candidate Git.Repository.read?
  simp -zeta only [Git.Repository.isReadable_eq]
  subst world
  decide +kernel

/-- **Fetching may leave the workspace.** Both import paths that are given are remote, and so is the
root of the pin, and no package imports anything. But one package that is read is outside the source
directory, and so is the directory that a repository is cloned into, where there was nothing. -/
theorem fetching_leaves_workspace :
    let pin : Pin := { root := "e.org/../../../out/q", source := some "file:///lib" }
    let plan := hostPlan [pin]
    let roots := ["e.org/../../../out/p", "e.org/../../../out/q"]
    (∀ path ∈ pin.root :: roots, ImportPath.isRemote path = true ∧
        ¬ plan.workspace.Inside (plan.workspace.packageSource path)) ∧
      roots.map (fun root => (plan.workspace.packageSource root).resolved) =
        [[.root, .normal "out", .normal "p"], [.root, .normal "out", .normal "q"]] ∧
      let walk := plan.followed 1 roots hostWorld
      walk.outcome.toBool = true ∧
        walk.state.state.2.accounts.map Account.deed =
          [.read ⟨"/w/src/e.org/../../../out/p"⟩,
            .create "e.org/../../../out/q" (some pin) "e.org/../../../out/q" none,
            .read ⟨"/w/src/e.org/../../../out/q"⟩] ∧
        hostWorld.disk.exists? [] ⟨"/out/q"⟩ = false ∧
        walk.state.state.2.state.disk.exists? [] ⟨"/out/q"⟩ = true := by
  refine ⟨by decide +kernel, by decide +kernel, ?_⟩
  exact hostPlan_leaves rfl

end LoadPlan

end Depot
