import Depot.Proofs.Chronicle
import Depot.Proofs.Get
import Depot.Proofs.Git.Cloning
import Depot.Proofs.Save

/-!
# What getting clones

Whether a repository is cloned is decided by the directory of a package: if it is missing, the
repository that a pin or a well-known host says is to be cloned, to its own place in the workspace.
There may be a checkout there already that lacks the package, and then the clone is attempted all
the same (`cloned_over_checkout`). But it fails, and leaves the checkout alone. So as long as
checkouts stay where they are, no repository is cloned twice (`cloned_where_missing`). This is so
whatever clones, as long as it is a `Git.Cloner` (`get_cautious`).
-/

namespace Depot

open Git (WorkCopy)

namespace Account

/-- The root of the repository that an account tells was fetched, if its deed was that and went
well. -/
def created? {σ : Type} (a : Account σ) : Option String :=
  match a.succeeded, a.deed with
  | true, .create _ _ root _ => some root
  | _, _ => none

theorem created?_eq_some {σ : Type} {a : Account σ} {root : String} (h : a.created? = some root) :
    a.succeeded = true ∧ ∃ package pin revision, a.deed = .create package pin root revision := by
  unfold created? at h
  split at h
  · next package pin _ revision went deed =>
    cases h
    exact ⟨went, package, pin, revision, deed⟩
  · cases h

variable {workspace : Workspace} {a : Account World}

/-- **A careful clone**: it is of the repository of a package that is missing, and if there is a
checkout in its place, it fails and leaves whatever is on disk. -/
def Careful (workspace : Workspace) (a : Account World) : Prop :=
  ∀ package pin root revision, a.deed = .create package pin root revision →
    World.files.kind (workspace.packageSource package) a.before = .error .notFound ∧
      (WorkCopy.isCheckout a.before (workspace.packageSource root) = true →
        a.succeeded = false ∧ ∃ disk, a.after = { a.before with disk } ∧
          disk.Extends a.before.disk)

/-- **Checkouts last**: none is taken away, and a clone that goes well leaves one. -/
structure Lasting (workspace : Workspace) (a : Account World) : Prop where
  /-- What was the checkout of a root before is one after. -/
  stays : ∀ root, WorkCopy.isCheckout a.before (workspace.packageSource root) = true →
    WorkCopy.isCheckout a.after (workspace.packageSource root) = true
  /-- A clone leaves a checkout in its place. -/
  cloned : ∀ root, a.created? = some root →
    WorkCopy.isCheckout a.after (workspace.packageSource root) = true

/-- Where there is a checkout, a careful clone does not go well. -/
theorem Careful.not_created (h : a.Careful workspace) {root : String}
    (there : WorkCopy.isCheckout a.before (workspace.packageSource root) = true) :
    a.created? ≠ some root := by
  intro created
  obtain ⟨went, package, pin, revision, deed⟩ := created?_eq_some created
  have failed := ((h package pin root revision deed).2 there).1
  cases went.symm.trans failed

end Account

/-- The roots of the repositories that were fetched, in order. -/
def createdRoots {σ : Type} (accounts : List (Account σ)) : List String :=
  accounts.filterMap Account.created?

namespace LoadPlan

variable {plan : LoadPlan World} {workspace : Workspace} {package : String} {pinned : StringSet}
  {c c' : Chronicle World} {k : Git.Cloner}

/-- **What is told of clones**: all are careful, and as long as checkouts last, no repository is
cloned twice and all that were cloned are still there. -/
structure Cautious (workspace : Workspace) (c : Chronicle World) : Prop where
  /-- All clones are careful. -/
  careful : ∀ a ∈ c.accounts, a.Careful workspace
  /-- No repository is cloned twice, as those cloned are still there. -/
  once : (∀ a ∈ c.accounts, a.Lasting workspace) → (createdRoots c.accounts).Nodup ∧
    ∀ root ∈ createdRoots c.accounts,
      WorkCopy.isCheckout c.state (workspace.packageSource root) = true

theorem Cautious.nil (w : World) : Cautious workspace ⟨w, []⟩ where
  careful := by simp
  once _ := ⟨.nil, by simp [createdRoots]⟩

/-- **One more careful account keeps it.** -/
theorem Cautious.add (h : Cautious workspace c) {deed : Deed} {succeeded : Bool} {after : World}
    (careful : Account.Careful workspace ⟨deed, succeeded, c.state, after⟩) :
    Cautious workspace ⟨after, c.accounts ++ [⟨deed, succeeded, c.state, after⟩]⟩ where
  careful := List.forall_mem_append.2 ⟨h.careful, List.forall_mem_singleton.2 careful⟩
  once lasting := by
    obtain ⟨before, last⟩ := List.forall_mem_append.1 lasting
    have lasts := List.forall_mem_singleton.1 last
    obtain ⟨nodup, held⟩ := h.once before
    have still (root : String) (hr : root ∈ createdRoots c.accounts) :
        WorkCopy.isCheckout after (workspace.packageSource root) = true :=
      lasts.stays _ (held root hr)
    unfold createdRoots at nodup held still ⊢
    rw [List.filterMap_append]
    rcases created : Account.created? ⟨deed, succeeded, c.state, after⟩ with _ | root
    · rw [List.filterMap_cons_none created, List.filterMap_nil, List.append_nil]
      exact ⟨nodup, still⟩
    · rw [List.filterMap_cons_some created, List.filterMap_nil]
      refine ⟨List.nodup_append.2 ⟨nodup, List.nodup_singleton _, ?_⟩, ?_⟩
      · rintro earlier he _ hl rfl
        obtain rfl := List.mem_singleton.1 hl
        exact careful.not_created (held earlier he) created
      · have left := lasts.cloned root created
        exact List.forall_mem_append.2 ⟨still, List.forall_mem_singleton.2 left⟩

/-- **Having a package on disk keeps it.** -/
theorem Cautious.telling (files : plan.files = World.files)
    (resolver : plan.resolver = WorkCopy.resolverBy k plan.workspace)
    (h : Cautious plan.workspace c) {outcome : Except LoadError StringSet}
    (telling : plan.Telling package pinned c (outcome, c')) : Cautious plan.workspace c' := by
  have asks : plan.repositoryOf package c.state =
      ((WorkCopy.holding plan.workspace package (Pin.firstFor plan.pins package) c.state).map
        (WorkCopy.handleBy k), c.state) := by
    rw [repositoryOf, resolver]
    rfl
  cases telling with
  | idle same _ =>
    rcases same with rfl | ⟨cause, refused⟩
    · exact h
    · obtain ⟨-, rfl⟩ := Prod.mk.inj (asks.symm.trans refused)
      exact h
  | @fetch checkout s s' result missing asked done =>
    obtain ⟨told, rfl⟩ := Prod.mk.inj (asks.symm.trans asked)
    rcases found : WorkCopy.holding plan.workspace package (Pin.firstFor plan.pins package)
      c.state with cause | copy
    · rw [found] at told
      cases told
    · rw [found] at told
      obtain rfl : copy.handleBy k = checkout := Except.ok.inj told
      unfold kindOf at missing
      rw [files] at missing
      have place : copy.path = plan.workspace.packageSource copy.root :=
        WorkCopy.holding_of_missing (WorkCopy.exists?_of_missing missing) found
      have fails (there : WorkCopy.isCheckout c.state (plan.workspace.packageSource copy.root)) :
          result.toBool = false ∧ ∃ disk, s' = { c.state with disk } ∧
            disk.Extends c.state.disk := by
        obtain ⟨cause, disk, failed, more⟩ := WorkCopy.createBy_of_isCheckout (k := k) copy
          ((Pin.firstFor plan.pins package).bind (·.revision)) (place ▸ there)
        obtain ⟨rfl, rfl⟩ := Prod.mk.inj (done.symm.trans failed)
        exact ⟨rfl, disk, rfl, more⟩
      refine h.add ?_
      rintro _ _ _ _ ⟨⟩
      exact ⟨missing, fails⟩
  | @move pin revision checkout s s' result there update governed declared unsettled asked done =>
    obtain ⟨-, rfl⟩ := Prod.mk.inj (asks.symm.trans asked)
    exact h.add nofun

/-- **Loading keeps it.** -/
theorem Cautious.load (files : plan.files = World.files)
    (resolver : plan.resolver = WorkCopy.resolverBy k plan.workspace)
    (h : Cautious plan.workspace c) (loader : Loader) :
    Cautious plan.workspace (plan.chronicling.load package loader c).2.2 := by
  have recounting := plan.recounting_load package loader c
  generalize plan.chronicling.load package loader c = told at recounting ⊢
  cases recounting with
  | refused telling => exact h.telling files resolver telling
  | unread telling _ _ | recorded telling _ _ =>
    exact (h.telling files resolver telling).add nofun

end LoadPlan

namespace Project

/-- **Getting is cautious**, whatever clones. -/
theorem get_cautious (p : Project) (means : Means World) (k : Git.Cloner)
    (files : means.files = World.files)
    (resolver : means.resolver = WorkCopy.resolverBy k p.workspace) (paths : List String)
    (w : World) :
    LoadPlan.Cautious p.workspace (p.get means.chronicling paths ⟨w, []⟩).2 := by
  have load (package : String) (loader : Loader) (c : Chronicle World)
      (h : LoadPlan.Cautious p.workspace c) :
      LoadPlan.Cautious p.workspace
        ((p.loadPlan means.chronicling).load package loader c).2.2 := by
    have resolver : (p.loadPlan means).resolver = WorkCopy.resolverBy k p.workspace := resolver
    exact LoadPlan.Cautious.load files resolver h loader
  exact p.get_keeps load paths (.nil w)

/-- **What getting clones.** With a chronicle, getting has the same result. Every clone it tells of
is attempted for a package that is missing, and where there is a checkout in the place of the clone,
it fails and leaves whatever is on disk: a clone that goes well is where there was none.

So no repository is cloned twice, as long as no deed takes a checkout away and every clone that goes
well leaves one. -/
theorem cloned_where_missing (p : Project) (reader : PackageReader World) (budget : Nat)
    (paths : List String) (w : World) :
    let means := p.workCopies reader budget
    let told := p.get means.chronicling paths ⟨w, []⟩
    p.get means paths w = (told.1, told.2.state) ∧
      (∀ a ∈ told.2.accounts, ∀ package pin root revision,
        a.deed = .create package pin root revision →
          World.files.kind (p.workspace.packageSource package) a.before = .error .notFound ∧
            (WorkCopy.isCheckout a.before (p.workspace.packageSource root) = true →
              a.succeeded = false ∧ ∃ disk, a.after = { a.before with disk } ∧
                disk.Extends a.before.disk)) ∧
      ((∀ a ∈ told.2.accounts, a.Lasting p.workspace) → (createdRoots told.2.accounts).Nodup) := by
  intro means told
  have resolver : means.resolver = WorkCopy.resolverBy Git.Clone.cloner p.workspace :=
    congrFun WorkCopy.resolver_eq p.workspace
  have cautious : LoadPlan.Cautious p.workspace told.2 :=
    p.get_cautious means Git.Clone.cloner rfl resolver paths w
  exact ⟨p.get_chronicling means paths ⟨w, []⟩, cautious.careful, fun lasting =>
    (cautious.once lasting).1⟩

/-- A project that depends on a repository next to it. -/
def neighbor : Project where
  cwd := ⟨"/w/src/p"⟩
  root := ⟨"/w/src/p"⟩
  configuration := { pins := [{ root := "e.org/lib", source := some "/lib" }] }
  usualWorkspace := ⟨"/w"⟩

/-- A reader that finds nothing. -/
def emptyReader : PackageReader World where
  read _ w := ({}, w)

/-- The account of a clone tells of no checkout before it, that of reading tells of no change, and
both tell of the checkout of the repository after it. -/
theorem neighbor_clones {p : Project} {w : World} (project : p = neighbor)
    (world : w = WorkCopy.remoteWorld) :
    let told := p.get (p.workCopies emptyReader 1).chronicling ["e.org/lib"] ⟨w, []⟩
    (createdRoots told.2.accounts = ["e.org/lib"]) ∧
      ∀ a ∈ told.2.accounts,
        ((∀ e ∈ a.before.disk.entries, e.1.getLast? ≠ some ".git") ∨
          a.after.disk = a.before.disk ∧ a.after.cwd = a.before.cwd) ∧
        (∀ root ∈ a.created?, root = "e.org/lib") ∧
        WorkCopy.isCheckout a.after (p.workspace.packageSource "e.org/lib") = true := by
  -- as long as the project and the world are variables, nothing is computed while unfolding
  delta workCopies WorkCopy.resolver WorkCopy.handle WorkCopy.create Git.Clone.make?
    Git.Repository.find? Git.Repository.candidate Git.Repository.read?
  simp -zeta only [Git.Repository.isReadable_eq]
  subst project world
  decide +kernel

/-- **Checkouts last** where the neighbor is cloned, so it is cloned once. -/
theorem cloned_where_missing_neighbor :
    let told := neighbor.get (neighbor.workCopies emptyReader 1).chronicling ["e.org/lib"]
      ⟨WorkCopy.remoteWorld, []⟩
    (∀ a ∈ told.2.accounts, a.Lasting neighbor.workspace) ∧
      createdRoots told.2.accounts = ["e.org/lib"] ∧ (createdRoots told.2.accounts).Nodup := by
  have clones := neighbor_clones (p := neighbor) (w := WorkCopy.remoteWorld) rfl rfl
  have once := cloned_where_missing neighbor emptyReader 1 ["e.org/lib"] WorkCopy.remoteWorld
  dsimp only at clones once ⊢
  generalize neighbor.get (neighbor.workCopies emptyReader 1).chronicling ["e.org/lib"]
    ⟨WorkCopy.remoteWorld, []⟩ = told at clones once ⊢
  have lasting (a : Account World) (ha : a ∈ told.2.accounts) : a.Lasting neighbor.workspace := by
    obtain ⟨before, only, after⟩ := clones.2 a ha
    refine ⟨fun root there => ?_, fun root cloned => only root cloned ▸ after⟩
    rcases before with none | ⟨disk, cwd⟩
    · exact absurd there (WorkCopy.not_isCheckout none)
    · unfold WorkCopy.isCheckout at there ⊢
      rwa [disk, cwd]
  exact ⟨lasting, clones.1, once.2.2 lasting⟩

/-- The repository is checked out, but lacks a package. -/
def lackingWorld : World where
  disk := ⟨[(["w"], .directory), (["w", "src"], .directory), (["w", "src", "p"], .directory),
    (["w", "src", "e.org"], .directory), (["w", "src", "e.org", "lib"], .directory),
    (["w", "src", "e.org", "lib", ".git"], .directory)]⟩

/-- **A clone may be attempted where there is a checkout**: one that lacks the package. -/
theorem cloned_over_checkout :
    let told := neighbor.get (neighbor.workCopies emptyReader 1).chronicling ["e.org/lib/gone"]
      ⟨lackingWorld, []⟩
    told.1.toBool = false ∧
      (told.2.accounts.map fun a => (a.deed, a.succeeded, WorkCopy.isCheckout a.before
        (neighbor.workspace.packageSource "e.org/lib"))) =
        [(.create "e.org/lib/gone" (some { root := "e.org/lib", source := some "/lib" }) "e.org/lib"
          none, false, true)] := by
  decide +kernel

end Project

end Depot
