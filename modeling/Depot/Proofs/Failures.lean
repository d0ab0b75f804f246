import Depot.Proofs.Loader
import Depot.Proofs.Survey.Records
import Depot.Proofs.Walk.Discipline

/-!
# How a walk can fail

A walk fails by a failing call of its visitor, and a failing reading comes right after the handling
that entered the node (`FailedBy`). What a visitor cannot answer to one call, or to two calls in a
row, is therefore no outcome of its walks, whatever was asked of the walker before and however it
ended (`failedBy_of_mem_servings`).

Both visitors have answers that exist only because a call may be made in any state. The loader
refuses to name the imports of a package that is not on record, but a package is on record once it
has been handled. A survey refuses to go on from a directory without an import path, but it never
enters one.
-/

namespace Depot

namespace Walk

variable {ν σ ε : Type} [NodeId ν]

/-- **What each request of a walker's life leaves behind**, one after another. -/
def servings (v : Visitor ν σ ε) : List (Request ν) → List (NodeId.Key ν) → σ →
    List (Walked ν σ ε)
  | [], _, _ => []
  | request :: requests, visited, s =>
    let walked := request.run v visited s
    walked :: servings v requests walked.visited walked.state

/-- **The calls by which a walk fails**, given the state they leave behind. -/
inductive FailedBy (v : Visitor ν σ ε) (after : σ) : WalkError ν ε → Prop
  /-- A node could not be handled. -/
  | handle {node : ν} {cause : ε} {before : σ}
      (failed : v.handle node before = (.error cause, after)) :
      FailedBy v after (.handle node cause)
  /-- A node was handled and entered, and then its children could not be named. -/
  | read {node : ν} {cause : ε} {before entered : σ}
      (handled : v.handle node before = (.ok .descend, entered))
      (failed : v.read node entered = (.error cause, after)) :
      FailedBy v after (.read node cause)
  /-- No call failed, but the budget was used up. -/
  | exhausted {node : ν} : FailedBy v after (.exhausted node)

variable {v : Visitor ν σ ε} {e : WalkError ν ε} {visited : List (NodeId.Key ν)} {s : σ}

/-- **A walk that fails fails by its last calls.** -/
theorem run_failedBy {budget : Nat} {queue : List ν}
    (failed : (run v budget queue visited s).outcome = .error e) :
    FailedBy v (run v budget queue visited s).state e := by
  have logged : run v budget queue visited s =
      project Logged.state (run v.logged budget queue visited ⟨s, []⟩) :=
    run_project (projects_logged v) budget queue visited ⟨s, []⟩
  obtain ⟨c, -, stop, -⟩ := run_steps v budget queue visited s []
  rw [logged] at failed ⊢
  generalize run v.logged budget queue visited ⟨s, []⟩ = walked at stop failed ⊢
  cases stop with
  | finished => cases failed
  | handle new refused =>
    obtain rfl := Except.error.inj failed
    exact .handle refused
  | read new handled refused =>
    obtain rfl := Except.error.inj failed
    exact .read handled refused
  | exhausted new =>
    obtain rfl := Except.error.inj failed
    exact .exhausted

/-- So does the one of several traversals that is the last one. -/
theorem traverseAll_failedBy {budget : Nat} {roots : List ν}
    (failed : (traverseAll v budget roots visited s).outcome = .error e) :
    FailedBy v (traverseAll v budget roots visited s).state e := by
  obtain ⟨done, root, left, -, -, last⟩ := traverseAll_error v budget roots visited s e failed
  rw [last] at failed ⊢
  exact run_failedBy failed

/-- **Every request that fails does so by its last calls**, whatever became of those before. -/
theorem failedBy_of_mem_servings {requests : List (Request ν)} {walked : Walked ν σ ε}
    (served : walked ∈ servings v requests visited s) (failed : walked.outcome = .error e) :
    FailedBy v walked.state e := by
  induction requests generalizing visited s with
  | nil => cases served
  | cons request requests ih =>
    rcases List.mem_cons.1 served with rfl | served
    · cases request with
      | traverse budget start => exact run_failedBy failed
      | traverseAll budget roots => exact traverseAll_failedBy failed
    · exact ih served

/-- **Every reading was answered** with the children of the node. -/
def Answered (calls : List (VisitorCall ν ε)) : Prop :=
  ∀ node answer, VisitorCall.read node answer ∈ calls → ∃ children, answer = .ok children

/-- **Where a node that was entered can always be read**, every reading of a walker's life is
answered. -/
theorem serve_answered
    (sound : ∀ node cause after, ¬ FailedBy v after (.read node cause))
    (requests : List (Request ν)) {l : Logged ν σ ε} (h : Answered l.calls) :
    Answered (serve v.logged requests visited l).2.calls := by
  refine serve_of_run (P := fun _ (l : Logged ν σ ε) => Answered l.calls)
    (fun budget queue visited l h => ?_) requests h
  obtain ⟨c, hc, stop, -⟩ := run_induction (v := v) (motive := fun c => Answered c.calls)
    (fun c c' step hc => by
      cases step with
      | pass old => exact hc
      | skip new handled =>
        intro node answer made
        exact hc node answer (by simpa using made)
      | descend new handled read =>
        intro node answer made
        simp only [List.mem_append, List.mem_singleton, reduceCtorEq, or_false] at made
        rcases made with made | made
        · exact hc node answer made
        · exact ⟨_, (VisitorCall.read.inj made).2⟩)
    budget queue visited l.state l.calls h
  generalize run v.logged budget queue visited ⟨l.state, l.calls⟩ = walked at stop ⊢
  cases stop with
  | finished => exact hc
  | exhausted new => exact hc
  | handle new failed =>
    intro node answer made
    exact hc node answer (by simpa using made)
  | read new handled failed => exact absurd (.read handled failed) (sound _ _ _)

end Walk

namespace LoadPlan

variable {σ : Type} {plan : LoadPlan σ} {package : String} {before after : Loader × σ}

/-- **A package that was handled is on record.** -/
theorem has_of_handle {visit : Visit}
    (handled : plan.visitor.handle package before = (.ok visit, after)) :
    after.1.graph.Has package := by
  obtain ⟨-, loaded⟩ := handle_eq_ok handled
  obtain ⟨pinned, s₁, found, -, -, -, recorded⟩ := load_eq_ok loaded
  rw [recorded, Graph.record_eq_addAll, Graph.has_addAll]
  exact .inr (Graph.exists_recordsOf.2 (.inl rfl))

/-- The imports of a package on record can be named. -/
theorem importsOf_of_has {loader : Loader} (h : loader.graph.Has package) :
    ∃ imports, importsOf loader package = .ok imports := by
  obtain ⟨dep, found⟩ := h
  exact ⟨dep.imports.toList, by rw [importsOf, found]⟩

/-- So the imports of a package are named once it was handled. -/
theorem read_of_handle {visit : Visit}
    (handled : plan.visitor.handle package before = (.ok visit, after)) :
    ∃ imports, plan.visitor.read package after = (.ok imports, after) := by
  obtain ⟨imports, named⟩ := importsOf_of_has (has_of_handle handled)
  exact ⟨imports, congrArg (·, after) named⟩

/-- **Loading never fails by a reading.** -/
theorem not_failedBy_read (package : String) (cause : LoadError) (after : Loader × σ) :
    ¬ Walk.FailedBy plan.visitor after (.read package cause) := by
  rintro (_ | ⟨handled, failed⟩)
  obtain ⟨imports, named⟩ := read_of_handle handled
  cases congrArg Prod.fst (named.symm.trans failed)

end LoadPlan

namespace Survey

variable {σ : Type} {survey : Survey σ} {path : Path} {before after : Graph × σ}
  {cause : SurveyError}

theorem reads_of_handle
    (handled : survey.visitor.handle path before = (.ok .descend, after)) :
    ∃ name, survey.Reads before.2 path name := by
  by_contra unread
  have skipped := examine_of_not_reads (fun name reads => unread ⟨name, reads⟩) before.1
  have answer : Visit.descend = .skip :=
    (Except.ok.inj (congrArg Prod.fst handled)).symm.trans (congrArg Prod.fst skipped)
  cases answer

/-- **From a directory with an import path, a survey cannot go on** only if it is inside the project
and cannot be listed. -/
theorem next_eq_error {name : String} {graph : Graph} {s : σ}
    (named : survey.workspace.packageName path = .ok name)
    (failed : survey.next path graph s = .error cause) :
    path.startsWith survey.root = true ∧
      ∃ e, cause = .unlisted path e ∧ survey.files.directories path s = .error e := by
  unfold next below Files.visibleSubdirectories at failed
  split at failed
  · next e listed =>
    obtain rfl := Except.error.inj failed
    split at listed
    · next inside =>
      refine ⟨inside, ?_⟩
      cases held : survey.files.directories path s with
      | error refused =>
        rw [held] at listed
        exact ⟨refused, (Except.error.inj listed).symm, rfl⟩
      | ok names =>
        rw [held] at listed
        cases listed
    · cases listed
  · rw [named] at failed
    dsimp only at failed
    split at failed
    · cases failed
    · split at failed <;> cases failed

/-- **A survey never fails by a handling.** -/
theorem not_failedBy_handle : ¬ Walk.FailedBy survey.visitor after (.handle path cause) := by
  rintro (failed | _)
  cases congrArg Prod.fst failed

/-- **It fails by a reading** only where a directory inside the project cannot be listed. -/
theorem unlisted_of_failedBy (h : Walk.FailedBy survey.visitor after (.read path cause)) :
    path.startsWith survey.root = true ∧
      ∃ e, cause = .unlisted path e ∧ survey.files.directories path after.2 = .error e := by
  cases h with
  | @read _ _ _ entered handled failed =>
    obtain ⟨name, reads⟩ := reads_of_handle handled
    obtain ⟨refused, rfl⟩ := Prod.mk.inj failed
    exact next_eq_error reads.named refused

end Survey

open Walk

/-- **Walks fail for reasons outside.** Let a walker have served any requests, some of which may
have failed, over a disk, a resolver and a reader that may do anything. While loading, no request
fails because the imports of a package cannot be named: they are asked for only once the package is
on record, so whenever they are asked for they are named. While surveying, no request fails because
a path cannot be handled; and where one fails because the children of a path cannot be named, the
path is the root of the survey or lies beneath it, and the disk refused to list it. -/
theorem servings_fail_outside {σ τ : Type} (plan : LoadPlan σ) (survey : Survey τ)
    (packages : List (Request String)) (paths : List (Request Path))
    (visitedPackages : List (NodeId.Key String)) (visitedPaths : List (NodeId.Key Path))
    (loader : Loader × σ) (surveyed : Graph × τ) :
    (∀ walked ∈ servings plan.visitor packages visitedPackages loader,
      ∀ package cause, walked.outcome ≠ .error (.read package cause)) ∧
    (∀ package answer,
      VisitorCall.read package answer ∈
        (serve plan.visitor.logged packages visitedPackages ⟨loader, []⟩).2.calls →
      ∃ imports, answer = .ok imports) ∧
    ∀ walked ∈ servings survey.visitor paths visitedPaths surveyed,
      (∀ path cause, walked.outcome ≠ .error (.handle path cause)) ∧
      ∀ path cause, walked.outcome = .error (.read path cause) →
        path.startsWith survey.root = true ∧
          ∃ e, cause = .unlisted path e ∧
            survey.files.directories path walked.state.2 = .error e := by
  refine ⟨fun walked served package cause failed => ?_,
    serve_answered LoadPlan.not_failedBy_read packages fun _ _ none => absurd none (by simp),
    fun walked served => ⟨fun path cause failed => ?_, fun path cause failed => ?_⟩⟩
  · exact LoadPlan.not_failedBy_read _ _ _ (failedBy_of_mem_servings served failed)
  · exact Survey.not_failedBy_handle (failedBy_of_mem_servings served failed)
  · exact Survey.unlisted_of_failedBy (failedBy_of_mem_servings served failed)

/-- A disk on which everything is of one kind, and nothing can be listed. -/
def lockedFiles (kind : Except OsError FileKind) : Files Unit where
  kind _ _ := kind
  directories _ _ := .error .permissionDenied

/-- Two lives that meet with failures at every turn. The loader cannot handle the first package, and
passes it by when asked again. The survey may not handle a single path the first time, and the
second time it cannot list the project. -/
theorem servings_fail_outside_locked :
    let workspace : Workspace := ⟨⟨"/ws"⟩⟩
    let reader : PackageReader Unit := ⟨fun _ s => ({}, s)⟩
    let plan : LoadPlan Unit :=
      { workspace, pins := [], update := false, files := lockedFiles (.error .notFound),
        resolver := ⟨fun _ _ s => (.error (.ofMessage "unknown"), s)⟩, reader }
    let survey : Survey Unit :=
      { workspace, root := ⟨"/ws/src/p"⟩, avoided := .empty,
        files := lockedFiles (.ok .directory), reader }
    let packages : List (Request String) := [.traverse 1 "a", .traverseAll 1 ["a"]]
    let paths : List (Request Path) := [.traverse 0 survey.root, .traverse 1 survey.root]
    (servings plan.visitor packages [] ({}, ())).map (·.outcome) =
      [.error (.handle "a" (.unresolved "a" (.ofMessage "unknown"))), .ok ()] ∧
    (servings survey.visitor paths [] (.empty, ())).map (·.outcome) =
      [.error (.exhausted survey.root),
        .error (.read survey.root (.unlisted survey.root .permissionDenied))] ∧
    (∀ walked ∈ servings plan.visitor packages [] ({}, ()), ∀ package cause,
      walked.outcome ≠ .error (.read package cause)) ∧
    ∃ e, survey.files.directories survey.root () = .error e := by
  intro workspace reader plan survey packages paths
  have new : NodeId.key survey.root ∉ ([] : List (NodeId.Key Path)) := List.not_mem_nil
  have reads : survey.Reads () survey.root "p" :=
    ⟨by decide +kernel, rfl, by decide +kernel⟩
  have handled : survey.visitor.handle survey.root (.empty, ()) = (.ok .descend, _) :=
    congrArg (fun examined => (Except.ok examined.1, examined.2))
      (Survey.examine_of_reads reads .empty)
  have inside : survey.root.startsWith survey.root = true := by decide +kernel
  have failed (graph : Graph) : survey.visitor.read survey.root (graph, ()) =
      (.error (.unlisted survey.root .permissionDenied), (graph, ())) := by
    show (survey.next survey.root graph (), (graph, ())) = _
    rw [Survey.next, Survey.below, if_pos inside]
    rfl
  have first : traverse survey.visitor 0 survey.root [] (.empty, ()) = _ := run_exhausted new
  have second : traverse survey.visitor 1 survey.root [] (.empty, ()) = _ :=
    run_read_error 0 new handled (failed _)
  have lived : servings survey.visitor paths [] (.empty, ()) =
      [traverse survey.visitor 0 survey.root [] (.empty, ()),
        traverse survey.visitor 1 survey.root [] (.empty, ())] := by
    simp only [paths, servings, Request.run, first]
  have ⟨loaded, _, surveyed⟩ :=
    servings_fail_outside plan survey packages paths [] [] ({}, ()) (.empty, ())
  rw [lived, first, second] at surveyed ⊢
  have ⟨_, e, _, unlisted⟩ :=
    (surveyed _ (List.mem_cons_of_mem _ List.mem_cons_self)).2 _ _ rfl
  exact ⟨by rfl, rfl, loaded, e, unlisted⟩

end Depot
