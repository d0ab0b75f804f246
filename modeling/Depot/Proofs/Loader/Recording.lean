import Depot.Proofs.Chronicle
import Depot.Proofs.Walk.Discipline

/-!
# What is on record after any run

A package enters the graph when it is read without error, and in no other way. Loading may fail
before the package is provided, while it is being provided, and when it is read; the graph then is
what it was. What may have changed are the books of pins: a repository that was fetched or moved
before the failure stays at its revision, and its pin stays settled (`SettledBy`).

So whatever a walker has been asked for, and however many of its traversals were cut short, the
graph is made of the packages that were loaded and nothing else: they are recorded one after another
in the order in which they were loaded, each with the imports found at the time
(`load_records_what_is_read`).
-/

namespace Depot.LoadPlan

open VisitorCall

variable {σ : Type} {plan : LoadPlan σ} {package : String} {loader : Loader}
  {pinned : StringSet} {c c' : Chronicle σ}

/-! ## One package -/

/-- **The books of pins change only with a repository**: they stay, or they gain the root of the pin
that governs the package, if by some account its repository was fetched at the revision that the pin
declares, or moved there. -/
def SettledBy (plan : LoadPlan σ) (package : String) (accounts : List (Account σ))
    (before after : StringSet) : Prop :=
  after = before ∨ ∃ pin revision, Pin.firstFor plan.pins package = some pin ∧
    pin.revision = some revision ∧ after = before.insert pin.root ∧
    ∃ account ∈ accounts, account.succeeded = true ∧
      ∃ root, account.deed = .create package (some pin) root (some revision) ∨
        account.deed = .setRevision package (some pin) root revision

theorem SettledBy.append {accounts : List (Account σ)} {before after : StringSet}
    (h : plan.SettledBy package accounts before after) (more : List (Account σ)) :
    plan.SettledBy package (accounts ++ more) before after := by
  rcases h with same | ⟨pin, revision, governed, declared, grown, account, told, done⟩
  · exact .inl same
  · exact .inr ⟨pin, revision, governed, declared, grown, account,
      List.mem_append_left _ told, done⟩

/-- **Providing a package settles at most its pin.** -/
theorem Telling.settledBy {pinned' : StringSet}
    (telling : plan.Telling package pinned c (.ok pinned', c')) :
    plan.SettledBy package c'.accounts pinned pinned' := by
  generalize told : (Except.ok pinned', c') = outcome at telling
  cases telling with
  | idle _ well =>
    obtain ⟨rfl, rfl⟩ := Prod.mk.inj told
    exact .inl (well pinned' rfl).1
  | @fetch checkout s s' result missing asked done =>
    rcases result with cause | ⟨⟩
    · cases told
    · obtain ⟨e, rfl⟩ := Prod.mk.inj told
      obtain rfl := Except.ok.inj e
      rcases governed : Pin.firstFor plan.pins package with _ | ⟨root, _ | revision, source⟩
      · exact .inl rfl
      · exact .inl rfl
      · exact .inr ⟨_, revision, governed, rfl, rfl, _,
          List.mem_append_right _ (List.mem_singleton_self _), rfl, checkout.root, .inl rfl⟩
  | @move pin revision checkout s s' result there update governed declared unsettled asked done =>
    rcases result with cause | ⟨⟩
    · cases told
    · obtain ⟨e, rfl⟩ := Prod.mk.inj told
      obtain rfl := Except.ok.inj e
      exact .inr ⟨pin, revision, governed, declared, rfl, _,
        List.mem_append_right _ (List.mem_singleton_self _), rfl, checkout.root, .inr rfl⟩

/-- **What becomes of the graph when a package is loaded**, by the outcome. If loading fails, the
graph is what it was. Otherwise the last account is of a reading without error, and the graph has
gained what was read. -/
def GraphAfter (plan : LoadPlan σ) (package : String) (before after : Graph) (c : Chronicle σ) :
    Except LoadError Unit → Prop
  | .error _ => after = before
  | .ok () => ∃ earlier s found,
      plan.reader.read (plan.workspace.packageSource package) s = (found, c.state) ∧
        found.error = none ∧
        c.accounts = earlier ++
          [⟨.read (plan.workspace.packageSource package), true, s, c.state⟩] ∧
        after = before.record package found.imports

/-- **What loading a package leaves**: the graph by its outcome, and at most its own pin settled. -/
theorem Recounting.left {outcome : Except LoadError Unit} {after : Loader}
    (recounting : plan.Recounting package loader c (outcome, after, c')) :
    plan.GraphAfter package loader.graph after.graph c' outcome ∧
      plan.SettledBy package c'.accounts loader.pinned after.pinned := by
  cases recounting with
  | refused telling => exact ⟨rfl, .inl rfl⟩
  | unread telling read faulty => exact ⟨rfl, telling.settledBy.append _⟩
  | recorded telling read sound =>
    exact ⟨⟨_, _, _, read, sound, rfl, rfl⟩, telling.settledBy.append _⟩

/-! ## A life of many requests -/

/-- **What was read without error**, by some accounts, in order: the directories, and the imports
found in them at the time. -/
def importsRead (plan : LoadPlan σ) (accounts : List (Account σ)) : List (Path × List String) :=
  accounts.filterMap fun account =>
    match account.deed, account.succeeded with
    | .read dir, true => some (dir, (plan.reader.read dir account.before).1.imports)
    | _, _ => none

@[simp] theorem importsRead_append (accounts more : List (Account σ)) :
    plan.importsRead (accounts ++ more) = plan.importsRead accounts ++ plan.importsRead more :=
  List.filterMap_append

theorem Telling.importsRead_eq {outcome : Except LoadError StringSet}
    (telling : plan.Telling package pinned c (outcome, c')) :
    plan.importsRead c'.accounts = plan.importsRead c.accounts := by
  cases telling with
  | idle _ _ => rfl
  | fetch _ _ _ | move _ _ _ _ _ _ _ => simp [importsRead]

/-- **The graph is made of records**, of packages with the imports that were read: in the order of
the calls that loaded them, and of the readings that went well. -/
structure Recorded (plan : LoadPlan σ) (before : Graph) (records : List (String × List String))
    (l : Logged String (Loader × Chronicle σ) LoadError) : Prop where
  /-- The packages are those that were handled without failure. -/
  packages : records.map Prod.fst = enteredNodes l.calls
  /-- The imports are those found when the package was read. -/
  imports : records.map (fun r => (plan.workspace.packageSource r.1, r.2))
    = plan.importsRead l.state.2.accounts
  /-- The graph is what comes of recording them in order. -/
  graph : l.state.1.graph = records.foldl (fun graph r => graph.record r.1 r.2) before
  /-- No package is skipped. -/
  entered : ∀ package, handle package (.ok .skip) ∉ l.calls

/-- **Handling a package adds its record, or none if it fails.** -/
theorem exists_recorded_handle {before : Graph}
    {l : Logged String (Loader × Chronicle σ) LoadError}
    (h : ∃ records, plan.Recorded before records l) (package : String) :
    ∃ records, plan.Recorded before records
      (plan.chronicling.visitor.logged.handle package l).2 := by
  obtain ⟨records, h⟩ := h
  have recounting := plan.recounting_load package l.state.1 l.state.2
  have handled : (plan.chronicling.visitor.logged.handle package l).2 =
      ⟨(plan.chronicling.load package l.state.1 l.state.2).2,
        l.calls ++ [.handle package
          ((plan.chronicling.load package l.state.1 l.state.2).1.map fun () => .descend)]⟩ := rfl
  rw [handled]
  generalize plan.chronicling.load package l.state.1 l.state.2 = loaded at recounting ⊢
  cases recounting with
  | @refused cause c' telling =>
    exact ⟨records,
      { packages := by simpa [Except.map] using h.packages
        imports := by rw [telling.importsRead_eq]; exact h.imports
        graph := h.graph
        entered := by simpa [Except.map] using h.entered }⟩
  | @unread pinned c' found cause s telling read faulty =>
    exact ⟨records,
      { packages := by simpa [Except.map] using h.packages
        imports := by
          rw [importsRead_append, telling.importsRead_eq, ← h.imports]
          exact (List.append_nil _).symm
        graph := h.graph
        entered := by simpa [Except.map] using h.entered }⟩
  | @recorded pinned c' found s telling read sound =>
    exact ⟨records ++ [(package, found.imports)],
      { packages := by simpa [Except.map] using h.packages
        imports := by
          rw [importsRead_append, telling.importsRead_eq, ← h.imports, List.map_append]
          simp [importsRead, read]
        graph := by
          rw [List.foldl_append, ← h.graph]
          rfl
        entered := by simpa [Except.map] using h.entered }⟩

/-- Asking for the imports on record leaves the records. -/
theorem exists_recorded_read {before : Graph}
    {l : Logged String (Loader × Chronicle σ) LoadError}
    (h : ∃ records, plan.Recorded before records l) (package : String) :
    ∃ records, plan.Recorded before records (plan.chronicling.visitor.logged.read package l).2 := by
  obtain ⟨records, h⟩ := h
  refine ⟨records, { packages := ?_, imports := h.imports, graph := h.graph, entered := ?_ }⟩
  · simpa [Visitor.logged] using h.packages
  · simpa [Visitor.logged] using h.entered

/-- **What is read without error is on record, and nothing else.** Whatever the loader has done
before, and whatever it meets: a package that fails to load leaves the graph exactly as it was, and
of the books of pins at most the package's own pin is settled, if its repository was fetched at the
declared revision or moved there before the failure; a package that is loaded is recorded with the
imports just read.

So after any requests to one walker, of which some may have been cut short, the graph is what comes
of recording the packages that were handled without failure, in the order of their handling, each
with the imports that were read for it. -/
theorem load_records_what_is_read (plan : LoadPlan σ) :
    (∀ package loader s,
      let loaded := plan.chronicling.load package loader ⟨s, []⟩
      plan.load package loader s = (loaded.1, loaded.2.1, loaded.2.2.state) ∧
        plan.GraphAfter package loader.graph loaded.2.1.graph loaded.2.2 loaded.1 ∧
        plan.SettledBy package loaded.2.2.accounts loader.pinned loaded.2.1.pinned) ∧
    ∀ requests visited loader s,
      let walker := Walk.serve plan.chronicling.visitor.logged requests visited
        ⟨(loader, ⟨s, []⟩), []⟩
      Walk.serve plan.visitor requests visited (loader, s)
          = (walker.1, walker.2.state.1, walker.2.state.2.state) ∧
        ∃ records, plan.Recorded loader.graph records walker.2 := by
  refine ⟨fun package loader s => ?_, fun requests visited loader s => ?_⟩
  · exact ⟨plan.projects_chronicling.load (fun _ _ => rfl) package loader ⟨s, []⟩,
      (plan.recounting_load package loader ⟨s, []⟩).left⟩
  · have parts := (Walk.projects_logged plan.chronicling.visitor).comp
      (plan.projects_chronicling.visitor fun _ _ => rfl)
    refine ⟨Walk.serve_project parts requests visited ⟨(loader, ⟨s, []⟩), []⟩, ?_⟩
    refine Walk.serve_keeps (P := fun l => ∃ records, plan.Recorded loader.graph records l)
      (fun package l h => exists_recorded_handle h package)
      (fun package l h => exists_recorded_read h package) requests ⟨[], ?_⟩
    exact { packages := rfl, imports := rfl, graph := rfl, entered := fun _ => List.not_mem_nil }

/-- A plan under which a missing package is fetched at the revision of its pin, and then cannot be
read. -/
def unreadable : LoadPlan Unit where
  workspace := ⟨⟨"/w"⟩⟩
  pins := [⟨"lib", some "v1", none⟩]
  update := false
  files := { kind := fun _ _ => .error .notFound, directories := fun _ _ => .ok [] }
  resolver :=
    { resolve := fun _ _ s =>
        (.ok
          { root := "lib"
            create := fun _ s => (.ok (), s)
            setRevision := fun _ s => (.ok (), s)
            revision := fun s => (.ok "v1", s)
            branch := fun s => (.error .foreign, s)
            remote := fun s => (.error .foreign, s) }, s) }
  reader := { read := fun _ s => ({ imports := ["b"], error := some (.tool .foreign) }, s) }

/-- The package is fetched, but cannot be read: the pin is settled and nothing is on record. -/
theorem load_records_what_is_read_unreadable :
    let loaded := unreadable.chronicling.load "lib/a" {} ⟨(), []⟩
    loaded.1 = .error (.unread "lib/a" (.tool .foreign)) ∧
      loaded.2.1 = { graph := .empty, pinned := StringSet.empty.insert "lib" } ∧
      unreadable.GraphAfter "lib/a" .empty loaded.2.1.graph loaded.2.2 loaded.1 ∧
      unreadable.SettledBy "lib/a" loaded.2.2.accounts .empty loaded.2.1.pinned :=
  ⟨by decide +kernel, by decide +kernel,
    ((load_records_what_is_read unreadable).1 "lib/a" {} ()).2⟩

end Depot.LoadPlan
