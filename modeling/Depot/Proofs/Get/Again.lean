import Depot.Proofs.Get.Resident
import Depot.Proofs.Minutes

/-!
# Getting again

Where getting succeeds with updating off, every package that was met is on disk in the end: it was
read without error, which takes a directory, and nothing that is called later takes one away
(`Durable`). This holds although the loader never looks whether fetching a repository has brought
the package. So when the same packages are got again, each of them is found on disk, is read, and
has the imports that it had (`Project.get_again`).

The argument is one about two walks: the second one gets the answers of the first, as long as what a
call of the first one leaves behind is still there where the second begins (`Replays`).
-/

namespace Depot

variable {σ τ : Type}

/-! ## Walking again -/

namespace Walk

variable {ν ε : Type} [NodeId ν] {v : Visitor ν σ ε} {w : Visitor ν τ ε}

/-- **The visitor `w` gives the answers of `v` again**, in states that are related to those of `v`,
if what the call of `v` leaves behind is lasting. -/
structure Replays (v : Visitor ν σ ε) (w : Visitor ν τ ε) (lasting : σ → Prop)
    (related : σ → τ → Prop) : Prop where
  /-- Nodes are handled alike. -/
  handle : ∀ node s visit s' t, v.handle node s = (.ok visit, s') → lasting s' → related s t →
    ∃ t', w.handle node t = (.ok visit, t') ∧ related s' t'
  /-- Children are read alike. -/
  read : ∀ node s children s' t, v.read node s = (.ok children, s') → lasting s' → related s t →
    ∃ t', w.read node t = (.ok children, t') ∧ related s' t'

/-- **Calls lose nothing**: what is kept from one state to another is kept by every call. -/
structure Conserves (v : Visitor ν σ ε) (kept : σ → σ → Prop) : Prop where
  /-- A state keeps what it has. -/
  refl : ∀ s, kept s s
  /-- What is kept and kept again is kept. -/
  trans : ∀ {a b c}, kept a b → kept b c → kept a c
  /-- Handling a node loses nothing. -/
  handle : ∀ node s, kept s (v.handle node s).2
  /-- Reading its children loses nothing. -/
  read : ∀ node s, kept s (v.read node s).2

variable {kept : σ → σ → Prop} {related : σ → τ → Prop} {visited visited' : List (NodeId.Key ν)}
  {s final last : σ} {t : τ}

theorem Conserves.run (conserves : Conserves v kept) (budget : Nat) (queue : List ν)
    (visited : List (NodeId.Key ν)) (s : σ) : kept s (run v budget queue visited s).state :=
  run_keeps (P := kept s) budget (fun node _ h => conserves.trans h (conserves.handle node _))
    (fun node _ h => conserves.trans h (conserves.read node _)) (conserves.refl s)

theorem Conserves.traverseAll (conserves : Conserves v kept) (budget : Nat) (roots : List ν)
    (visited : List (NodeId.Key ν)) (s : σ) :
    kept s (traverseAll v budget roots visited s).state :=
  traverseAll_keeps (P := kept s) budget
    (fun node _ h => conserves.trans h (conserves.handle node _))
    (fun node _ h => conserves.trans h (conserves.read node _)) roots (conserves.refl s)

/-- **A walk that came to its end can be walked again**, where nothing has been lost since. -/
theorem run_replays (conserves : Conserves v kept)
    (replays : Replays v w (fun s => kept s last) related) (lasts : kept final last) (budget : Nat)
    (queue : List ν) (ran : run v budget queue visited s = ⟨.ok (), visited', final⟩)
    (start : related s t) :
    ∃ t', run w budget queue visited t = ⟨.ok (), visited', t'⟩ ∧ related final t' := by
  induction budget generalizing queue visited s t with
  | zero =>
    unfold run at ran ⊢
    generalize queue.dropWhile (isVisited visited) = new at ran ⊢
    cases new with
    | nil =>
      cases ran
      exact ⟨t, rfl, start⟩
    | cons node rest => cases ran
  | succ budget ih =>
    -- whatever a call leaves behind is kept until the end, and ever since
    have lasting {queue : List ν} {visited : List (NodeId.Key ν)} {s : σ}
        (ran : run v budget queue visited s = ⟨.ok (), visited', final⟩) : kept s last := by
      have := conserves.run budget queue visited s
      rw [ran] at this
      exact conserves.trans this lasts
    unfold run at ran ⊢
    generalize queue.dropWhile (isVisited visited) = new at ran ⊢
    cases new with
    | nil =>
      cases ran
      exact ⟨t, rfl, start⟩
    | cons node rest =>
      rcases handled : v.handle node s with ⟨cause | visit, s₁⟩
      · simp only [handled] at ran
        cases ran
      · cases visit with
        | skip =>
          simp only [handled] at ran
          obtain ⟨t₁, handled', related₁⟩ :=
            replays.handle node s _ s₁ t handled (lasting ran) start
          simp only [handled']
          exact ih _ ran related₁
        | descend =>
          rcases named : v.read node s₁ with ⟨cause | children, s₂⟩
          · simp only [handled, named] at ran
            cases ran
          · simp only [handled, named] at ran
            have kept₂ := lasting ran
            have kept₁ : kept s₁ s₂ := by
              have := conserves.read node s₁
              rwa [named] at this
            obtain ⟨t₁, handled', related₁⟩ :=
              replays.handle node s _ s₁ t handled (conserves.trans kept₁ kept₂) start
            obtain ⟨t₂, named', related₂⟩ :=
              replays.read node s₁ _ s₂ t₁ named kept₂ related₁
            simp only [handled', named']
            exact ih _ ran related₂

/-- **Several walks that came to their end can be walked again.** -/
theorem traverseAll_replays (conserves : Conserves v kept)
    (replays : Replays v w (fun s => kept s last) related) (budget : Nat) (roots : List ν)
    (ran : traverseAll v budget roots visited s = ⟨.ok (), visited', last⟩) (start : related s t) :
    ∃ t', traverseAll w budget roots visited t = ⟨.ok (), visited', t'⟩ ∧ related last t' := by
  induction roots generalizing visited s t with
  | nil =>
    cases ran
    exact ⟨t, rfl, start⟩
  | cons root roots ih =>
    rcases first : traverse v budget root visited s with ⟨cause | ⟨⟩, visited₁, s₁⟩
    · rw [traverseAll_cons_of_error roots first] at ran
      cases ran
    · rw [traverseAll_cons_of_ok roots first] at ran
      have lasts : kept s₁ last := by
        have := conserves.traverseAll budget roots visited₁ s₁
        rwa [ran] at this
      obtain ⟨t₁, again, related₁⟩ := run_replays conserves replays lasts budget [root] first start
      rw [traverseAll_cons_of_ok roots again]
      exact ih ran related₁

end Walk

/-! ## What lasts -/

namespace LoadPlan

variable {plan : LoadPlan σ} {package : String} {loader loader' : Loader} {s s' t : σ}

/-- **Directories last** from one state to another: each is still there, and the reader gives the
answer that it gave. -/
def Lasts (plan : LoadPlan σ) (s t : σ) : Prop :=
  ∀ dir, plan.files.kind dir s = .ok .directory →
    plan.files.kind dir t = .ok .directory ∧
      (plan.reader.read dir t).1 = (plan.reader.read dir s).1

theorem Lasts.refl (s : σ) : plan.Lasts s s := fun _ there => ⟨there, rfl⟩

theorem Lasts.trans {a b c : σ} (ab : plan.Lasts a b) (bc : plan.Lasts b c) : plan.Lasts a c := by
  intro dir there
  obtain ⟨there', same⟩ := ab dir there
  obtain ⟨there'', same'⟩ := bc dir there'
  exact ⟨there'', same'.trans same⟩

/-- **A plan under which directories last**: the reader fails where there is no directory, and no
call takes a directory away or changes what the reader says of one. -/
structure Durable (plan : LoadPlan σ) : Prop where
  /-- The reader fails where there is no directory. -/
  fails : ∀ dir s, plan.files.kind dir s ≠ .ok .directory →
    (plan.reader.read dir s).1.error ≠ none
  /-- Directories last when a package is read. -/
  read : ∀ dir s, plan.Lasts s (plan.reader.read dir s).2
  /-- They last when a repository is asked for. -/
  resolve : ∀ package pin s, plan.Lasts s (plan.resolver.resolve package pin s).2
  /-- They last when a repository is fetched. -/
  create : ∀ package pin s checkout s', plan.resolver.resolve package pin s = (.ok checkout, s') →
    ∀ revision t, plan.Lasts t (checkout.create revision t).2

/-- **With updating off, directories last when a package is provided.** -/
theorem Durable.provide (durable : plan.Durable) (still : plan.update = false) (package : String)
    (pinned : StringSet) (s : σ) : plan.Lasts s (plan.provide package pinned s).2 := by
  have resolve {answer : Except Fault (Checkout σ)} {s' : σ}
      (asked : plan.repositoryOf package s = (answer, s')) : plan.Lasts s s' := by
    have := durable.resolve package (Pin.firstFor plan.pins package) s
    rwa [← repositoryOf, asked] at this
  have create {checkout : Checkout σ} {s' s'' : σ} {result : Except Fault Unit}
      (asked : plan.repositoryOf package s = (.ok checkout, s'))
      (done : checkout.create ((Pin.firstFor plan.pins package).bind (·.revision)) s' =
        (result, s'')) : plan.Lasts s s'' := by
    have := durable.create _ _ _ _ _ asked ((Pin.firstFor plan.pins package).bind (·.revision)) s'
    rw [done] at this
    exact (resolve asked).trans this
  have providing := plan.providing_provide package pinned s
  generalize plan.provide package pinned s = outcome at providing ⊢
  cases providing with
  | occupied | unreachable | stays => exact .refl s
  | unknown _ asked => exact resolve asked
  | notFetched _ asked done | fetched _ asked done => exact create asked done
  | stray _ update | notMoved _ update | moved _ update => cases still.symm.trans update

theorem Durable.load (durable : plan.Durable) (still : plan.update = false) (package : String)
    (loader : Loader) (s : σ) : plan.Lasts s (plan.load package loader s).2.2 := by
  have lasts := durable.provide still package loader.pinned s
  rcases provided : plan.provide package loader.pinned s with ⟨cause | pinned, s₁⟩ <;>
    rw [provided] at lasts
  · rw [load_of_provide_error provided]
    exact lasts
  · rw [load_of_provide_ok provided]
    have read := lasts.trans (durable.read (plan.workspace.packageSource package) s₁)
    dsimp only
    split <;> exact read

/-- **A package that was loaded is there**, and its record is what the reader says of it. -/
theorem Durable.there (durable : plan.Durable)
    (loaded : plan.load package loader s = (.ok (), loader', s')) :
    plan.kindOf package s' = .ok .directory ∧
      let found := (plan.reader.read (plan.workspace.packageSource package) s').1
      found.error = none ∧ loader'.graph = loader.graph.record package found.imports := by
  obtain ⟨pinned, s₁, found, -, read, sound, recorded⟩ := load_eq_ok loaded
  have there : plan.files.kind (plan.workspace.packageSource package) s₁ = .ok .directory := by
    by_contra absent
    exact durable.fails _ _ absent (by rw [read]; exact sound)
  have lasts := durable.read (plan.workspace.packageSource package) s₁
  rw [read] at lasts
  obtain ⟨there', same⟩ := lasts _ there
  rw [read] at same
  refine ⟨there', ?_⟩
  rw [same, recorded]
  exact ⟨sound, rfl⟩

/-! ## Loading again -/

/-- **A load that goes on where another one is repeated**: the same is on record, the directories of
the other one's end have lasted, and nothing but readings is on the minutes. -/
structure Repeats (plan : LoadPlan σ) (last : σ) (first : Loader × σ)
    (again : Loader × Minutes σ) : Prop where
  /-- The same is on record. -/
  graph : again.1.graph = first.1.graph
  /-- The directories have lasted. -/
  lasts : plan.Lasts last again.2.state
  /-- Packages were read, and nothing else was called. -/
  reads : ∀ entry ∈ again.2.entries, ∃ dir, entry.event = .read dir

/-- **Loading conserves directories.** -/
theorem Durable.conserves (durable : plan.Durable) (still : plan.update = false) :
    Walk.Conserves plan.visitor fun s t => plan.Lasts s.2 t.2 where
  refl s := .refl s.2
  trans := .trans
  handle package s := durable.load still package s.1 s.2
  read _ s := .refl s.2

/-- **Loading again is reading again.** -/
theorem Durable.replays (durable : plan.Durable) (still : plan.update = false) (last : σ) :
    Walk.Replays plan.visitor plan.minuting.visitor (fun s => plan.Lasts s.2 last)
      (plan.Repeats last) where
  handle package s visit s' t handled lasts repeats := by
    obtain ⟨rfl, loaded⟩ := handle_eq_ok handled
    obtain ⟨there, sound, recorded⟩ := durable.there loaded
    obtain ⟨there, same⟩ := lasts.trans repeats.lasts _ there
    rw [← same] at sound recorded
    have again : plan.minuting.load package t.1 t.2 = _ := load_of_there still there rfl sound
    refine ⟨_, handle_of_load again, ?_⟩
    exact {
      graph := by rw [recorded, ← repeats.graph]; rfl
      lasts := repeats.lasts.trans (durable.read (plan.workspace.packageSource package) _)
      reads := List.forall_mem_append.2
        ⟨repeats.reads, List.forall_mem_singleton.2 ⟨_, rfl⟩⟩ }
  read package s children s' t named lasts repeats := by
    obtain ⟨imports, rfl⟩ := Prod.mk.inj named
    refine ⟨t, ?_, repeats⟩
    have same : importsOf t.1 package = importsOf s.1 package := by
      unfold importsOf
      rw [repeats.graph]
    exact Prod.ext (same.trans imports) rfl

end LoadPlan

namespace Project

/-- **Getting again.** Let updating be off, and let directories last: the reader fails where there
is none, and neither reading a package nor asking for a repository nor fetching it takes one away or
changes what the reader says of it. Where getting succeeds, getting the same again, on whatever it
has left behind, succeeds with the same graph. With minutes, this second run has the same result,
and all that it calls is the reader: it asks for no repository, and makes no call on any. -/
theorem get_again (p : Project) (means : Means σ) (paths : List String) (s : σ) {graph : Graph}
    (still : p.configuration.updates = false) (durable : (p.loadPlan means).Durable)
    (got : (p.get means paths s).1 = .ok graph) :
    let last := (p.get means paths s).2
    let again := p.get means.minuting paths ⟨last, []⟩
    (p.get means paths last).1 = .ok graph ∧
      p.get means paths last = (again.1, again.2.state) ∧
      ∀ entry ∈ again.2.entries, ∃ dir, entry.event = .read dir := by
  intro last again
  have minuted : p.get means paths last = (again.1, again.2.state) :=
    p.get_minuting means paths ⟨last, []⟩
  have result : p.get means paths s = (.ok graph, last) := Prod.ext got rfl
  obtain ⟨starts, chosen, ended, rfl, same⟩ := get_eq_ok result
  rcases walk : Walk.traverseAll (p.loadPlan means).visitor means.budget starts []
    (({} : Loader), s) with ⟨outcome, visited, loader, final⟩
  rw [walk] at ended same
  obtain rfl : outcome = .ok () := ended
  obtain rfl : last = final := same
  have start : (p.loadPlan means).Repeats last ({}, s) ({}, ⟨last, []⟩) :=
    ⟨rfl, .refl last, by simp⟩
  obtain ⟨⟨loader', m⟩, walked, repeats⟩ := Walk.traverseAll_replays (durable.conserves still)
    (durable.replays still last) means.budget starts walk start
  have done : again = (.ok loader'.graph, m) := get_of_walk chosen walked
  rw [minuted, done, repeats.graph]
  exact ⟨rfl, rfl, repeats.reads⟩

/-- What is on disk: a package, and another one once its repository is fetched. -/
def isThere (fetched : Bool) (dir : Path) : Bool :=
  dir.text == "/w/src/a" || (fetched && dir.text == "/w/src/e.org/lib")

/-- The state tells whether the repository is fetched. The first package imports the other one. -/
def fetchingMeans : Means Bool where
  files :=
    { kind := fun dir fetched => if isThere fetched dir then .ok .directory else .error .notFound
      directories := fun _ _ => .ok [] }
  reader :=
    { read := fun dir fetched =>
        (if isThere fetched dir then
          { imports := if dir.text == "/w/src/a" then ["e.org/lib"] else [] }
        else { error := some (.tool .foreign) }, fetched) }
  resolver :=
    { resolve := fun _ _ fetched =>
        (.ok
          { root := "e.org/lib"
            create := fun _ _ => (.ok (), true)
            setRevision := fun _ s => (.ok (), s)
            revision := fun s => (.ok "", s)
            branch := fun s => (.ok "", s)
            remote := fun s => (.ok "", s) }, fetched) }
  budget := 2

theorem durable_fetchingMeans : (sample.loadPlan fetchingMeans).Durable where
  fails dir fetched absent := by
    cases there : isThere fetched dir <;> simp_all [loadPlan, fetchingMeans]
  read _ _ := .refl _
  resolve _ _ _ := .refl _
  create package pin s checkout s' asked revision t := by
    obtain ⟨rfl, rfl⟩ : _ ∧ s = s' := by simpa [loadPlan, fetchingMeans] using asked
    intro dir there
    have before : isThere t dir = true := by
      cases h : isThere t dir <;> simp_all [loadPlan, fetchingMeans]
    have after : isThere true dir = true := by
      unfold isThere at before ⊢
      cases t <;> simp_all
    simp [loadPlan, fetchingMeans, before, after]

/-- What is on record in the end. -/
def fetchedLoader : Loader where
  graph := (Graph.empty.record "a" ["e.org/lib"]).record "e.org/lib" []

/-- What was fetched the first time is only read the second time. -/
theorem get_again_fetching :
    sample.configuration.updates = false ∧ (sample.loadPlan fetchingMeans).Durable ∧
      sample.get fetchingMeans ["a"] false = (.ok fetchedLoader.graph, true) ∧
      let again := sample.get fetchingMeans.minuting ["a"] ⟨true, []⟩
      (sample.get fetchingMeans ["a"] true).1 = .ok fetchedLoader.graph ∧
        ∀ entry ∈ again.2.entries, ∃ dir, entry.event = .read dir := by
  let v := (sample.loadPlan fetchingMeans).visitor
  let loader : Loader := { graph := Graph.empty.record "a" ["e.org/lib"] }
  have a : v.handle "a" ({}, false) = (.ok .descend, (loader, false)) := by decide +kernel
  have lib : v.handle "e.org/lib" (loader, false) = (.ok .descend, (fetchedLoader, true)) := by
    decide +kernel
  have read_a : v.read "a" (loader, false) = (.ok ["e.org/lib"], (loader, false)) := by
    decide +kernel
  have read_lib : v.read "e.org/lib" (fetchedLoader, true) = (.ok [], (fetchedLoader, true)) := by
    decide +kernel
  have walk : Walk.traverseAll v 2 ["a"] [] ({}, false) =
      ⟨.ok (), ["e.org/lib", "a"], (fetchedLoader, true)⟩ := by
    have first : Walk.pending [NodeId.key "a"] ["e.org/lib"] = ["e.org/lib"] := by
      rw [Walk.pending_of_sorted (List.pairwise_singleton _ _)]
      decide +kernel
    have second :
        Walk.pending [NodeId.key "e.org/lib", NodeId.key "a"] ([] : List String) = [] := by
      rw [Walk.pending_of_sorted List.Pairwise.nil]
      rfl
    refine Walk.traverseAll_cons_of_ok [] ?_
    rw [Walk.traverse, Walk.run_descend 1 (by decide) a read_a, first, List.nil_append,
      Walk.run_descend 0 (by decide) lib read_lib, second]
    rfl
  have got : sample.get fetchingMeans ["a"] false = (.ok fetchedLoader.graph, true) :=
    get_of_walk rfl walk
  have again := get_again sample fetchingMeans ["a"] false rfl durable_fetchingMeans (by rw [got])
  rw [got] at again
  exact ⟨rfl, durable_fetchingMeans, got, again.1, again.2.2⟩

end Project

end Depot
