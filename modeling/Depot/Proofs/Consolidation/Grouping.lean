import Depot.Proofs.Consolidation.Answers
import Mathlib.Data.List.Induction
import Mathlib.Data.List.Nodup
import Mathlib.Data.List.TakeWhile

/-!
# Consolidation as grouping

Consolidation asks for the repository of a package only if no repository found before contains it.
If repositories do not overlap, this changes nothing: the manifest is the one that comes of asking
for every package (`rootOf`), grouping the packages by repository in their order in the graph
(`rootsOf`), and asking each repository once what is checked out (`report`).

What is needed of the resolver is that its answers are fixed (`Fixed`), that the repository of a
package contains it, and that any other package it contains belongs to it too (`Coherent`).
-/

namespace Depot

/-- **Repositories do not overlap** on the packages of a graph. -/
structure Answers.Coherent (a : Answers) (graph : Graph) : Prop where
  /-- The repository of a package contains it. -/
  contains : ∀ dep ∈ graph.records, ∀ root, a.root dep.importPath = some root →
    ImportPath.contains root dep.importPath = true
  /-- Any other package it contains has the same repository. -/
  shared : ∀ dep ∈ graph.records, ∀ root, a.root dep.importPath = some root →
    ∀ other ∈ graph.records, ImportPath.contains root other.importPath = true →
      a.root other.importPath = some root

namespace Consolidation

variable {σ : Type} (c : Consolidation σ) (a : Answers)

/-! ## The reference -/

/-- **The repositories to record**, in the order in which the packages come upon them. -/
def rootsOf (deps : List Dependency) : List String := (deps.filterMap (c.rootOf a)).eraseDups

/-- The repositories up to the first one that does not tell what is wanted, with that one. -/
def reached (roots : List String) : List String :=
  roots.takeWhile (fun root => (c.report a root).isOk) ++
    (roots.dropWhile fun root => (c.report a root).isOk).take 1

/-- **The manifest by groups**: one repository for each root, with the packages that have it. -/
def grouped (graph : Graph) : Except ResolveError Manifest :=
  (c.rootsOf a graph.records).mapM fun root => (c.report a root).map fun told =>
    Repository.found root told (graph.only fun dep => c.rootOf a dep = some root)

/-! ## Groups -/

variable {c a}

section Groups

variable {dep : Dependency} {deps done : List Dependency} {root : String}

theorem mem_rootsOf : root ∈ c.rootsOf a deps ↔ ∃ dep ∈ deps, c.rootOf a dep = some root := by
  simp [rootsOf]

/-- One more package may come upon one more repository, which then is the last. -/
theorem rootsOf_concat : c.rootsOf a (deps ++ [dep]) =
    c.rootsOf a deps ++ (c.rootOf a dep).toList.filter (· ∉ c.rootsOf a deps) := by
  unfold rootsOf
  rw [List.filterMap_append, List.eraseDups_append, List.removeAll]
  rcases found : c.rootOf a dep with _ | root
  · simp [found]
  · by_cases known : root ∈ deps.filterMap (c.rootOf a)
    · simp [found, known, -List.mem_filterMap]
    · simp [found, known, List.eraseDups_cons, -List.mem_filterMap]

theorem rootsOf_append (deps rest : List Dependency) :
    ∃ more, c.rootsOf a (deps ++ rest) = c.rootsOf a deps ++ more := by
  unfold rootsOf
  rw [List.filterMap_append, List.eraseDups_append]
  exact ⟨_, rfl⟩

theorem nodup_rootsOf (deps : List Dependency) : (c.rootsOf a deps).Nodup := by
  induction deps using List.reverseRecOn with
  | nil => simp [rootsOf]
  | append_singleton deps dep ih =>
    rw [rootsOf_concat]
    refine List.nodup_append.2 ⟨ih, ?_, ?_⟩
    · refine List.Nodup.filter _ ?_
      cases c.rootOf a dep <;> simp
    · rintro root known _ new rfl
      exact absurd known (by simpa using (List.mem_filter.1 new).2)

variable (c a) in
/-- The group of a repository, as far as packages were placed. -/
def group (done : List Dependency) (root : String) : Except ResolveError Repository :=
  (c.report a root).map fun told => .found root told
    (Graph.ofList (done.filter fun dep => c.rootOf a dep = some root))

theorem grouped_eq_mapM (graph : Graph) :
    c.grouped a graph = (c.rootsOf a graph.records).mapM (c.group a graph.records) := by
  unfold grouped group
  simp only [Graph.ofList_filter]

/-- A package of another repository makes no difference to a group. -/
theorem group_concat_of_ne (other : c.rootOf a dep ≠ some root) :
    c.group a (done ++ [dep]) root = c.group a done root := by
  unfold group
  rw [List.filter_append, List.filter_singleton]
  simp [other]

theorem group_concat {r : Repository} (own : c.rootOf a dep = some root)
    (h : c.group a done root = .ok r) : c.group a (done ++ [dep]) root = .ok (r.hold dep) := by
  unfold group at h ⊢
  rw [List.filter_append, List.filter_singleton, ← Graph.addAll_ofList]
  cases told : c.report a root with
  | error e =>
    rw [told] at h
    cases h
  | ok t =>
    rw [told] at h
    cases h
    simp [own]
    rfl

/-- The first package of a repository is alone in its group. -/
theorem group_concat_of_new (own : c.rootOf a dep = some root) (new : root ∉ c.rootsOf a done) :
    c.group a (done ++ [dep]) root
      = (c.report a root).map fun told => .found root told (Graph.empty.add dep) := by
  have none : done.filter (fun d => c.rootOf a d = some root) = [] := by
    refine List.filter_eq_nil_iff.2 fun d hd => ?_
    simpa using fun found => new (mem_rootsOf.2 ⟨d, hd, found⟩)
  unfold group
  rw [List.filter_append, none, List.filter_singleton]
  simp [own]
  rfl

/-- A group is on record under its root once its repository has told of itself. -/
theorem group_eq_ok {r : Repository} (h : c.group a done root = .ok r) :
    r.root = root ∧ (c.report a root).isOk = true := by
  unfold group at h
  cases told : c.report a root with
  | error e =>
    rw [told] at h
    cases h
  | ok t =>
    rw [told] at h
    cases h
    exact ⟨rfl, rfl⟩

end Groups

/-! ## The run -/

section Run

variable {graph : Graph} {done rest : List Dependency} {dep : Dependency} {m : Manifest}
  {Q : List Event → σ → Prop} {s : σ}

variable (c a) in
/-- **The manifest of the packages placed so far** has their groups. -/
structure Grouped (done : List Dependency) (m : Manifest) : Prop where
  /-- The repositories are those that the packages have, in order. -/
  roots : m.map (·.root) = c.rootsOf a done
  /-- Each is on record with its group. -/
  groups : ∀ r ∈ m, c.group a done r.root = .ok r

/-- The repositories on record have told of themselves. -/
theorem Grouped.isOk_report (grouped : c.Grouped a done m) :
    ∀ root ∈ c.rootsOf a done, (c.report a root).isOk = true := by
  rw [← grouped.roots]
  simp only [List.mem_map]
  rintro _ ⟨r, hr, rfl⟩
  exact (group_eq_ok (grouped.groups r hr)).2

/-- **The owner of a package is its repository**, where repositories do not overlap. -/
theorem Grouped.rootOf_of_contains (grouped : c.Grouped a done m) (coherent : a.Coherent graph)
    (split : graph.records = done ++ dep :: rest) {r : Repository} (hr : r ∈ m)
    (owned : r.contains dep.importPath = true) : c.rootOf a dep = some r.root := by
  have listed : r.root ∈ c.rootsOf a done := grouped.roots ▸ List.mem_map_of_mem hr
  obtain ⟨d, hd, found⟩ := mem_rootsOf.1 listed
  obtain ⟨found, apart⟩ := rootOf_eq_some.1 found
  have before : d ∈ graph.records := by simp [split, hd]
  have here : dep ∈ graph.records := by simp [split]
  exact rootOf_eq_some.2 ⟨coherent.shared d before r.root found dep here owned, apart⟩

/-- **A package without an owner comes upon no repository on record.** -/
theorem Grouped.not_mem_of_free (grouped : c.Grouped a done m) (coherent : a.Coherent graph)
    (split : graph.records = done ++ dep :: rest)
    (free : ∀ r ∈ m, r.contains dep.importPath = false) {root : String}
    (own : c.rootOf a dep = some root) : root ∉ c.rootsOf a done := by
  rw [← grouped.roots]
  intro listed
  obtain ⟨r, hr, rfl⟩ := List.mem_map.1 listed
  have here : dep ∈ graph.records := by simp [split]
  have inside : r.contains dep.importPath = true :=
    coherent.contains dep here r.root (rootOf_eq_some.1 own).1
  rw [free r hr] at inside
  cases inside

/-- A package without a repository to record leaves the groups as they are. -/
theorem Grouped.skip (grouped : c.Grouped a done m) (none : c.rootOf a dep = none) :
    c.Grouped a (done ++ [dep]) m where
  roots := by
    rw [rootsOf_concat, none]
    simpa using grouped.roots
  groups := fun r hr => by
    rw [group_concat_of_ne (by simp [none])]
    exact grouped.groups r hr

/-- **A package that joins its owner joins its group.** -/
theorem Grouped.hold {before after : Manifest} {owner : Repository}
    (grouped : c.Grouped a done (before ++ owner :: after))
    (own : c.rootOf a dep = some owner.root) :
    c.Grouped a (done ++ [dep]) (before ++ owner.hold dep :: after) where
  roots := by
    rw [rootsOf_concat, own, ← grouped.roots]
    simp [Repository.hold]
  groups := by
    have distinct := nodup_rootsOf (c := c) (a := a) done
    rw [← grouped.roots, List.map_append, List.map_cons, List.nodup_middle, List.nodup_cons,
      ← List.map_append] at distinct
    have others : ∀ r ∈ before ++ after, c.rootOf a dep ≠ some r.root := by
      rw [own]
      rintro r hr same
      exact distinct.1 (List.mem_map.2 ⟨r, hr, (Option.some.inj same).symm⟩)
    intro r hr
    rcases List.mem_append.1 hr with hr | hr
    · rw [group_concat_of_ne (others r (List.mem_append_left _ hr))]
      exact grouped.groups r (by simp [hr])
    · rcases List.mem_cons.1 hr with rfl | hr
      · exact group_concat own (grouped.groups owner (by simp))
      · rw [group_concat_of_ne (others r (List.mem_append_right _ hr))]
        exact grouped.groups r (by simp [hr])

/-- **A package that comes upon a new repository opens its group.** -/
theorem Grouped.opened (grouped : c.Grouped a done m) {told : String × String} {root : String}
    (own : c.rootOf a dep = some root) (new : root ∉ c.rootsOf a done)
    (report : c.report a root = .ok told) :
    c.Grouped a (done ++ [dep]) (m ++ [.found root told (Graph.empty.add dep)]) where
  roots := by
    rw [rootsOf_concat, own, List.map_append, grouped.roots]
    simp [new, Repository.found]
  groups := by
    intro r hr
    rcases List.mem_append.1 hr with hr | hr
    · have listed : r.root ∈ c.rootsOf a done := grouped.roots ▸ List.mem_map_of_mem hr
      rw [group_concat_of_ne]
      · exact grouped.groups r hr
      · rw [own]
        rintro ⟨⟩
        exact new listed
    · obtain rfl := List.mem_singleton.1 hr
      show c.group a (done ++ [dep]) root = _
      rw [group_concat_of_new own new, report]
      rfl

/-- **Placing a package keeps the groups**, and asks a repository for its report exactly if the
package is the first to come upon it. -/
theorem Follows.place_ok (follows : c.Follows a Q) (coherent : a.Coherent graph)
    (split : graph.records = done ++ dep :: rest) (grouped : c.Grouped a done m)
    (start : Q ((c.rootsOf a done).flatMap (c.queriesOf a)) s) {m' : Manifest} {s' : σ}
    (placed : c.place m dep s = (.ok m', s')) :
    c.Grouped a (done ++ [dep]) m' ∧
      Q ((c.rootsOf a (done ++ [dep])).flatMap (c.queriesOf a)) s' := by
  -- nothing is asked unless a repository goes on record
  have silent (none : c.rootOf a dep = none)
      (kept : Q ((c.rootsOf a done).flatMap (c.queriesOf a)) s') :
      Q ((c.rootsOf a (done ++ [dep])).flatMap (c.queriesOf a)) s' := by
    rw [rootsOf_concat, none]
    simpa using kept
  have placing := c.placing_place m dep s
  rw [placed] at placing
  cases placing with
  | held joins owned =>
    subst joins
    have own := grouped.rootOf_of_contains coherent split (by simp) owned
    refine ⟨grouped.hold own, ?_⟩
    rw [rootsOf_concat, own]
    simpa [← grouped.roots] using start
  | unresolved free asked =>
    obtain ⟨none, kept⟩ := follows.of_unresolved _ start asked
    exact ⟨grouped.skip none, silent none kept⟩
  | own free asked encloses =>
    obtain ⟨none, kept⟩ := follows.of_own _ start asked encloses
    exact ⟨grouped.skip none, silent none kept⟩
  | @opened checkout repository _ _ free asked apart told =>
    obtain ⟨own, kept, tells⟩ := follows.of_apart _ start asked apart
    have new := grouped.not_mem_of_free coherent split free own
    obtain ⟨_, opening, kept⟩ := tells.open?_eq (c := c) _ kept dep
    rw [opening] at told
    cases report : c.report a checkout.root with
    | error e =>
      rw [report] at told
      cases told
    | ok t =>
      rw [report] at told
      cases told
      refine ⟨grouped.opened own new report, ?_⟩
      rw [rootsOf_concat, own]
      simpa [new] using kept

/-- **A package that ends the run** is the first to come upon a repository that does not tell what
is wanted. -/
theorem Follows.place_error (follows : c.Follows a Q) (coherent : a.Coherent graph)
    (split : graph.records = done ++ dep :: rest) (grouped : c.Grouped a done m)
    (start : Q ((c.rootsOf a done).flatMap (c.queriesOf a)) s) {e : ResolveError} {s' : σ}
    (placed : c.place m dep s = (.error e, s')) :
    ∃ root, c.rootsOf a (done ++ [dep]) = c.rootsOf a done ++ [root] ∧
      c.report a root = .error e ∧
      Q ((c.rootsOf a done).flatMap (c.queriesOf a) ++ c.queriesOf a root) s' := by
  have placing := c.placing_place m dep s
  rw [placed] at placing
  cases placing with
  | @failed checkout _ _ _ free asked apart untold =>
    obtain ⟨own, kept, tells⟩ := follows.of_apart _ start asked apart
    have new := grouped.not_mem_of_free coherent split free own
    obtain ⟨_, opening, kept⟩ := tells.open?_eq (c := c) _ kept dep
    rw [opening] at untold
    cases report : c.report a checkout.root with
    | ok t =>
      rw [report] at untold
      cases untold
    | error e =>
      rw [report] at untold
      cases untold
      refine ⟨checkout.root, ?_, report, kept⟩
      rw [rootsOf_concat, own]
      simp [new]

/-! ## The whole manifest -/

theorem mapM_eq_ok {f : String → Except ResolveError Repository} {m : Manifest}
    (h : ∀ r ∈ m, f r.root = .ok r) : (m.map (·.root)).mapM f = .ok m := by
  induction m with
  | nil => rfl
  | cons r m ih =>
    rw [List.map_cons, List.mapM_cons, h r List.mem_cons_self,
      ih fun r' hr => h r' (List.mem_cons_of_mem r hr)]
    rfl

/-- **The first group that fails is what comes of them all.** -/
theorem mapM_eq_error {f : String → Except ResolveError Repository} {roots : List String}
    {e : ResolveError} : roots.mapM f = .error e ↔
      ∃ before root after, roots = before ++ root :: after ∧
        (∀ root ∈ before, (f root).isOk = true) ∧ f root = .error e := by
  induction roots with
  | nil => simp [pure, Except.pure]
  | cons first roots ih =>
    rw [List.mapM_cons]
    cases told : f first with
    | error e' =>
      constructor
      · rintro ⟨⟩
        exact ⟨[], first, roots, rfl, by simp, told⟩
      · rintro ⟨_ | ⟨_, before⟩, root, after, ⟨⟩, ok, failed⟩
        · rw [told] at failed
          cases failed
          rfl
        · have := ok first List.mem_cons_self
          rw [told] at this
          cases this
    | ok r =>
      have rest : (do
          let rs ← roots.mapM f
          pure (r :: rs)) = Except.error e ↔ roots.mapM f = .error e := by
        cases roots.mapM f with
        | error e' => exact Iff.rfl
        | ok rs => exact ⟨nofun, nofun⟩
      refine rest.trans (ih.trans ⟨?_, ?_⟩)
      · rintro ⟨before, root, after, rfl, ok, failed⟩
        refine ⟨first :: before, root, after, rfl, ?_, failed⟩
        rintro root' (_ | ⟨_, h⟩)
        · rw [told]
          rfl
        · exact ok root' h
      · rintro ⟨_ | ⟨_, before⟩, root, after, ⟨⟩, ok, failed⟩
        · rw [told] at failed
          cases failed
        · exact ⟨before, root, after, rfl, fun root' h => ok root' (List.mem_cons_of_mem _ h), failed⟩

/-- A group fails exactly if its repository does not tell what is wanted. -/
theorem group_eq_error {root : String} {e : ResolveError} :
    c.group a done root = .error e ↔ c.report a root = .error e := by
  unfold group
  cases c.report a root <;> simp [Except.map]

theorem isOk_group (root : String) : (c.group a done root).isOk = (c.report a root).isOk := by
  unfold group
  cases c.report a root <;> rfl

/-- **The manifest by groups fails with the first group that fails.** -/
theorem grouped_eq_error {e : ResolveError} : c.grouped a graph = .error e ↔
    ∃ before root after, c.rootsOf a graph.records = before ++ root :: after ∧
      (∀ root ∈ before, (c.report a root).isOk = true) ∧ c.report a root = .error e := by
  rw [grouped_eq_mapM, mapM_eq_error]
  simp only [isOk_group, group_eq_error]

/-- Repositories that all tell what is wanted are all reached. -/
theorem reached_eq_self {roots : List String}
    (ok : ∀ root ∈ roots, (c.report a root).isOk = true) : c.reached a roots = roots := by
  unfold reached
  rw [List.dropWhile_eq_nil_iff.2 ok, List.takeWhile_eq_self_iff.2 ok]
  exact List.append_nil roots

/-- Nothing is reached beyond the first repository that does not. -/
theorem reached_append {before after : List String} {root : String}
    (ok : ∀ root ∈ before, (c.report a root).isOk = true)
    (failed : (c.report a root).isOk = false) :
    c.reached a (before ++ root :: after) = before ++ [root] := by
  unfold reached
  rw [List.takeWhile_append_of_pos ok, List.dropWhile_append_of_pos ok,
    List.takeWhile_cons_of_neg (by simp [failed]), List.dropWhile_cons_of_neg (by simp [failed]),
    List.append_nil]
  rfl

/-- **Placing all packages comes to the manifest by groups**, with the queries of the repositories
that are reached. -/
theorem Follows.placeAll_eq (follows : c.Follows a Q) (coherent : a.Coherent graph)
    (start : Q [] s) :
    ∃ s', c.placeAll [] graph.records s = (c.grouped a graph, s') ∧
      Q ((c.reached a (c.rootsOf a graph.records)).flatMap (c.queriesOf a)) s' := by
  have run := placeAll_run (c := c) graph.records (s := s)
    (motive := fun done m s =>
      c.Grouped a done m ∧ Q ((c.rootsOf a done).flatMap (c.queriesOf a)) s)
    ⟨⟨rfl, by simp⟩, start⟩
    fun done dep rest m s m' s' split h placed => follows.place_ok coherent split h.1 h.2 placed
  rw [grouped_eq_mapM]
  rcases run with ⟨m, s', all, grouped, kept⟩ |
    ⟨done, dep, rest, m, t, e, s', split, ⟨grouped, kept⟩, placed, all⟩
  · refine ⟨s', ?_, ?_⟩
    · rw [all, ← grouped.roots, mapM_eq_ok grouped.groups]
    · rw [reached_eq_self grouped.isOk_report]
      exact kept
  · obtain ⟨root, last, report, kept⟩ := follows.place_error coherent split grouped kept placed
    obtain ⟨more, roots⟩ := rootsOf_append (c := c) (a := a) (done ++ [dep]) rest
    have roots : c.rootsOf a graph.records = c.rootsOf a done ++ root :: more := by
      rw [split, List.append_cons, roots, last, List.append_assoc, List.singleton_append]
    refine ⟨s', ?_, ?_⟩
    · rw [all, ← grouped_eq_mapM, grouped_eq_error.2]
      exact ⟨_, root, more, roots, grouped.isOk_report, report⟩
    · rw [roots, reached_append grouped.isOk_report (by rw [report]; rfl)]
      simpa using kept

end Run

/-- **Consolidation groups the packages by repository.** Let the resolver's answers be fixed in the
states that satisfy `P`, let repositories not overlap on the packages of the graph, and let there be
no pins. Then

* the manifest is the one by groups: every package is asked for by itself, those without a
  repository and those of the project's own are dropped, and the rest is grouped by repository, in
  the order in which the packages stand in the graph;
* there is an error exactly if some group's repository does not tell what is wanted, and it is the
  error of the first such group;
* each repository up to there is asked for its report once, in that order, and no repository is
  asked for anything else. -/
theorem manifest_eq_grouped {P : σ → Prop} {graph : Graph} {s : σ} (unpinned : c.pins = [])
    (fixed : c.Fixed a P) (coherent : a.Coherent graph) (start : P s) :
    (c.manifest graph s).1 = c.grouped a graph ∧
      (∀ e, (c.manifest graph s).1 = .error e ↔
        ∃ before root after, c.rootsOf a graph.records = before ++ root :: after ∧
          (∀ root ∈ before, (c.report a root).isOk = true) ∧ c.report a root = .error e) ∧
      (c.noted.manifest graph ⟨s, []⟩).1 = c.grouped a graph ∧
      (c.noted.manifest graph ⟨s, []⟩).2.queries =
        (c.reached a (c.rootsOf a graph.records)).flatMap (c.queriesOf a) := by
  obtain ⟨s', plain, -⟩ := Follows.placeAll_eq fixed coherent start
  obtain ⟨j, noted, -, queries⟩ :=
    fixed.follows_noted.placeAll_eq coherent (s := ⟨s, []⟩) ⟨start, rfl⟩
  have noted : c.noted.placeAll [] graph.records ⟨s, []⟩ = (c.grouped a graph, j) := noted
  have still : c.noted.pins = [] := unpinned
  have same : (c.manifest graph s).1 = c.grouped a graph := by
    unfold manifest
    rw [plain, unpinned]
    cases c.grouped a graph <;> rfl
  refine ⟨same, fun e => ?_, ?_, ?_⟩
  · rw [same, grouped_eq_error]
  · unfold manifest
    rw [noted, still]
    cases c.grouped a graph <;> rfl
  · unfold manifest
    rw [noted]
    cases c.grouped a graph <;> exact queries

/-- Two libraries, of which one has two packages, a repository that holds the project and another
package, and a package that is nowhere to be found. -/
def sampleAnswers : Answers where
  root path :=
    if path = "e.org/lib" ∨ path = "e.org/lib/sub" then some "e.org/lib"
    else if path = "e.org/home/app" ∨ path = "e.org/home/util" then some "e.org/home"
    else if path = "e.org/a/tool" then some "e.org/a"
    else none
  revision root := .ok (root ++ "@1")
  branch _ := .error .foreign
  remote root := .ok ("https://" ++ root)

/-- A project that would rather have branches on record. -/
def sample : Consolidation Unit where
  workspace := ⟨⟨"/w"⟩⟩
  project := ⟨"/w/src/e.org/home/app"⟩
  branches := true
  pins := []
  resolver := sampleAnswers.resolver

/-- Packages of all of them. -/
def sampleGraph : Graph :=
  .ofList (["e.org/a/tool", "e.org/gone", "e.org/home/util", "e.org/lib", "e.org/lib/sub"].map
    ({ importPath := · }))

/-- Two repositories are recorded. Each of them is asked once for its branch, its revision and its
remote, although one holds two packages. -/
theorem manifest_sample :
    sample.pins = [] ∧ sample.Fixed sampleAnswers (fun _ => True) ∧
      sampleAnswers.Coherent sampleGraph ∧
      sample.rootsOf sampleAnswers sampleGraph.records = ["e.org/a", "e.org/lib"] ∧
      (sample.manifest sampleGraph ()).1 = sample.grouped sampleAnswers sampleGraph ∧
      (sample.noted.manifest sampleGraph ⟨(), []⟩).2.queries =
        [.branch "e.org/a", .revision "e.org/a", .remote "e.org/a",
          .branch "e.org/lib", .revision "e.org/lib", .remote "e.org/lib"] := by
  have fixed : sample.Fixed sampleAnswers fun _ => True := fixed_of_resolver rfl
  have coherent : sampleAnswers.Coherent sampleGraph := by
    constructor
    · show ∀ dep ∈ sampleGraph.records, ∀ root ∈ sampleAnswers.root dep.importPath, _
      decide +kernel
    · show ∀ dep ∈ sampleGraph.records, ∀ root ∈ sampleAnswers.root dep.importPath, _
      decide +kernel
  have roots : sample.rootsOf sampleAnswers sampleGraph.records = ["e.org/a", "e.org/lib"] := by
    decide +kernel
  obtain ⟨same, -, -, queries⟩ := manifest_eq_grouped (s := ()) rfl fixed coherent trivial
  refine ⟨rfl, fixed, coherent, roots, same, ?_⟩
  rw [queries, roots]
  decide +kernel

end Consolidation

end Depot
