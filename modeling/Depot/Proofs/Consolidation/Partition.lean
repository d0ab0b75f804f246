import Depot.Proofs.Consolidation.Answers
import Mathlib.Data.List.Nodup

/-!
# A manifest as a partition

A package comes into a manifest in one of two ways, as the first of its repository or because a
repository found before contains it, and stays out in one of two others, because no repository was
found for it or because the one found holds the project. Whatever the resolver answers, and however
roots lie within one another, the manifest is a partition of the packages that did not stay out
(`manifest_partition`): what is said of a repository when it goes on record stays true, because
packages join at the end and no root is found twice.

All that is needed of the resolver is that what it finds for a package contains the package. Its
answers may change from one question to the next, so a package that stays out is accounted for by
the answer that was given when its turn came.
-/

namespace Depot

/-- **A resolver that finds what holds a package**: the root of the repository contains the import
path that was asked for. -/
def RepoResolver.FindsHolders {σ : Type} (resolver : RepoResolver σ) : Prop :=
  ∀ path pin s checkout s', resolver.resolve path pin s = (.ok checkout, s') →
    ImportPath.contains checkout.root path = true

/-- Written-down answers find what holds a package if each of them does. -/
theorem Answers.findsHolders {σ : Type} {a : Answers}
    (holds : ∀ path root, a.root path = some root → ImportPath.contains root path = true) :
    (a.resolver (σ := σ)).FindsHolders := by
  intro path pin s checkout s' asked
  unfold Answers.resolver at asked
  rcases found : a.root path with _ | root <;> simp only [found] at asked <;> cases asked
  exact holds path root found

namespace Consolidation

variable {σ : Type} {c : Consolidation σ} {s : σ}

/-- **A package stays out**, asked for in a given state: it has no repository, or one that is the
project's own or encloses the project. -/
def LeavesOut (c : Consolidation σ) (dep : Dependency) (s : σ) : Prop :=
  (∃ cause s', c.repositoryOf dep.importPath s = (.error cause, s')) ∨
    ∃ checkout s', c.repositoryOf dep.importPath s = (.ok checkout, s') ∧
      c.enclosesProject checkout.root = true

/-- **A manifest that splits up packages** placed one after another from a state on. -/
structure Partition (c : Consolidation σ) (s : σ) (deps : List Dependency) (m : Manifest) :
    Prop where
  /-- No package is held twice, be it by one repository or by two. -/
  once : (m.packages.map (·.importPath)).Nodup
  /-- What is held is one of the packages, with the record that it has among them. -/
  known : ∀ dep ∈ m.packages, dep ∈ deps
  /-- Every repository holds a package. -/
  inhabited : ∀ r ∈ m, r.packages.records ≠ []
  /-- A repository contains what it holds. -/
  inside : ∀ r ∈ m, ∀ dep ∈ r.packages.records, r.contains dep.importPath = true
  /-- No two repositories have the same root. -/
  distinct : (m.map (·.root)).Nodup
  /-- No repository is the project's own or encloses it. -/
  apart : ∀ r ∈ m, c.enclosesProject r.root = false
  /-- A package that is not held stayed out when its turn came. -/
  leftOut : ∀ dep ∈ deps, dep ∉ m.packages → ∃ before after m' t, deps = before ++ dep :: after ∧
    c.placeAll [] before s = (.ok m', t) ∧ c.LeavesOut dep t

section Step

variable {done : List Dependency} {dep : Dependency} {m m' : Manifest} {t t' : σ}

theorem placeAll_concat (run : c.placeAll m done s = (.ok m', t)) :
    c.placeAll m (done ++ [dep]) s = c.place m' dep t := by
  induction done generalizing m s with
  | nil =>
    obtain ⟨same, rfl⟩ := Prod.mk.inj run
    obtain rfl := Except.ok.inj same
    rw [List.nil_append, placeAll]
    rcases c.place m dep s with ⟨e | _, _⟩ <;> rfl
  | cons d done ih =>
    rw [placeAll] at run
    rw [List.cons_append, placeAll]
    rcases placed : c.place m d s with ⟨e | m₁, t₁⟩ <;> rw [placed] at run
    · cases run
    · exact ih run

theorem Partition.leftOut_concat (part : c.Partition s done m) {d : Dependency} (hd : d ∈ done)
    (out : d ∉ m.packages) : ∃ before after m' t, done ++ [dep] = before ++ d :: after ∧
      c.placeAll [] before s = (.ok m', t) ∧ c.LeavesOut d t := by
  obtain ⟨before, after, m', t, split, run, left⟩ := part.leftOut d hd out
  exact ⟨before, after ++ [dep], m', t, by simp [split], run, left⟩

/-- A package that stays out leaves the manifest a partition. -/
theorem Partition.leave (part : c.Partition s done m) (run : c.placeAll [] done s = (.ok m, t))
    (left : c.LeavesOut dep t) : c.Partition s (done ++ [dep]) m where
  once := part.once
  known := fun d hd => List.mem_append_left _ (part.known d hd)
  inhabited := part.inhabited
  inside := part.inside
  distinct := part.distinct
  apart := part.apart
  leftOut := by
    intro d hd out
    rcases List.mem_append.1 hd with hd | hd
    · exact part.leftOut_concat hd out
    · obtain rfl := List.mem_singleton.1 hd
      exact ⟨done, [], m, t, rfl, run, left⟩

/-- **A package that comes in** makes no other one be held twice, unknown or forgotten. -/
theorem Partition.come (part : c.Partition s done m) (more : m'.packages.Perm (m.packages ++ [dep]))
    (last : ∀ d ∈ done, compare d.importPath dep.importPath = .lt) :
    (m'.packages.map (·.importPath)).Nodup ∧ (∀ d ∈ m'.packages, d ∈ done ++ [dep]) ∧
      ∀ d ∈ done ++ [dep], d ∉ m'.packages → ∃ before after m' t,
        done ++ [dep] = before ++ d :: after ∧ c.placeAll [] before s = (.ok m', t) ∧
          c.LeavesOut d t := by
  refine ⟨?_, fun d hd => ?_, fun d hd out => ?_⟩
  · rw [(more.map _).nodup_iff, List.map_append, List.map_singleton]
    refine List.nodup_append.2 ⟨part.once, List.nodup_singleton _, ?_⟩
    rintro _ held _ here rfl
    obtain ⟨d, hd, same⟩ := List.mem_map.1 held
    have before := last d (part.known d hd)
    rw [same, List.mem_singleton.1 here] at before
    simp at before
  · rcases List.mem_append.1 (more.mem_iff.1 hd) with held | here
    · exact List.mem_append_left _ (part.known d held)
    · exact List.mem_append_right _ here
  · have out : d ∉ m.packages ∧ d ∉ [dep] := by
      simpa only [more.mem_iff, List.mem_append, not_or] using out
    exact part.leftOut_concat ((List.mem_append.1 hd).resolve_right out.2) out.1

/-- **A package that joins the owner of its import path** leaves the manifest a partition. -/
theorem Partition.hold {before after : Manifest} {owner : Repository}
    (part : c.Partition s done (before ++ owner :: after))
    (last : ∀ d ∈ done, compare d.importPath dep.importPath = .lt)
    (owned : owner.contains dep.importPath = true) :
    c.Partition s (done ++ [dep]) (before ++ owner.hold dep :: after) := by
  have records : (owner.hold dep).packages.records = owner.packages.records ++ [dep] :=
    Graph.records_add_of_lt fun d hd =>
      last d (part.known d (Manifest.mem_packages.2 ⟨owner, by simp, hd⟩))
  obtain ⟨once, known, leftOut⟩ := part.come (Manifest.packages_hold_perm records) last
  -- but for the owner, which keeps its root, the repositories are the same
  refine ⟨once, known, Manifest.forall_mem_change part.inhabited fun _ => ?_,
    Manifest.forall_mem_change part.inside fun inside => ?_, ?_,
    Manifest.forall_mem_change part.apart fun apart => apart, leftOut⟩
  · rw [records]
    simp
  · rw [records]
    have joined : (owner.hold dep).contains dep.importPath = true := owned
    exact List.forall_mem_append.2 ⟨inside, by simpa using joined⟩
  · simpa [Repository.hold] using part.distinct

/-- **A package that no repository contains**, and that brings its own, leaves the manifest a
partition. -/
theorem Partition.opened {repository : Repository} (part : c.Partition s done m)
    (last : ∀ d ∈ done, compare d.importPath dep.importPath = .lt)
    (free : ∀ r ∈ m, r.contains dep.importPath = false)
    (records : repository.packages.records = [dep])
    (contains : repository.contains dep.importPath = true)
    (apart : c.enclosesProject repository.root = false) :
    c.Partition s (done ++ [dep]) (m ++ [repository]) := by
  have more : (m ++ [repository]).packages.Perm (m.packages ++ [dep]) := by
    rw [Manifest.packages_append, Manifest.packages_singleton, records]
  obtain ⟨once, known, leftOut⟩ := part.come more last
  -- a repository on record with the same root would contain the package
  have new : ∀ r ∈ m, r.root ≠ repository.root := by
    intro r hr same
    have owned : r.contains dep.importPath = true := by
      unfold Repository.contains
      rw [same]
      exact contains
    rw [free r hr] at owned
    cases owned
  have each {P : Repository → Prop} (all : ∀ r ∈ m, P r) (here : P repository) :
      ∀ r ∈ m ++ [repository], P r :=
    List.forall_mem_append.2 ⟨all, by simpa using here⟩
  refine ⟨once, known, each part.inhabited ?_, each part.inside ?_, ?_, each part.apart apart,
    leftOut⟩
  · rw [records]
    simp
  · rw [records]
    simpa using contains
  · rw [List.map_append, List.map_singleton]
    refine List.nodup_append.2 ⟨part.distinct, List.nodup_singleton _, ?_⟩
    rintro _ known _ here rfl
    obtain ⟨r, hr, same⟩ := List.mem_map.1 known
    exact new r hr (same.trans (List.mem_singleton.1 here))

/-- **Placing a package leaves the manifest a partition.** -/
theorem Partition.place (holders : c.resolver.FindsHolders) (part : c.Partition s done m)
    (run : c.placeAll [] done s = (.ok m, t))
    (last : ∀ d ∈ done, compare d.importPath dep.importPath = .lt)
    (placed : c.place m dep t = (.ok m', t')) : c.Partition s (done ++ [dep]) m' := by
  have placing := c.placing_place m dep t
  rw [placed] at placing
  cases placing with
  | held joins owned =>
    subst joins
    exact part.hold last owned
  | unresolved free asked => exact part.leave run (.inl ⟨_, _, asked⟩)
  | own free asked encloses => exact part.leave run (.inr ⟨_, _, asked, encloses⟩)
  | opened free asked apart told =>
    obtain ⟨root, packages⟩ := c.open?_eq_ok told
    refine part.opened last free ?_ ?_ ?_
    · rw [packages]
      rfl
    · unfold Repository.contains
      rw [root]
      exact holders _ _ _ _ _ asked
    · rw [root]
      exact apart

end Step

/-- A manifest with the same roots and packages is a partition too. -/
theorem Partition.congr {deps : List Dependency} {m m' : Manifest} (part : c.Partition s deps m)
    (same : m'.map (fun r => (r.root, r.packages)) = m.map fun r => (r.root, r.packages)) :
    c.Partition s deps m' := by
  have packages : m'.packages = m.packages := by
    have records (m : Manifest) : m.packages =
        (m.map fun r => (r.root, r.packages)).flatMap fun k => k.2.records := by
      rw [List.flatMap_map]
      rfl
    rw [records, records, same]
  have roots : m'.map (·.root) = m.map (·.root) := by
    simpa [Function.comp_def] using congrArg (List.map Prod.fst) same
  have each (P : String × Graph → Prop) (all : ∀ r ∈ m, P (r.root, r.packages)) :
      ∀ r ∈ m', P (r.root, r.packages) := by
    rw [← List.forall_mem_map (P := P), same, List.forall_mem_map]
    exact all
  refine ⟨?_, ?_, each (fun k => k.2.records ≠ []) part.inhabited,
    each (fun k => ∀ dep ∈ k.2.records, ImportPath.contains k.1 dep.importPath = true) part.inside,
    ?_, each (fun k => c.enclosesProject k.1 = false) part.apart, ?_⟩
  · rw [packages]
    exact part.once
  · rw [packages]
    exact part.known
  · rw [roots]
    exact part.distinct
  · rw [packages]
    exact part.leftOut

/-- **A manifest is a partition of the packages that did not stay out.** Let the resolver find for a
package nothing but what holds it. If a manifest is drawn up, then

* every package of the graph is held by at most one repository, with the record it has in the graph;
* every repository holds a package, and contains all that it holds;
* no two repositories have the same root, and none is the project's own or encloses it;
* a package that is not held either had no repository when its turn came, or one that is the
  project's own or encloses the project.

The pins make no difference to any of this. -/
theorem manifest_partition {graph : Graph} {m : Manifest} {s' : σ}
    (holders : c.resolver.FindsHolders) (drawn : c.manifest graph s = (.ok m, s')) :
    c.Partition s graph.records m := by
  have run := placeAll_run (c := c) graph.records (s := s)
    (motive := fun done m t => c.Partition s done m ∧ c.placeAll [] done s = (.ok m, t))
    ⟨⟨by simp, by simp, by simp, by simp, by simp, by simp, by simp⟩, rfl⟩
    fun done dep rest m t m' t' split h placed => by
      have sorted := graph.sorted
      rw [split] at sorted
      have last : ∀ d ∈ done, compare d.importPath dep.importPath = .lt := fun d hd =>
        (List.pairwise_append.1 sorted).2.2 d hd dep List.mem_cons_self
      exact ⟨h.1.place holders h.2 last placed, (placeAll_concat h.2).trans placed⟩
  unfold manifest at drawn
  rcases run with ⟨m', t, all, part, -⟩ | ⟨_, _, _, _, _, _, _, _, _, _, all⟩
  · rw [all] at drawn
    cases drawn
    exact part.congr (map_declareAll (fun _ _ => rfl) c.pins m')
  · rw [all] at drawn
    cases drawn

/-- A library within another one, which has a second one that hides behind it, a repository that
holds the project, and a package that is nowhere to be found. -/
def mixedAnswers : Answers where
  root path :=
    if path = "e.org/out/a/x" ∨ path = "e.org/out/a/y" then some "e.org/out/a"
    else if path = "e.org/out/b" then some "e.org/out"
    else if path = "e.org/out/c/z" then some "e.org/out/c"
    else if path = "e.org/home/util" then some "e.org/home"
    else none
  revision root := .ok (root ++ "@1")
  branch _ := .error .foreign
  remote root := .ok ("https://" ++ root)

/-- A project with pins at and above these repositories. -/
def mixed : Consolidation Unit where
  workspace := ⟨⟨"/w"⟩⟩
  project := ⟨"/w/src/e.org/home/app"⟩
  branches := false
  pins := [{ root := "e.org/out", revision := some "v2" }, { root := "e.org" }]
  resolver := mixedAnswers.resolver

/-- Packages of all of them. -/
def mixedGraph : Graph :=
  .ofList (["e.org/gone", "e.org/home/util", "e.org/out/a/x", "e.org/out/a/y", "e.org/out/b",
    "e.org/out/c/z"].map ({ importPath := · }))

theorem mixed_findsHolders : mixed.resolver.FindsHolders := by
  refine Answers.findsHolders fun path root found => ?_
  unfold mixedAnswers at found
  dsimp only at found
  split at found
  · next h => rcases h with rfl | rfl <;> cases found <;> decide +kernel
  · split at found
    · next h => subst h; cases found; decide +kernel
    · split at found
      · next h => subst h; cases found; decide +kernel
      · split at found
        · next h => subst h; cases found; decide +kernel
        · cases found

/-- Four of the packages are in the two libraries, and the two others are left out. -/
theorem manifest_partition_mixed :
    mixed.resolver.FindsHolders ∧ ∃ m, mixed.manifest mixedGraph () = (.ok m, ()) ∧
      m.map (fun r => (r.root, r.packages.importPaths)) =
        [("e.org/out/a", ["e.org/out/a/x", "e.org/out/a/y"]),
          ("e.org/out", ["e.org/out/b", "e.org/out/c/z"])] ∧
      mixed.Partition () mixedGraph.records m := by
  have held : (mixed.manifest mixedGraph ()).1.toOption.map
      (·.map fun r => (r.root, r.packages.importPaths)) =
        some [("e.org/out/a", ["e.org/out/a/x", "e.org/out/a/y"]),
          ("e.org/out", ["e.org/out/b", "e.org/out/c/z"])] := by
    decide +kernel
  rcases drawn : mixed.manifest mixedGraph () with ⟨e | m, ⟨⟩⟩ <;> rw [drawn] at held
  · cases held
  · exact ⟨mixed_findsHolders, m, rfl, Option.some.inj held,
      manifest_partition mixed_findsHolders drawn⟩

end Consolidation

end Depot
