import Depot.Proofs.Consolidation.Answers
import Mathlib.Data.List.Basic

/-!
# Nested repositories

A repository may lie within another. A package that an outer repository on record contains is not
asked for, so the inner repository goes on record only if one of its packages comes before all that
lead to the outer one. `recorded_or_hidden` says that nothing else can keep a repository off the
record, and `inner_not_recorded` that this does.
-/

namespace Depot.Consolidation

variable {σ : Type} {c : Consolidation σ} {a : Answers} {graph : Graph} {s : σ}

/-- **A repository hidden from a package**: the package is in another repository too, one that goes
on record for a package before it. -/
def HiddenBehind (c : Consolidation σ) (a : Answers) (deps : List Dependency) (dep : Dependency)
    (outer : String) : Prop :=
  ImportPath.contains outer dep.importPath = true ∧
    ∃ earlier ∈ deps, compare earlier.importPath dep.importPath = .lt ∧
      c.rootOf a earlier = some outer

/-- **What is on record of the packages placed so far**, given the roots of the manifest. -/
structure Recorded (c : Consolidation σ) (a : Answers) (done : List Dependency)
    (roots : List String) : Prop where
  /-- Each repository is there on account of a package. -/
  found : ∀ root ∈ roots, ∃ dep ∈ done, c.rootOf a dep = some root
  /-- Each package's repository is there, or it is hidden behind one that is. -/
  recorded : ∀ dep ∈ done, ∀ root, c.rootOf a dep = some root →
    root ∈ roots ∨ ∃ outer ∈ roots, c.HiddenBehind a done dep outer

section Step

variable {done : List Dependency} {dep : Dependency} {roots : List String}

theorem HiddenBehind.append {deps more : List Dependency} {outer : String}
    (hidden : c.HiddenBehind a deps dep outer) : c.HiddenBehind a (deps ++ more) dep outer := by
  obtain ⟨inside, earlier, listed, before, found⟩ := hidden
  exact ⟨inside, earlier, List.mem_append_left more listed, before, found⟩

/-- A package that brings no repository has none to bring, or it is hidden. -/
theorem Recorded.same (recorded : c.Recorded a done roots)
    (here : ∀ root, c.rootOf a dep = some root →
      ∃ outer ∈ roots, c.HiddenBehind a (done ++ [dep]) dep outer) :
    c.Recorded a (done ++ [dep]) roots where
  found := by
    intro root listed
    obtain ⟨d, hd, own⟩ := recorded.found root listed
    exact ⟨d, List.mem_append_left _ hd, own⟩
  recorded := by
    intro d hd root own
    rcases List.mem_append.1 hd with hd | hd
    · rcases recorded.recorded d hd root own with listed | ⟨outer, listed, hidden⟩
      · exact .inl listed
      · exact .inr ⟨outer, listed, hidden.append⟩
    · obtain rfl := List.mem_singleton.1 hd
      exact .inr (here root own)

theorem Recorded.more {root : String} (recorded : c.Recorded a done roots)
    (own : c.rootOf a dep = some root) : c.Recorded a (done ++ [dep]) (roots ++ [root]) where
  found := by
    intro root' listed
    rcases List.mem_append.1 listed with listed | listed
    · obtain ⟨d, hd, found⟩ := recorded.found root' listed
      exact ⟨d, List.mem_append_left _ hd, found⟩
    · obtain rfl := List.mem_singleton.1 listed
      exact ⟨dep, by simp, own⟩
  recorded := by
    intro d hd root' own'
    rcases List.mem_append.1 hd with hd | hd
    · rcases recorded.recorded d hd root' own' with listed | ⟨outer, listed, hidden⟩
      · exact .inl (List.mem_append_left _ listed)
      · exact .inr ⟨outer, List.mem_append_left _ listed, hidden.append⟩
    · obtain rfl := List.mem_singleton.1 hd
      cases own.symm.trans own'
      exact .inl (by simp)

/-- **Placing a package keeps the account.** -/
theorem Recorded.place {P : σ → Prop} {m m' : Manifest} {s' : σ} (fixed : c.Fixed a P)
    (recorded : c.Recorded a done (m.map (·.root))) (start : P s)
    (last : ∀ d ∈ done, compare d.importPath dep.importPath = .lt)
    (placed : c.place m dep s = (.ok m', s')) :
    c.Recorded a (done ++ [dep]) (m'.map (·.root)) ∧ P s' := by
  have placing := c.placing_place m dep s
  rw [placed] at placing
  cases placing with
  | @held before owner after joins owned =>
    subst joins
    have listed : owner.root ∈ (before ++ owner :: after).map (·.root) := by simp
    -- the owner came with a package placed before, which hides this one's repository
    obtain ⟨d, hd, found⟩ := recorded.found owner.root listed
    have kept : c.Recorded a (done ++ [dep]) _ := recorded.same fun _ _ =>
      ⟨owner.root, listed, owned, d, List.mem_append_left _ hd, last d hd, found⟩
    exact ⟨by simpa [Repository.hold] using kept, start⟩
  | unresolved free asked =>
    obtain ⟨none, kept⟩ := Follows.of_unresolved fixed [] start asked
    exact ⟨recorded.same (by simp [none]), kept⟩
  | own free asked encloses =>
    obtain ⟨none, kept⟩ := Follows.of_own fixed [] start asked encloses
    exact ⟨recorded.same (by simp [none]), kept⟩
  | @opened checkout repository _ _ free asked apart told =>
    obtain ⟨own, kept, tells⟩ := Follows.of_apart fixed [] start asked apart
    have rooted : repository.root = checkout.root := (c.open?_eq_ok told).1
    obtain ⟨_, opening, kept⟩ := tells.open?_eq (c := c) [] kept dep
    obtain ⟨-, rfl⟩ := Prod.mk.inj (opening.symm.trans told)
    rw [List.map_append, List.map_singleton, rooted]
    exact ⟨recorded.more own, kept⟩

end Step

/-- **A repository that a package has is on record, unless it is hidden.** Let the resolver's
answers be fixed in the states that satisfy `P`. If a manifest is drawn up, then for each package
with a repository to record, either that repository is in the manifest, or the package is in another
repository of the manifest too, one that a package before it has. -/
theorem recorded_or_hidden {P : σ → Prop} {m : Manifest} (fixed : c.Fixed a P) (start : P s)
    (drawn : (c.manifest graph s).1 = .ok m) :
    ∀ dep ∈ graph.records, ∀ root, c.rootOf a dep = some root →
      root ∈ m.map (·.root) ∨
        ∃ outer ∈ m.map (·.root), c.HiddenBehind a graph.records dep outer := by
  have run := placeAll_run (c := c) graph.records (s := s)
    (motive := fun done m s => c.Recorded a done (m.map (·.root)) ∧ P s)
    ⟨⟨by simp, by simp⟩, start⟩
    fun done dep rest m s m' s' split h placed => by
      have sorted := graph.sorted
      rw [split] at sorted
      exact h.1.place fixed h.2
        (fun d hd => (List.pairwise_append.1 sorted).2.2 d hd dep List.mem_cons_self) placed
  unfold manifest at drawn
  rcases run with ⟨m', s', all, recorded, -⟩ | ⟨_, _, _, _, _, _, _, _, _, _, all⟩
  · rw [all] at drawn
    cases drawn
    rw [map_root_declareAll]
    exact recorded.recorded
  · rw [all] at drawn
    cases drawn

/-- A repository with a package, and one within it with another package. -/
def nestedAnswers : Answers where
  root path :=
    if path = "e.org/outer/a" then some "e.org/outer"
    else if path = "e.org/outer/in/b" then some "e.org/outer/in"
    else none
  revision root := .ok (root ++ "@1")
  branch _ := .error .foreign
  remote root := .ok ("https://" ++ root)

/-- A project apart from both. -/
def nested : Consolidation Unit where
  workspace := ⟨⟨"/w"⟩⟩
  project := ⟨"/w/src/e.org/proj"⟩
  branches := false
  pins := []
  resolver := nestedAnswers.resolver

/-- The two packages. -/
def nestedGraph : Graph :=
  .ofList [{ importPath := "e.org/outer/a" }, { importPath := "e.org/outer/in/b" }]

/-- The manifest of the two packages, which has one repository. -/
def nestedManifest : Manifest :=
  [.found "e.org/outer" ("e.org/outer@1", "https://e.org/outer") nestedGraph]

/-- The inner repository is hidden behind the outer one. -/
theorem recorded_or_hidden_nested :
    nested.Fixed nestedAnswers (fun _ => True) ∧
      (nested.manifest nestedGraph ()).1 = .ok nestedManifest ∧
      ∀ dep ∈ nestedGraph.records, ∀ root, nested.rootOf nestedAnswers dep = some root →
        root ∈ nestedManifest.map (·.root) ∨ ∃ outer ∈ nestedManifest.map (·.root),
          nested.HiddenBehind nestedAnswers nestedGraph.records dep outer := by
  have fixed : nested.Fixed nestedAnswers fun _ => True := fixed_of_resolver rfl
  have drawn : (nested.manifest nestedGraph ()).1 = .ok nestedManifest := by decide +kernel
  exact ⟨fixed, drawn, recorded_or_hidden fixed trivial drawn⟩

/-- **An inner repository may be missing.** Each package lies in the repository it has, neither
holds the project, and a manifest is drawn up; but the inner repository is not in it. -/
theorem inner_not_recorded :
    nested.Fixed nestedAnswers (fun _ => True) ∧
      (∀ dep ∈ nestedGraph.records, ∀ root, nestedAnswers.root dep.importPath = some root →
        ImportPath.contains root dep.importPath = true) ∧
      (nested.manifest nestedGraph ()).1 = .ok nestedManifest ∧
      ∃ dep ∈ nestedGraph.records, nestedAnswers.root dep.importPath = some "e.org/outer/in" ∧
        nested.enclosesProject "e.org/outer/in" = false ∧
        ∀ r ∈ nestedManifest, r.root ≠ "e.org/outer/in" := by
  refine ⟨fixed_of_resolver rfl, ?_, by decide +kernel, { importPath := "e.org/outer/in/b" },
    by decide +kernel, by decide +kernel, by decide +kernel, by decide +kernel⟩
  show ∀ dep ∈ nestedGraph.records, ∀ root ∈ nestedAnswers.root dep.importPath, _
  decide +kernel

end Depot.Consolidation
