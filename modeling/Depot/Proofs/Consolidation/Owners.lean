import Depot.Proofs.Consolidation.Pins

/-!
# Owners of import paths

The owner of an import path is the first repository of a manifest that contains it, and repositories
may lie within one another. The first one is all the same the innermost one: a repository goes on
record for a package that no repository before it contains, so none of them contains its root either
(`InnermostFirst`). The roots that contain a path form a chain, and what comes first in the manifest
is the last link of it (`owner_innermost`).
-/

namespace Depot

namespace Manifest

variable {m m' : Manifest} {path : String} {S r : Repository}

/-- **The owner of a path** contains it, and no repository before the owner does. -/
theorem owner?_eq_some_iff : m.owner? path = some S ↔
    S.contains path = true ∧
      ∃ before after, m = before ++ S :: after ∧ ∀ r ∈ before, r.contains path = false := by
  simp [owner?, List.find?_eq_some_iff_append]

/-- **No repository is within one before it.** -/
def InnermostFirst (m : Manifest) : Prop :=
  m.Pairwise fun earlier later => earlier.contains later.root = false

theorem InnermostFirst.congr (h : m.InnermostFirst) (roots : m'.map (·.root) = m.map (·.root)) :
    m'.InnermostFirst := by
  have by_root (m : Manifest) : m.InnermostFirst ↔
      (m.map (·.root)).Pairwise fun a b => ImportPath.contains a b = false := by
    rw [List.pairwise_map]
    rfl
  rw [by_root] at h ⊢
  rwa [roots]

/-- **The owner is the most specific repository**: whatever else contains the path contains the
owner's root. -/
theorem InnermostFirst.contains_owner (h : m.InnermostFirst) (owned : m.owner? path = some S)
    (listed : r ∈ m) (contains : r.contains path = true) : r.contains S.root = true := by
  obtain ⟨owns, before, after, rfl, first⟩ := owner?_eq_some_iff.1 owned
  rcases List.mem_append.1 listed with earlier | here
  · rw [first r earlier] at contains
    cases contains
  · rcases List.mem_cons.1 here with rfl | later
    · exact ImportPath.contains_refl _
    · -- one of the two contains the other, and the owner is not the outer one
      refine (ImportPath.contains_or_contains contains owns).resolve_right fun outer => ?_
      have apart := List.rel_of_pairwise_cons (List.pairwise_append.1 h).2.1 later
      rw [Repository.contains, outer] at apart
      cases apart

end Manifest

namespace Consolidation

open Manifest

variable {σ : Type} {c : Consolidation σ} {m m' : Manifest} {dep : Dependency} {s s' : σ}

/-- **Placing a package keeps the innermost repositories first.** -/
theorem innermostFirst_place (holders : c.resolver.FindsHolders) (h : m.InnermostFirst)
    (placed : c.place m dep s = (.ok m', s')) : m'.InnermostFirst := by
  have placing := c.placing_place m dep s
  rw [placed] at placing
  cases placing with
  | held joins owned first =>
    subst joins
    exact h.congr (by simp [Repository.hold])
  | unresolved => exact h
  | own => exact h
  | opened free asked apart told =>
    -- a repository that contained the new root would contain the package
    refine List.pairwise_append.2 ⟨h, List.pairwise_singleton _ _, fun r hr => ?_⟩
    refine List.forall_mem_singleton.2 (Bool.eq_false_iff.2 fun outer => ?_)
    rw [(c.open?_eq_ok told).1] at outer
    have contains := ImportPath.contains_trans outer (holders _ _ _ _ _ asked)
    have absent := free r hr
    rw [Repository.contains, contains] at absent
    cases absent

/-- **The innermost repositories of a manifest come first.** -/
theorem innermostFirst_manifest {graph : Graph} (holders : c.resolver.FindsHolders)
    (drawn : c.manifest graph s = (.ok m, s')) : m.InnermostFirst := by
  have run := placeAll_run (c := c) graph.records (s := s)
    (motive := fun _ m _ => m.InnermostFirst) List.Pairwise.nil
    fun _ _ _ _ _ _ _ _ h placed => innermostFirst_place holders h placed
  unfold manifest at drawn
  rcases run with ⟨m', t, all, first⟩ | ⟨_, _, _, _, _, _, _, _, _, _, all⟩ <;>
    rw [all] at drawn <;>
    cases drawn
  exact first.congr (map_root_declareAll c.pins m')

/-- **In a tidy manifest the owner of a package is who holds it**, whatever the pins declare. -/
theorem Tidy.owner?_declareAll (tidy : Tidy m) {pins : List Pin} {S : Repository}
    (listed : S ∈ declareAll pins m) {path : String} (has : S.packages.Has path) :
    (declareAll pins m).owner? path = some S := by
  -- what makes a manifest tidy is read off the roots and packages, which the pins leave alone
  have same : (declareAll pins m).map (fun r => (r.root, r.packages)) =
      m.map fun r => (r.root, r.packages) := map_declareAll (fun _ _ => rfl) pins m
  have first : (declareAll pins m).Pairwise fun earlier later =>
      ∀ path, later.packages.Has path → earlier.contains path = false := by
    have first := (List.pairwise_map (f := fun r : Repository => (r.root, r.packages))
      (R := fun a b => ∀ path, b.2.Has path → ImportPath.contains a.1 path = false)).2 tidy.first
    rw [← same] at first
    exact List.pairwise_map.1 first
  have inside : S.contains path = true := by
    have key : (S.root, S.packages) ∈ (declareAll pins m).map fun r => (r.root, r.packages) :=
      List.mem_map_of_mem listed
    rw [same] at key
    obtain ⟨r, hr, e⟩ := List.mem_map.1 key
    obtain ⟨root, packages⟩ := Prod.mk.inj e
    rw [Repository.contains, ← root]
    exact tidy.inside r hr path (packages ▸ has)
  obtain ⟨before, after, split⟩ := List.append_of_mem listed
  rw [split] at first ⊢
  refine owner?_eq_some_iff.2 ⟨inside, before, after, rfl, fun r hr => ?_⟩
  exact (List.pairwise_append.1 first).2.2 r hr S List.mem_cons_self path has

/-- **The first match is the most specific one.** Let the resolver find for a package nothing but
what holds it, and let a manifest be drawn up, with any pins. Then

* no repository of the manifest contains the root of a later one;
* whatever contains an import path, be it that of a package or not, contains the root of the path's
  owner too;
* every package that a repository holds has that repository as its owner. -/
theorem owner_innermost {graph : Graph} (holders : c.resolver.FindsHolders)
    (drawn : c.manifest graph s = (.ok m, s')) :
    (m.Pairwise fun earlier later => ImportPath.contains earlier.root later.root = false) ∧
      (∀ path S, m.owner? path = some S → S ∈ m ∧ S.contains path = true ∧
        ∀ r ∈ m, r.contains path = true → ImportPath.contains r.root S.root = true) ∧
      ∀ S ∈ m, ∀ d ∈ S.packages.records, m.owner? d.importPath = some S := by
  have innermost := innermostFirst_manifest holders drawn
  refine ⟨innermost, fun path S owned => ⟨?_, ?_, ?_⟩, fun S listed d held => ?_⟩
  · exact List.mem_of_find?_eq_some owned
  · exact (owner?_eq_some_iff.1 owned).1
  · intro r listed contains
    exact innermost.contains_owner owned listed contains
  · obtain ⟨m', tidy, rfl⟩ := exists_tidy_of_manifest holders drawn
    exact tidy.owner?_declareAll listed (Graph.mem_importPaths.1 (List.mem_map_of_mem held))

/-- A path in the inner library is owned by it, and not by the library around it. -/
theorem owner_innermost_mixed :
    mixed.resolver.FindsHolders ∧ ∃ m, mixed.manifest mixedGraph () = (.ok m, ()) ∧
      m.map (·.root) = ["e.org/out/a", "e.org/out"] ∧
      (m.owner? "e.org/out/a/new").map (·.root) = some "e.org/out/a" ∧
      (m.Pairwise fun earlier later => ImportPath.contains earlier.root later.root = false) ∧
      (∀ path S, m.owner? path = some S → S ∈ m ∧ S.contains path = true ∧
        ∀ r ∈ m, r.contains path = true → ImportPath.contains r.root S.root = true) ∧
      ∀ S ∈ m, ∀ d ∈ S.packages.records, m.owner? d.importPath = some S := by
  have shown : (mixed.manifest mixedGraph ()).1.toOption.map
      (fun m => (m.map (·.root), (m.owner? "e.org/out/a/new").map (·.root))) =
        some (["e.org/out/a", "e.org/out"], some "e.org/out/a") := by
    decide +kernel
  rcases drawn : mixed.manifest mixedGraph () with ⟨e | m, ⟨⟩⟩ <;> rw [drawn] at shown
  · cases shown
  · obtain ⟨roots, owner⟩ := Prod.mk.inj (Option.some.inj shown)
    exact ⟨mixed_findsHolders, m, rfl, roots, owner, owner_innermost mixed_findsHolders drawn⟩

end Consolidation

end Depot
