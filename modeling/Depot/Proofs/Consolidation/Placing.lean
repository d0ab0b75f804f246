import Depot.Consolidation
import Depot.Proofs.Graph
import Depot.Proofs.Manifest

/-!
# Placing packages

`Placing` says all that placing one package can come to: the package joins the repository that owns
its import path, it is left out, a repository is put on record for it, or its repository does not
tell what is wanted. `placeAll_run` carries an invariant of the packages placed so far through the
whole run, up to the end or to the package that fails.
-/

namespace Depot.Consolidation

variable {σ : Type} (c : Consolidation σ)

/-- The repository of a package, as the resolver tells it under the pin that governs the package. -/
def repositoryOf (path : String) : Attempt σ (Checkout σ) :=
  c.resolver.resolve path (Pin.firstFor c.pins path)

/-- **What placing a package comes to.** Only the owner of its import path spares the package a
question to the resolver. -/
inductive Placing (m : Manifest) (dep : Dependency) (s : σ) :
    Except ResolveError Manifest × σ → Prop
  /-- It joins the owner of its import path. -/
  | held {before : Manifest} {owner : Repository} {after : Manifest}
      (split : m = before ++ owner :: after)
      (owned : owner.contains dep.importPath = true)
      (first : ∀ r ∈ before, r.contains dep.importPath = false) :
      Placing m dep s (.ok (before ++ owner.hold dep :: after), s)
  /-- It has no repository. -/
  | unresolved {cause : Fault} {s' : σ}
      (free : ∀ r ∈ m, r.contains dep.importPath = false)
      (asked : c.repositoryOf dep.importPath s = (.error cause, s')) :
      Placing m dep s (.ok m, s')
  /-- Its repository is the project's own or encloses the project. -/
  | own {checkout : Checkout σ} {s' : σ}
      (free : ∀ r ∈ m, r.contains dep.importPath = false)
      (asked : c.repositoryOf dep.importPath s = (.ok checkout, s'))
      (encloses : c.enclosesProject checkout.root = true) :
      Placing m dep s (.ok m, s')
  /-- Its repository goes on record. -/
  | opened {checkout : Checkout σ} {repository : Repository} {s' s'' : σ}
      (free : ∀ r ∈ m, r.contains dep.importPath = false)
      (asked : c.repositoryOf dep.importPath s = (.ok checkout, s'))
      (apart : c.enclosesProject checkout.root = false)
      (told : c.open? checkout dep s' = (.ok repository, s'')) :
      Placing m dep s (.ok (m ++ [repository]), s'')
  /-- Its repository does not tell its revision or its remote. -/
  | failed {checkout : Checkout σ} {e : ResolveError} {s' s'' : σ}
      (free : ∀ r ∈ m, r.contains dep.importPath = false)
      (asked : c.repositoryOf dep.importPath s = (.ok checkout, s'))
      (apart : c.enclosesProject checkout.root = false)
      (untold : c.open? checkout dep s' = (.error e, s'')) :
      Placing m dep s (.error e, s'')

/-- **One of these is what placing a package comes to.** -/
theorem placing_place (m : Manifest) (dep : Dependency) (s : σ) :
    c.Placing m dep s (c.place m dep s) := by
  unfold place
  split
  · next m' updated =>
    obtain ⟨before, owner, after, split, first, owned, rfl⟩ :=
      Manifest.updateOwner?_eq_some updated
    exact .held split owned first
  · next absent =>
    have free := Manifest.updateOwner?_eq_none.1 absent
    split
    · next asked => exact .unresolved free asked
    · next checkout s' asked =>
      split
      · next encloses => exact .own free asked encloses
      · next apart =>
        have apart : c.enclosesProject checkout.root = false := by simpa using apart
        split
        · next untold => exact .failed free asked apart untold
        · next told => exact .opened free asked apart told

/-- **The record of a repository found for one package** has its root and holds the package. -/
theorem open?_eq_ok {checkout : Checkout σ} {dep : Dependency} {repository : Repository} {s s' : σ}
    (h : c.open? checkout dep s = (.ok repository, s')) :
    repository.root = checkout.root ∧ repository.packages = Graph.empty.add dep := by
  unfold open? at h
  split at h
  · cases h
  · split at h
    · cases h
    · cases h
      exact ⟨rfl, rfl⟩

section Run

variable {c} {motive : List Dependency → Manifest → σ → Prop}

/-- **What a run keeps.** If the placing of each package in its turn keeps an invariant of the
packages placed so far, then either all are placed and the invariant holds of all, or it holds up to
a package that ends the run. -/
theorem placeAll_run (deps : List Dependency) {s : σ} (init : motive [] [] s)
    (step : ∀ done dep rest m s m' s', deps = done ++ dep :: rest → motive done m s →
      c.place m dep s = (.ok m', s') → motive (done ++ [dep]) m' s') :
    (∃ m s', c.placeAll [] deps s = (.ok m, s') ∧ motive deps m s') ∨
      ∃ done dep rest m t e s', deps = done ++ dep :: rest ∧ motive done m t ∧
        c.place m dep t = (.error e, s') ∧ c.placeAll [] deps s = (.error e, s') := by
  -- the induction is on the packages still to be placed
  suffices run : ∀ rest done m s, deps = done ++ rest → motive done m s →
      (∃ m' s', c.placeAll m rest s = (.ok m', s') ∧ motive deps m' s') ∨
        ∃ done' dep rest' m' t e s', deps = done' ++ dep :: rest' ∧ motive done' m' t ∧
          c.place m' dep t = (.error e, s') ∧ c.placeAll m rest s = (.error e, s') from
    run deps [] [] s rfl init
  intro rest
  induction rest with
  | nil =>
    rintro done m s rfl h
    exact .inl ⟨m, s, rfl, by simpa using h⟩
  | cons dep rest ih =>
    intro done m s split h
    unfold placeAll
    rcases placed : c.place m dep s with ⟨e | m', s'⟩
    · exact .inr ⟨done, dep, rest, m, s, e, s', split, h, placed, rfl⟩
    · exact ih (done ++ [dep]) m' s' (by simp [split])
        (step done dep rest m s m' s' split h placed)

end Run

/-- **The pins change only what they declare**: anything else that is read off the repositories of a
manifest is the same after they are put on record. -/
theorem map_declareAll {α : Type} {f : Repository → α} (keeps : ∀ pin r, f (declare pin r) = f r)
    (pins : List Pin) (m : Manifest) : (declareAll pins m).map f = m.map f := by
  unfold declareAll
  induction pins generalizing m with
  | nil => rfl
  | cons pin pins ih =>
    rw [List.foldl_cons, ih]
    rcases updated : m.updateOwner? pin.root (declare pin) with _ | m'
    · rfl
    · exact Manifest.map_updateOwner? (keeps pin) updated

theorem map_root_declareAll (pins : List Pin) (m : Manifest) :
    (declareAll pins m).map (·.root) = m.map (·.root) :=
  map_declareAll (fun _ _ => rfl) pins m

end Depot.Consolidation
