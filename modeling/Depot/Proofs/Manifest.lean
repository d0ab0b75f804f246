import Depot.Manifest

/-!
# Owners in a manifest

An import path may be contained in the roots of several repositories of a manifest. The first one
counts as its owner, and is the only one that an update of the owner changes.
-/

namespace Depot.Manifest

variable {m m' : Manifest} {path : String} {change : Repository → Repository}

/-- **There is nothing to update** exactly if no repository contains the path. -/
theorem updateOwner?_eq_none :
    updateOwner? path change m = none ↔ ∀ r ∈ m, r.contains path = false := by
  induction m with
  | nil => simp [updateOwner?]
  | cons r rs ih =>
    unfold updateOwner?
    split
    · next h => simp [h]
    · next h => simp [h, ih]

/-- **An update changes the owner**: the first repository that contains the path. -/
theorem updateOwner?_eq_some (h : updateOwner? path change m = some m') :
    ∃ before owner after, m = before ++ owner :: after ∧
      (∀ r ∈ before, r.contains path = false) ∧ owner.contains path = true ∧
      m' = before ++ change owner :: after := by
  induction m generalizing m' with
  | nil => cases h
  | cons r rs ih =>
    unfold updateOwner? at h
    split at h
    · next own =>
      cases h
      exact ⟨[], r, rs, rfl, by simp, own, rfl⟩
    · next other =>
      obtain ⟨rs', found, rfl⟩ := Option.map_eq_some_iff.1 h
      obtain ⟨before, owner, after, rfl, none, own, rfl⟩ := ih found
      exact ⟨r :: before, owner, after, rfl, by simpa [other] using none, own, rfl⟩

/-- What a change leaves alone in every repository is left alone in the manifest. -/
theorem map_updateOwner? {α : Type} {f : Repository → α} (keeps : ∀ r, f (change r) = f r)
    (h : updateOwner? path change m = some m') : m'.map f = m.map f := by
  obtain ⟨before, owner, after, rfl, -, -, rfl⟩ := updateOwner?_eq_some h
  simp [keeps]

/-- What holds of every repository still does with one of them changed, if it holds of that one. -/
theorem forall_mem_change {P : Repository → Prop} {before after : Manifest} {r r' : Repository}
    (all : ∀ x ∈ before ++ r :: after, P x) (here : P r → P r') :
    ∀ x ∈ before ++ r' :: after, P x := by
  simp only [List.forall_mem_append, List.forall_mem_cons] at all ⊢
  exact ⟨all.1, here all.2.1, all.2.2⟩

/-! ## What is held -/

/-- **All packages that are held**, repository after repository. -/
def packages (m : Manifest) : List Dependency := m.flatMap (·.packages.records)

@[simp] theorem packages_nil : packages [] = [] := rfl

theorem packages_singleton (r : Repository) : packages [r] = r.packages.records :=
  List.flatMap_singleton _ r

theorem packages_append (m m' : Manifest) : packages (m ++ m') = packages m ++ packages m' :=
  List.flatMap_append

theorem mem_packages {dep : Dependency} :
    dep ∈ packages m ↔ ∃ r ∈ m, dep ∈ r.packages.records :=
  List.mem_flatMap

/-- A repository that holds one more package adds it to what is held. -/
theorem packages_hold_perm {before after : Manifest} {owner : Repository} {dep : Dependency}
    (records : (owner.hold dep).packages.records = owner.packages.records ++ [dep]) :
    (packages (before ++ owner.hold dep :: after)).Perm
      (packages (before ++ owner :: after) ++ [dep]) := by
  unfold packages
  rw [List.flatMap_append, List.flatMap_append, List.flatMap_cons, List.flatMap_cons, records,
    List.append_assoc, List.append_assoc, List.append_assoc]
  exact (List.perm_append_comm.append_left _).append_left _

end Depot.Manifest
