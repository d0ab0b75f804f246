import Depot.Proofs.Consolidation.Pins

/-!
# Conflicts

The pins are put on record one after another, and each of them rewrites what is said to be wrong
with the repository it goes to. What is said in the end is about the record in the end: revisions
are only added, so a conflict that one pin sees is seen by all that follow, and as long as none has
been seen nothing has been said (`error_declareEach_eq`).

So a record depends on which pins there are, and not on how often or in which order
(`declareAll_congr`), and what it says can be told from the record alone (`conflicts_flagged`).
-/

namespace Depot

attribute [ext] Repository

namespace Consolidation

variable {σ : Type} {c : Consolidation σ}

section Declare

variable {pins pins' : List Pin} {r : Repository} {m : Manifest}

theorem one_lt_size_declareEach (many : 1 < r.revisions.size) :
    1 < (declareEach pins r).revisions.size :=
  StringSet.one_lt_size_mono (fun _ h => mem_revisions_declareEach.2 (.inr h)) many

/-- While there is no conflict in the end, nothing is said on the way. -/
theorem error_declareEach_of_one (one : ¬ 1 < (declareEach pins r).revisions.size) :
    (declareEach pins r).error = r.error := by
  induction pins generalizing r with
  | nil => rfl
  | cons pin pins ih =>
    have now : ¬ 1 < (declare pin r).revisions.size := mt one_lt_size_declareEach one
    rw [declareEach_cons, ih one]
    exact if_neg now

/-- **What is said in the end** is about the revisions in the end. -/
theorem error_declareEach_eq : (declareEach pins r).error =
    if pins ≠ [] ∧ 1 < (declareEach pins r).revisions.size then
      some ("conflicting revisions " ++ (declareEach pins r).revisions.render)
    else r.error := by
  split
  · next conflict => exact error_declareEach conflict.1 conflict.2
  · next none =>
    rcases not_and_or.1 none with empty | one
    · rw [not_ne_iff.1 empty]
      rfl
    · exact error_declareEach_of_one one

/-- **A record depends on which pins there are**, not on how often or in which order. -/
theorem declareEach_congr (same : ∀ pin, pin ∈ pins ↔ pin ∈ pins') :
    declareEach pins r = declareEach pins' r := by
  have keep {α : Type} {f : Repository → α} (keeps : ∀ pin r, f (declare pin r) = f r) :
      f (declareEach pins r) = f (declareEach pins' r) :=
    (eq_of_declareEach keeps).trans (eq_of_declareEach keeps).symm
  have revisions : (declareEach pins r).revisions = (declareEach pins' r).revisions := by
    ext value
    simp only [mem_revisions_declareEach, same]
  have remotes : (declareEach pins r).remotes = (declareEach pins' r).remotes := by
    ext value
    simp only [mem_remotes_declareEach, same]
  have some : pins ≠ [] ↔ pins' ≠ [] := by
    simp only [ne_eq, List.eq_nil_iff_forall_not_mem, same]
  have error : (declareEach pins r).error = (declareEach pins' r).error := by
    rw [error_declareEach_eq, error_declareEach_eq, revisions]
    simp only [some]
  exact Repository.ext (keep fun _ _ => rfl) revisions (keep fun _ _ => rfl) remotes
    (keep fun _ _ => rfl) (keep fun _ _ => rfl) error

/-- **So does a manifest.** -/
theorem declareAll_congr (same : ∀ pin, pin ∈ pins ↔ pin ∈ pins') :
    declareAll pins m = declareAll pins' m := by
  induction m generalizing pins pins' with
  | nil => simp
  | cons r rs ih =>
    have own (pin : Pin) : pin ∈ pins.filter (r.contains ·.root) ↔
        pin ∈ pins'.filter (r.contains ·.root) := by simp [same]
    have others (pin : Pin) : pin ∈ pins.filter (!r.contains ·.root) ↔
        pin ∈ pins'.filter (!r.contains ·.root) := by simp [same]
    rw [declareAll_cons, declareAll_cons, declareEach_congr own, ih others]

/-- **The record of a repository as it is found, with pins added**, says that revisions conflict
exactly if it has more than one. -/
theorem error_declareEach_of_found (found : r.Found) : (declareEach pins r).error =
    if 1 < (declareEach pins r).revisions.size then
      some ("conflicting revisions " ++ (declareEach pins r).revisions.render)
    else none := by
  rw [error_declareEach_eq, found.error]
  by_cases some : pins = []
  · have one : ¬ 1 < r.revisions.size := fun many => by
      obtain ⟨a, ha, b, hb, ne⟩ := StringSet.exists_ne_of_one_lt_size many
      rw [found.revisions] at ha hb
      exact ne (ha.trans hb.symm)
    subst some
    exact (if_neg fun conflict => conflict.1 rfl).trans (if_neg one).symm
  · simp only [ne_eq, some, not_false_eq_true, true_and]

/-- Whether a repository before contains a path does not depend on the pins on record. -/
theorem forall_contains_declareAll {path : String} :
    (∀ earlier ∈ declareAll pins m, earlier.contains path = false) ↔
      ∀ earlier ∈ m, earlier.contains path = false := by
  have by_root (m : Manifest) : (∀ earlier ∈ m, earlier.contains path = false) ↔
      ∀ root ∈ m.map (·.root), ImportPath.contains root path = false := by
    rw [List.forall_mem_map]
    rfl
  rw [by_root, map_root_declareAll, ← by_root]

/-- **What the own pins of a repository tell** is what the pins do whose root it is the first to
contain. -/
theorem exists_mem_ownPins {before : Manifest} {value : String} (told : Pin → Option String) :
    (∃ pin ∈ ownPins pins before r, told pin = some value) ↔
      ∃ pin ∈ pins, r.contains pin.root = true ∧
        (∀ earlier ∈ before, earlier.contains pin.root = false) ∧ told pin = some value := by
  simp [ownPins, and_assoc]

end Declare

/-- **Repositories are as they are found** until the pins are put on record. -/
theorem found_of_placeAll {deps : List Dependency} {found : Manifest} {s s' : σ}
    (run : c.placeAll [] deps s = (.ok found, s')) : ∀ r ∈ found, r.Found := by
  have kept := placeAll_run (c := c) deps (s := s) (motive := fun _ m _ => ∀ r ∈ m, r.Found)
    (by simp) fun _ dep _ m t m' t' _ all placed => by
      have placing := c.placing_place m dep t
      rw [placed] at placing
      cases placing with
      | held joins =>
        subst joins
        exact Manifest.forall_mem_change all fun h => ⟨h.revisions, h.remotes, h.error⟩
      | unresolved => exact all
      | own => exact all
      | opened free asked apart told =>
        exact List.forall_mem_append.2 ⟨all, by simpa using found_of_open? told⟩
  rcases kept with ⟨_, _, all, kept⟩ | ⟨_, _, _, _, _, _, _, _, _, _, all⟩ <;> rw [run] at all <;>
    cases all
  exact kept

/-- **Conflicts are flagged exactly.** Let a manifest be drawn up, from any graph, with any resolver
and any pins. Of each of its repositories

* the revisions on record are the one that is checked out and those of the pins whose root the
  repository is the first to contain,
* and so are the remotes;
* a conflict is on record if and only if the revisions are more than one, and it lists them.

The manifest is that of the repositories found, with the pins put on record, and would be the same
with any other pins among which are all of these and no others. -/
theorem conflicts_flagged {graph : Graph} {m : Manifest} {s s' : σ}
    (drawn : c.manifest graph s = (.ok m, s')) :
    (∀ before S after, m = before ++ S :: after →
      (∀ revision, revision ∈ S.revisions ↔ revision = S.onDiskRevision ∨
        ∃ pin ∈ c.pins, S.contains pin.root = true ∧
          (∀ earlier ∈ before, earlier.contains pin.root = false) ∧ pin.revision = some revision) ∧
      (∀ remote, remote ∈ S.remotes ↔ remote = S.onDiskRemote ∨
        ∃ pin ∈ c.pins, S.contains pin.root = true ∧
          (∀ earlier ∈ before, earlier.contains pin.root = false) ∧ pin.source = some remote) ∧
      S.error = if 1 < S.revisions.size then
          some ("conflicting revisions " ++ S.revisions.render)
        else none) ∧
    ∃ found, c.placeAll [] graph.records s = (.ok found, s') ∧ m = declareAll c.pins found ∧
      ∀ pins, (∀ pin, pin ∈ pins ↔ pin ∈ c.pins) → declareAll pins found = m := by
  obtain ⟨found, run, rfl⟩ : ∃ found, c.placeAll [] graph.records s = (.ok found, s') ∧
      m = declareAll c.pins found := by
    unfold manifest at drawn
    rcases run : c.placeAll [] graph.records s with ⟨e | found, t⟩ <;> rw [run] at drawn <;>
      cases drawn
    exact ⟨found, rfl, rfl⟩
  refine ⟨fun before S after split => ?_, found, run, rfl, fun pins same => declareAll_congr same⟩
  obtain ⟨before', r, after', rfl, rfl, rfl⟩ := exists_of_declareAll split
  have asFound : r.Found := found_of_placeAll run r (by simp)
  simp only [forall_contains_declareAll]
  generalize own_eq : ownPins c.pins before' r = own
  have same : (declareEach own r).contains = r.contains := by
    funext path
    rw [Repository.contains, eq_of_declareEach (f := (·.root)) fun _ _ => rfl, Repository.contains]
  have onDisk : (declareEach own r).onDiskRevision = r.onDiskRevision :=
    eq_of_declareEach fun _ _ => rfl
  have remote : (declareEach own r).onDiskRemote = r.onDiskRemote :=
    eq_of_declareEach fun _ _ => rfl
  rw [same, onDisk, remote]
  refine ⟨fun value => ?_, fun value => ?_, error_declareEach_of_found asFound⟩
  · rw [mem_revisions_declareEach, ← own_eq, exists_mem_ownPins, asFound.revisions, or_comm]
  · rw [mem_remotes_declareEach, ← own_eq, exists_mem_ownPins, asFound.remotes, or_comm]

/-- The packages of two libraries, one within the other, with pins that go to the one and the other
in turn, and some to neither. -/
def interleaved : Consolidation Unit where
  workspace := mixed.workspace
  project := mixed.project
  branches := false
  pins := [
    { root := "e.org/out/a", revision := some "v2" },
    { root := "e.org/out", source := some "/mirror" },
    { root := "e.org/out/a/x", revision := some "v1" },
    { root := "e.org", revision := some "v3" },
    { root := "e.org/out/new", source := some "https://e.org/out" }]
  resolver := mixed.resolver

/-- The inner library, at three revisions. -/
def interleavedInner : Repository where
  root := "e.org/out/a"
  revisions := .ofList ["e.org/out/a@1", "v1", "v2"]
  onDiskRevision := "e.org/out/a@1"
  remotes := .ofList ["https://e.org/out/a"]
  onDiskRemote := "https://e.org/out/a"
  packages := .ofList [{ importPath := "e.org/out/a/x" }, { importPath := "e.org/out/a/y" }]
  error := some "conflicting revisions [e.org/out/a@1, v1, v2]"

/-- The library around it, at one revision. -/
def interleavedOuter : Repository where
  root := "e.org/out"
  revisions := .ofList ["e.org/out@1"]
  onDiskRevision := "e.org/out@1"
  remotes := .ofList ["https://e.org/out", "/mirror"]
  onDiskRemote := "https://e.org/out"
  packages := .ofList [{ importPath := "e.org/out/b" }, { importPath := "e.org/out/c/z" }]

/-- Pins for two repositories, one within the other, each end up at the right one in whatever order,
and only the inner one has a conflict. -/
theorem conflicts_flagged_interleaved :
    interleaved.manifest mixedGraph () = (.ok [interleavedInner, interleavedOuter], ()) ∧
    interleavedInner.error =
      (if 1 < interleavedInner.revisions.size then
        some ("conflicting revisions " ++ interleavedInner.revisions.render)
      else none) ∧
    (∃ pin ∈ interleaved.pins, interleavedOuter.contains pin.root = true ∧
      (∀ earlier ∈ [interleavedInner], earlier.contains pin.root = false) ∧
      pin.source = some "/mirror") ∧
    ∃ found, declareAll (interleaved.pins.reverse ++ interleaved.pins) found =
      [interleavedInner, interleavedOuter] := by
  have drawn : interleaved.manifest mixedGraph () =
      (.ok [interleavedInner, interleavedOuter], ()) := by
    decide +kernel
  obtain ⟨each, found, -, -, others⟩ := conflicts_flagged drawn
  obtain ⟨-, -, flagged⟩ := each [] interleavedInner [interleavedOuter] rfl
  obtain ⟨-, remotes, -⟩ := each [interleavedInner] interleavedOuter [] rfl
  refine ⟨drawn, flagged, ?_, found, others _ (by simp)⟩
  exact ((remotes "/mirror").1 (by simp [interleavedOuter])).resolve_left (by decide +kernel)

end Consolidation

end Depot
