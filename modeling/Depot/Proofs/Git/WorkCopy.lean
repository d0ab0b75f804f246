import Depot.Git.WorkCopy
import Depot.Proofs.Disk
import Mathlib.Data.List.TakeWhile

/-!
# Work copies that are in order

A work tree is in order if its repository opens, has a commit checked out and knows where it was
fetched from (`Sound`). The work copy that holds a package on disk is a work tree there, so it is in
order if all work trees are (`holding_sound`). The work copy of a package that is missing need not
be there at all.
-/

namespace Depot.Git.WorkCopy

variable {w w' : World} {workspace : Workspace} {dir : Path}

/-- **A work tree in order**: its repository opens, with a commit checked out and a remote that has
an address. -/
def Sound (w : World) (dir : Path) : Prop :=
  ∃ r, Repository.find? w.disk w.cwd dir = some r ∧
    (∃ commit, r.headCommit w.disk = .ok commit) ∧
    ∃ m url, r.settings.remote? Remote.origin = some m ∧ Octets.text? m.url = some url

/-- **Every work tree below the source directory is in order.** -/
def Orderly (workspace : Workspace) (w : World) : Prop :=
  ∀ dir : Path, (dir.below? workspace.srcDir).isSome = true → dir.same workspace.srcDir = false →
    w.disk.exists? w.cwd (dir.join ".git") = true → Sound w dir

/-- Where there are no work trees, all are in order. -/
theorem orderly_of_none (linkless : w.disk.Linkless)
    (none : ∀ l, (w.disk.get? l).isSome = true → l.getLast? ≠ some ".git") :
    Orderly workspace w := by
  intro dir _ _ held
  have plain : Component.Plain ".git" := ⟨by decide, by decide, by decide, by decide⟩
  rw [Disk.exists?_join_eq_false dir linkless plain none] at held
  cases held

/-- **A work copy in order tells its revision.** -/
theorem revision_of_sound (c : WorkCopy) (sound : Sound w c.path) :
    ∃ revision, c.revision w = (.ok revision, w) := by
  obtain ⟨r, found, ⟨commit, head⟩, -⟩ := sound
  refine ⟨commit.oid.digits, ?_⟩
  unfold revision repository
  rw [found]
  simp only [bind, Except.bind, head]
  rfl

theorem source_of_sound (c : WorkCopy) (sound : Sound w c.path) :
    ∃ url, c.source w = (.ok url, w) := by
  obtain ⟨r, found, -, m, url, origin, text⟩ := sound
  refine ⟨url, ?_⟩
  unfold source repository originOf
  rw [found]
  simp only [bind, Except.bind, origin, text]
  rfl

/-- The repository above a package is a work tree below the source directory. -/
theorem enclosing?_eq_some {importPath : String} {c : WorkCopy}
    (h : enclosing? workspace importPath w = some c) :
    (c.path.below? workspace.srcDir).isSome = true ∧ c.path.same workspace.srcDir = false ∧
      w.disk.exists? w.cwd (c.path.join ".git") = true := by
  unfold enclosing? at h
  dsimp only at h
  split at h
  · cases h
  · next dir found =>
    split at h
    · cases h
      have inside := List.mem_takeWhile_imp (List.mem_of_find?_eq_some found)
      rw [Bool.and_eq_true, Bool.not_eq_true'] at inside
      have held := List.find?_some found
      exact ⟨inside.1, inside.2, held⟩
    · cases h

/-- **The work copy that holds a package on disk is in order**, if all work trees are. -/
theorem holding_sound {importPath : String} {pin : Option Pin} {c : WorkCopy}
    (orderly : Orderly workspace w)
    (there : w.disk.exists? w.cwd (workspace.packageSource importPath) = true)
    (h : holding workspace importPath pin w = .ok c) : Sound w c.path := by
  unfold holding at h
  dsimp only at h
  rw [if_pos there] at h
  rcases found : enclosing? workspace importPath w with _ | outer
  · rw [found] at h
    cases h
  · rw [found] at h
    cases h
    obtain ⟨inside, apart, held⟩ := enclosing?_eq_some found
    exact orderly outer.path inside apart held

/-! ## Worlds with the same disk -/

section SameDisk

variable (disk : w'.disk = w.disk) (cwd : w'.cwd = w.cwd)
include disk cwd

theorem Sound.congr : Sound w' dir ↔ Sound w dir := by
  unfold Sound
  rw [disk, cwd]

theorem holding_congr (importPath : String) (pin : Option Pin) :
    holding workspace importPath pin w' = holding workspace importPath pin w := by
  unfold holding enclosing?
  rw [disk, cwd]

theorem Orderly.congr (orderly : Orderly workspace w) : Orderly workspace w' := by
  intro dir inside apart held
  rw [disk, cwd] at held
  exact (Sound.congr disk cwd).2 (orderly dir inside apart held)

end SameDisk

end Depot.Git.WorkCopy
