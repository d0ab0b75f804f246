import Depot.Proofs.Cloning
import Depot.Proofs.Disk.Making

/-!
# What is left when fetching fails

A work copy that is missing is fetched by a clone, and then the revision is checked out that was
asked for. A clone that fails leaves nothing at the place of the work copy, though directories above
it may have been made. A revision that is unknown is only noticed after the clone, and the clone
stays (`createBy_leaves` for any `Git.Cloner`, `create_leaves` for the clones of this library): with
what the remote has checked out, at the place where the package is looked for. So the next time the
package is not missing any more, and nothing fetches it or asks for the revision
(`taken_for_fetched`).

What is left where the revision is known, but cannot be written to the work tree, is not said here.
-/

namespace Depot

namespace Git

/-- **What a revision means in a repository**, by itself or, if it means nothing, as a branch of the
remote. -/
def Repository.meaning (r : Repository) (d : Disk) (revision : String) :
    Except Trouble (Option String × Oid × Object) :=
  (Revision.lookup r d revision).tryCatch fun _ =>
    Revision.lookup r d (Remote.origin ++ "/" ++ revision)

/-- **Whether a repository knows a revision**: it means an object that stands for a commit. -/
def Repository.Knows (r : Repository) (d : Disk) (revision : String) : Prop :=
  ∃ reference oid o commit,
    r.meaning d revision = .ok (reference, oid, o) ∧ r.commitOf d oid o = .ok commit

namespace WorkCopy

variable {w left : World} {r : Repository} {revision : String} {c : WorkCopy} {cause : Fault}
  {k : Cloner}

/-- **What checking a revision out comes to**: one that is known is written to the work tree, one
that is not changes nothing. -/
theorem checkOut_cases (r : Repository) (revision : String) (w : World) :
    (r.Knows w.disk revision ∧ ∃ (done : Except Trouble Unit) (disk : Disk),
      checkOut r revision w = (done.mapError fun _ => .foreign, { w with disk })) ∨
      (¬ r.Knows w.disk revision ∧ ∃ cause, checkOut r revision w = (.error cause, w)) := by
  unfold checkOut Repository.Knows
  dsimp only
  rw [← Repository.meaning]
  rcases r.meaning w.disk revision with _ | ⟨reference, oid, o⟩
  · exact .inr ⟨by simp, _, rfl⟩
  · rcases stands : r.commitOf w.disk oid o with _ | commit
    · refine .inr ⟨?_, .foreign, by simp only [stands]⟩
      rintro ⟨_, _, _, commit, ⟨⟩, known⟩
      cases stands.symm.trans known
    · refine .inl ⟨⟨reference, oid, o, commit, rfl, stands⟩, ?_⟩
      rcases written : r.checkOut commit reference w.disk with ⟨done, disk⟩
      exact ⟨done, disk, by simp only [stands, written]⟩

/-- **Where checking a revision out fails**, nothing is changed for one that is unknown, and for one
that is known the reason is worded elsewhere. -/
theorem checkOut_eq_error (failed : checkOut r revision w = (.error cause, left)) :
    (r.Knows w.disk revision → cause = .foreign) ∧ (¬ r.Knows w.disk revision → left = w) := by
  obtain ⟨known, done, disk, same⟩ | ⟨unknown, cause', same⟩ := checkOut_cases r revision w
  · refine ⟨fun _ => ?_, absurd known⟩
    rcases done with _ | _
    · exact (Except.error.inj (Prod.mk.inj (same.symm.trans failed)).1).symm
    · cases same.symm.trans failed
  · exact ⟨fun known => absurd known unknown, fun _ =>
      (Prod.mk.inj (same.symm.trans failed)).2.symm⟩

/-- **The directory above is made**, and the work copy is as missing as before. -/
theorem exists?_readied (tree : w.disk.Tree) (directory : w.disk.get? w.cwd = some .directory)
    (down : Component.up ∉ c.path.components)
    (missing : w.disk.exists? w.cwd c.path = false) :
    (c.readied w).2.disk.exists? (c.readied w).2.cwd c.path = false := by
  unfold readied
  split
  · next above => exact Disk.exists?_ensureDirectory tree directory above down missing
  · exact missing

/-- **What fetching comes to**, whatever clones: it fails before there is a clone, and the work copy
is as missing as before, or there is a clone, in which the revision is checked out. -/
theorem createBy_cases (tree : w.disk.Tree) (directory : w.disk.get? w.cwd = some .directory)
    (down : Component.up ∉ c.path.components)
    (missing : w.disk.exists? w.cwd c.path = false) :
    (∃ cause left, (∀ revision, c.createBy k revision w = (.error cause, left)) ∧
      left.disk.exists? left.cwd c.path = false) ∨
      ∃ cloned r, c.createBy k none w = (.ok (), cloned) ∧
        k.find? cloned.disk cloned.cwd c.path = some r ∧
        ∀ revision, c.createBy k (some revision) w = checkOut r revision cloned := by
  have still := exists?_readied tree directory down missing
  simp only [createBy]
  rcases c.remote with _ | remote
  · exact .inl ⟨_, w, fun _ => rfl, missing⟩
  · rcases readied : c.readied w with ⟨cause | ⟨⟩, ready⟩ <;> rw [readied] at still
    · exact .inl ⟨cause, ready, fun _ => rfl, still⟩
    · dsimp only
      rcases made : k.make? ready.disk ready.cwd remote c.path with _ | ⟨r, disk⟩
      · exact .inl ⟨_, ready, fun _ => rfl, still⟩
      · exact .inr ⟨_, r, rfl, k.found made, fun _ => rfl⟩

/-- **What is left when fetching fails**, whatever clones. -/
theorem createBy_leaves (tree : w.disk.Tree) (directory : w.disk.get? w.cwd = some .directory)
    (down : Component.up ∉ c.path.components)
    (missing : w.disk.exists? w.cwd c.path = false)
    (failed : c.createBy k (some revision) w = (.error cause, left)) :
    (c.createBy k none w = (.error cause, left) ∧ left.disk.exists? left.cwd c.path = false) ∨
      ∃ cloned r, c.createBy k none w = (.ok (), cloned) ∧
        cloned.disk.exists? cloned.cwd c.path = true ∧
        k.find? cloned.disk cloned.cwd c.path = some r ∧
        (¬ r.Knows cloned.disk revision → left = cloned) ∧
        (r.Knows cloned.disk revision → cause = .foreign) := by
  rcases createBy_cases (k := k) tree directory down missing with
    ⟨cause', left', fails, still⟩ | ⟨cloned, r, cloning, found, checking⟩
  · obtain ⟨same, rfl⟩ := Prod.mk.inj ((fails _).symm.trans failed)
    exact .inl ⟨Except.error.inj same ▸ fails none, still⟩
  · obtain ⟨known, unknown⟩ := checkOut_eq_error ((checking revision).symm.trans failed)
    exact .inr ⟨cloned, r, cloning, k.there found, found, unknown, known⟩

/-- **What is left when fetching fails.** Let everything on disk be in a directory, the current
directory included, and fetch a work copy that is missing, at a path that does not go up, with a
revision to be checked out. If that fails, then

* either the clone fails, without a revision as with one, and the work copy is still missing;
* or the clone succeeds, and the work copy is a repository at its place. If it does not know the
  revision, this is what is left: the clone, as it is made without a revision. If it does, the
  reason is worded elsewhere. -/
theorem create_leaves (tree : w.disk.Tree) (directory : w.disk.get? w.cwd = some .directory)
    (down : Component.up ∉ c.path.components)
    (missing : w.disk.exists? w.cwd c.path = false)
    (failed : c.create (some revision) w = (.error cause, left)) :
    (c.create none w = (.error cause, left) ∧ left.disk.exists? left.cwd c.path = false) ∨
      ∃ cloned r, c.create none w = (.ok (), cloned) ∧
        cloned.disk.exists? cloned.cwd c.path = true ∧ c.repository cloned = .ok r ∧
        (¬ r.Knows cloned.disk revision → left = cloned) ∧
        (r.Knows cloned.disk revision → cause = .foreign) := by
  rw [create_eq] at failed ⊢
  refine (createBy_leaves tree directory down missing failed).imp_right ?_
  rintro ⟨cloned, r, cloning, there, found, unknown, known⟩
  have opens : Repository.find? cloned.disk cloned.cwd c.path = some r := found
  exact ⟨cloned, r, cloning, there, by rw [repository, opens], unknown, known⟩

/-- The work copy to be made of it. -/
def remoteCopy : WorkCopy where
  root := "e.org/lib"
  path := ⟨"/w/src/e.org/lib"⟩
  remote := some "file:///lib"

/-- Fetching fails for a revision that the repository lacks, but the work copy is there. -/
theorem remoteCopy_stays (copy : c = remoteCopy) (world : w = remoteWorld) :
    let told := c.create (some "v9") w
    told.1 = .error (.ofMessage "unknown revision `v9`") ∧ told.2.cwd = [] ∧
      told.2.disk.exists? [] c.path = true := by
  -- as long as the work copy and the world are variables, nothing is computed while unfolding
  delta create Clone.make? Repository.find? Repository.candidate Repository.read?
  simp -zeta only [Repository.isReadable_eq]
  subst copy world
  decide +kernel

/-- What is left is the clone. -/
theorem create_leaves_clone :
    ∃ left, remoteWorld.disk.Tree ∧ remoteWorld.disk.exists? [] remoteCopy.path = false ∧
      remoteCopy.create (some "v9") remoteWorld =
        (.error (.ofMessage "unknown revision `v9`"), left) ∧
      left.disk.exists? [] remoteCopy.path = true ∧
      remoteCopy.create none remoteWorld = (.ok (), left) := by
  have tree : remoteWorld.disk.Tree := Disk.tree_of_entries (by decide +kernel)
  have down : Component.up ∉ remoteCopy.path.components := by decide +kernel
  have missing : remoteWorld.disk.exists? [] remoteCopy.path = false := by decide +kernel
  obtain ⟨told, still, there⟩ := remoteCopy_stays rfl rfl
  rcases fetched : remoteCopy.create (some "v9") remoteWorld with ⟨outcome, left⟩
  simp only [fetched] at told there still
  subst told
  refine ⟨left, tree, missing, rfl, there, ?_⟩
  rcases create_leaves tree rfl down missing fetched with
    ⟨-, gone⟩ | ⟨cloned, r, cloning, -, -, unknown, known⟩
  · rw [still, there] at gone
    cases gone
  · rw [cloning, unknown fun knows => by cases known knows]

end WorkCopy

end Git

namespace Project

open Git.WorkCopy

variable {p : Project} {w : World}

/-- A project that wants a revision that its remote does not have. -/
def demanding : Project :=
  { neighbor with
    configuration :=
      { pins := [{ root := "e.org/lib", revision := some "v9", source := some "file:///lib" }] } }

/-- Getting the package fails for want of the revision, and then succeeds by reading what is left.
-/
theorem demanding_settles (project : p = demanding) (world : w = remoteWorld) :
    let means := p.workCopies emptyReader 1
    let first := p.get means ["e.org/lib"] w
    let second := p.get means.chronicling ["e.org/lib"] ⟨first.2, []⟩
    first.1.toBool = false ∧ second.1.toBool = true ∧
      second.2.accounts.map Account.deed = [.read ⟨"/w/src/e.org/lib"⟩] := by
  delta workCopies resolver handle create Git.Clone.make? Git.Repository.find?
    Git.Repository.candidate Git.Repository.read?
  simp -zeta only [Git.Repository.isReadable_eq]
  subst project world
  decide +kernel

/-- **What is left is taken for fetched.** The work copy is missing, and fetching it with the
revision of its pin fails, but leaves a clone at its place. So getting the package fails; but
getting it once more succeeds, and all that is done is to read it. -/
theorem taken_for_fetched :
    let fetched := remoteCopy.create (some "v9") remoteWorld
    let means := demanding.workCopies emptyReader 1
    let first := demanding.get means ["e.org/lib"] remoteWorld
    let second := demanding.get means.chronicling ["e.org/lib"] ⟨first.2, []⟩
    remoteWorld.disk.exists? [] remoteCopy.path = false ∧
      (fetched.1 = .error (.ofMessage "unknown revision `v9`") ∧ fetched.2.cwd = [] ∧
        fetched.2.disk.exists? [] remoteCopy.path = true) ∧
      first.1.toBool = false ∧ second.1.toBool = true ∧
      second.2.accounts.map Account.deed = [.read ⟨"/w/src/e.org/lib"⟩] :=
  ⟨by decide +kernel, remoteCopy_stays rfl rfl, demanding_settles rfl rfl⟩

end Project

end Depot
