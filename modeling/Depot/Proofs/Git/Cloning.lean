import Depot.Git.WorkCopy
import Depot.Proofs.Disk
import Mathlib.Data.List.Basic

/-!
# Cloning

What is relied on of cloning is little: a clone needs a directory that is missing or empty, and one
that succeeds is a repository at its place. `Cloner` says this. Whatever clones so is as good as the
clones of this library, which are an instance (`Clone.cloner`) and only reach remotes on this
machine.

So where there is a checkout, cloning fails. On the way at most some directories are made that are
missing above it: whatever is on disk stays as it is (`createBy_of_isCheckout`).

The resolver may well lead there. For a package that is missing it does not look for a repository on
disk, but takes the one that a pin or a well-known host says (`holding_of_missing`), and this one
may be checked out already, without the package.
-/

namespace Depot

namespace Disk

variable {d : Disk} {l : Location} {name : String}

theorem children_ne_nil (held : (d.get? (l ++ [name])).isSome = true) :
    (d.children l).isEmpty = false := by
  obtain ⟨e, held⟩ := Option.isSome_iff_exists.1 held
  unfold get? at held
  rw [if_neg (by simp)] at held
  obtain ⟨before, after, entries, -⟩ := List.lookup_eq_some_iff.1 held
  have child : (name, e) ∈ d.children l := by
    unfold children
    rw [List.mem_mergeSort, List.mem_filterMap]
    have below : l.isPrefixOf? (l ++ [name]) = some [name] :=
      List.isPrefixOf?_eq_some_iff_append_eq.2 rfl
    exact ⟨(l ++ [name], e), by simp [entries], by simp only [below]⟩
  exact List.isEmpty_eq_false_iff.2 (List.ne_nil_of_mem child)

end Disk

namespace Git

/-- Whether settings can be read: those of the first version can, and this one is told by its text,
because how numbers are read does not compute. -/
theorem Repository.isReadable_eq (s : Settings) :
    isReadable s = (s.text? "core.repositoryformatversion").all fun value =>
      Settings.textOf value = "0" || (Settings.textOf value).toNat?.any (· ≤ 1) := by
  unfold isReadable
  rcases s.text? "core.repositoryformatversion" with _ | value
  · rfl
  · have first : "0".toNat? = some 0 := by
      simp [String.toNat?, String.Slice.toNat?, String.Slice.isNat]
    dsimp only [Option.all_some]
    by_cases zero : Settings.textOf value = "0"
    · rw [zero, first]
      rfl
    · rw [decide_eq_false zero, Bool.false_or]
      cases (Settings.textOf value).toNat? <;> rfl

/-! ## What is relied on -/

/-- **What finds and clones repositories**, and what is relied on of it. -/
structure Cloner where
  /-- The repository at a path. -/
  find? : Disk → Location → Path → Option Repository
  /-- Clone the repository at an address to a path. Yields the clone and the changed disk. -/
  make? : Disk → Location → String → Path → Option (Repository × Disk)
  /-- What is said where cloning fails, where this is known. -/
  refusal? : Disk → Location → String → Path → Option String
  /-- A repository is found only where a path leads somewhere. -/
  there {d : Disk} {cwd : Location} {p : Path} {r : Repository} :
    find? d cwd p = some r → d.exists? cwd p = true
  /-- There is no clone where there is no room for it. -/
  room {d : Disk} {cwd l : Location} {url : String} {p : Path} :
    d.resolve cwd p = .ok (l, .directory) → (d.children l).isEmpty = false →
      make? d cwd url p = none
  /-- A clone is a repository at the place where it was made. -/
  found {d d' : Disk} {cwd : Location} {url : String} {p : Path} {r : Repository} :
    make? d cwd url p = some (r, d') → find? d' cwd p = some r

/-- A repository is found at a path only if the path leads somewhere. -/
theorem Repository.exists?_of_find? {d : Disk} {cwd : Location} {p : Path} {r : Repository}
    (found : Repository.find? d cwd p = some r) : d.exists? cwd p = true := by
  unfold Disk.exists?
  unfold Repository.find? at found
  rcases leads : d.resolve cwd p with _ | _ <;> simp only [leads] at found
  · cases found
  · rfl

namespace Clone

variable {d d' : Disk} {cwd l : Location} {url : String} {p : Path} {r : Repository}

theorem make?_of_full (leads : d.resolve cwd p = .ok (l, .directory))
    (full : (d.children l).isEmpty = false) : make? d cwd url p = none := by
  have none : directory? d cwd p = none := by
    unfold directory?
    split
    · rfl
    · simp only [leads, full, Bool.false_eq_true, if_false]
  unfold make?
  split
  · rfl
  · rw [none]
    rfl

theorem find?_of_make? (made : make? d cwd url p = some (r, d')) :
    Repository.find? d' cwd p = some r := by
  unfold make? at made
  split at made
  · cases made
  · obtain ⟨⟨top, d₁⟩, -, made⟩ := Option.bind_eq_some_iff.1 made
    obtain ⟨source, -, made⟩ := Option.bind_eq_some_iff.1 made
    obtain ⟨d₂, -, made⟩ := Option.bind_eq_some_iff.1 made
    obtain ⟨r', found, same⟩ := Option.bind_eq_some_iff.1 made
    obtain ⟨rfl, rfl⟩ := Prod.mk.inj (Option.some.inj same)
    exact found

/-- **The clones of this library.** -/
def cloner : Cloner where
  find? := Repository.find?
  make? := make?
  refusal? := refusal?
  there := Repository.exists?_of_find?
  room := make?_of_full
  found := find?_of_make?

end Clone

namespace WorkCopy

variable {w : World} {workspace : Workspace} {k : Cloner}

/-! ## Making work copies -/

/-- What comes before the clone: the directory above is made. -/
def readied (c : WorkCopy) (w : World) : Except Fault Unit × World :=
  match c.path.parent? with
  | some above => w.onDisk fun d cwd => d.ensureDirectory cwd above
  | none => (.ok (), w)

/-- **Make a work copy** by a clone of any kind. Then comes the revision. -/
def createBy (k : Cloner) (c : WorkCopy) (revision : Option String) : Attempt World Unit := fun w =>
  match c.remote with
  | none => (.error (.ofMessage ("no remote source known for " ++ c.root)), w)
  | some remote =>
    let (ready, w) := c.readied w
    match ready with
    | .error cause => (.error cause, w)
    | .ok () =>
      match k.make? w.disk w.cwd remote c.path with
      | none =>
        let cause := Fault.beginning (k.refusal? w.disk w.cwd remote c.path)
        (.error (cause.within ("failed to clone " ++ remote)), w)
      | some (r, disk) =>
        match revision with
        | none => (.ok (), { w with disk })
        | some revision => checkOut r revision { w with disk }

/-- A work copy that is made by a clone of any kind, as a handle. -/
def handleBy (k : Cloner) (c : WorkCopy) : Checkout World :=
  { c.handle with create := c.createBy k }

/-- Finding work copies that are made by clones of any kind. -/
def resolverBy (k : Cloner) (workspace : Workspace) : RepoResolver World where
  resolve importPath pin w := ((holding workspace importPath pin w).map (handleBy k), w)

theorem create_eq : create = createBy Clone.cloner := rfl

theorem resolver_eq : resolver = resolverBy Clone.cloner := by
  funext workspace
  have handle_eq : handle = handleBy Clone.cloner := by
    funext c
    rw [handleBy, ← create_eq]
    rfl
  rw [resolverBy, ← handle_eq]
  rfl

/-! ## Where there is a checkout -/

/-- **Whether there is a checkout in a directory**: an entry named `.git`. -/
def isCheckout (w : World) (dir : Path) : Bool :=
  match w.disk.resolve w.cwd dir with
  | .ok (l, .directory) => (w.disk.get? (l ++ [".git"])).isSome
  | _ => false

/-- A checkout is in a directory, which is not empty. -/
theorem isCheckout_iff {dir : Path} :
    isCheckout w dir = true ↔ ∃ l, w.disk.resolve w.cwd dir = .ok (l, .directory) ∧
      (w.disk.get? (l ++ [".git"])).isSome = true := by
  unfold isCheckout
  split
  · next l found => simp [found]
  · next other => simpa using fun l found => absurd found (other l)

/-- A checkout stays one where whatever is on disk stays. -/
theorem isCheckout_of_extends {w' : World} {dir : Path} (disk : w'.disk.Extends w.disk)
    (cwd : w'.cwd = w.cwd) (h : isCheckout w dir = true) : isCheckout w' dir = true := by
  obtain ⟨l, found, held⟩ := isCheckout_iff.1 h
  obtain ⟨e, held⟩ := Option.isSome_iff_exists.1 held
  exact isCheckout_iff.2 ⟨l, cwd ▸ disk.resolve found, by rw [disk _ _ held]; rfl⟩

theorem not_isCheckout {dir : Path} (none : ∀ e ∈ w.disk.entries, e.1.getLast? ≠ some ".git") :
    ¬ isCheckout w dir = true := by
  intro there
  obtain ⟨l, -, held⟩ := isCheckout_iff.1 there
  obtain ⟨e, held⟩ := Option.isSome_iff_exists.1 held
  rw [Disk.get?, if_neg (by simp)] at held
  obtain ⟨before, after, entries, -⟩ := List.lookup_eq_some_iff.1 held
  exact none (l ++ [".git"], e) (by simp [entries]) List.getLast?_concat

theorem make?_of_isCheckout {dir : Path} (url : String) (h : isCheckout w dir = true) :
    k.make? w.disk w.cwd url dir = none := by
  obtain ⟨l, leads, held⟩ := isCheckout_iff.1 h
  exact k.room leads (Disk.children_ne_nil held)

/-- **The directory above is made**, and whatever is on disk stays as it is. -/
theorem extends_readied (c : WorkCopy) (w : World) :
    ∃ disk, (c.readied w).2 = { w with disk } ∧ disk.Extends w.disk := by
  unfold readied
  cases c.path.parent? with
  | none => exact ⟨w.disk, rfl, .refl _⟩
  | some above => exact ⟨_, rfl, Disk.extends_ensureDirectory w.disk w.cwd above⟩

/-- **Where there is a checkout, cloning fails**, and whatever is on disk stays as it is. -/
theorem createBy_of_isCheckout (c : WorkCopy) (revision : Option String)
    (h : isCheckout w c.path = true) :
    ∃ cause disk, c.createBy k revision w = (.error cause, { w with disk }) ∧
      disk.Extends w.disk := by
  unfold createBy
  cases c.remote with
  | none => exact ⟨_, w.disk, rfl, .refl _⟩
  | some remote =>
    -- what comes before the clone only makes directories, so the checkout is still there
    obtain ⟨disk, same, more⟩ := c.extends_readied w
    rcases readied : c.readied w with ⟨cause | ⟨⟩, ready⟩ <;> rw [readied] at same <;>
      obtain rfl : ready = { w with disk } := same
    · exact ⟨cause, disk, rfl, more⟩
    · have still : isCheckout { w with disk } c.path = true := isCheckout_of_extends more rfl h
      have full : k.make? disk w.cwd remote c.path = none :=
        make?_of_isCheckout (w := { w with disk }) remote still
      simp only [full]
      exact ⟨_, disk, rfl, more⟩

theorem exists?_of_missing {dir : Path} (missing : World.files.kind dir w = .error .notFound) :
    w.disk.exists? w.cwd dir = false := by
  unfold World.files at missing
  unfold Disk.exists?
  rcases found : w.disk.resolve w.cwd dir with _ | ⟨l, _ | _ | _⟩ <;> simp only [found] at missing
  · rfl
  all_goals cases missing

/-- **For a package that is missing**, the work copy is the one that a pin or a well-known host
says, in its own place in the workspace, whatever is there. -/
theorem holding_of_missing {importPath : String} {pin : Option Pin} {c : WorkCopy}
    (missing : w.disk.exists? w.cwd (workspace.packageSource importPath) = false)
    (h : holding workspace importPath pin w = .ok c) :
    c.path = workspace.packageSource c.root := by
  unfold holding at h
  dsimp only at h
  rw [missing, if_neg (by decide)] at h
  split at h
  · cases h
  · split at h
    · cases h
    · cases h
      rfl

/-- A world with a workspace and, next to it, a repository without a commit. -/
def remoteWorld : World where
  disk := ⟨[(["w"], .directory), (["w", "src"], .directory), (["w", "src", "p"], .directory),
    (["lib"], .directory), (["lib", "HEAD"], .file "ref: refs/heads/main\n".toUTF8 false),
    (["lib", "objects"], .directory), (["lib", "refs"], .directory)]⟩

end WorkCopy

end Git

end Depot
