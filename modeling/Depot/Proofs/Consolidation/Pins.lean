import Depot.Proofs.Consolidation.Partition
import Depot.Proofs.ImportPath

/-!
# Pins on record

A package is fetched under the first pin that governs it. What a manifest says of the pin's revision
depends on the repository that owns the pin's root, which need not hold the package.

A repository holds a package if it is the first one of the manifest that contains it (`Tidy`). A pin
goes to the first repository that contains its root, and containment is transitive, so if the
repository of a package contains the root of the package's pin, then it is where the pin goes. A pin
that governs the package has a root above the repository otherwise, and is not put on record there
(`pin_on_record`).
-/

namespace Depot

namespace StringSet

variable {s : StringSet} {a b : String}

theorem one_lt_size (ha : a ∈ s) (hb : b ∈ s) (ne : a ≠ b) : 1 < s.size := by
  rcases members : s.toList with _ | ⟨x, _ | ⟨y, rest⟩⟩
  · rw [← mem_toList, members] at ha
    cases ha
  · rw [← mem_toList, members, List.mem_singleton] at ha hb
    exact absurd (ha.trans hb.symm) ne
  · rw [size, members]
    simp

theorem exists_ne_of_one_lt_size (many : 1 < s.size) : ∃ a ∈ s, ∃ b ∈ s, a ≠ b := by
  rcases members : s.toList with _ | ⟨x, _ | ⟨y, rest⟩⟩
  · simp [size, members] at many
  · simp [size, members] at many
  · have lt : compare x y = .lt := by
      have sorted := s.sorted
      rw [members] at sorted
      exact List.rel_of_pairwise_cons sorted List.mem_cons_self
    have mem {a : String} (h : a ∈ x :: y :: rest) : a ∈ s := by rwa [← mem_toList, members]
    refine ⟨x, mem (by simp), y, mem (by simp), ?_⟩
    rintro rfl
    simp at lt

/-- What has more than one member still does with more members. -/
theorem one_lt_size_mono {t : StringSet} (within : ∀ a ∈ s, a ∈ t) (many : 1 < s.size) :
    1 < t.size := by
  obtain ⟨a, ha, b, hb, ne⟩ := exists_ne_of_one_lt_size many
  exact one_lt_size (within a ha) (within b hb) ne

end StringSet

/-- **A record as it is found**: it names what is checked out and nothing else. -/
structure Repository.Found (r : Repository) : Prop where
  /-- The revision on record is the one that is checked out. -/
  revisions : ∀ value, value ∈ r.revisions ↔ value = r.onDiskRevision
  /-- The remote on record is the one that the checkout came from. -/
  remotes : ∀ value, value ∈ r.remotes ↔ value = r.onDiskRemote
  /-- Nothing is wrong. -/
  error : r.error = none

namespace Consolidation

variable {σ : Type} {c : Consolidation σ}

/-! ## Who holds a package -/

/-- **A manifest in which every package is where it is looked for.** -/
structure Tidy (m : Manifest) : Prop where
  /-- No repository before the one that holds a package contains the package. -/
  first : m.Pairwise fun earlier later =>
    ∀ path, later.packages.Has path → earlier.contains path = false
  /-- A repository contains what it holds. -/
  inside : ∀ r ∈ m, ∀ path, r.packages.Has path → r.contains path = true
  /-- What is checked out is on record. -/
  told : ∀ r ∈ m, r.onDiskRevision ∈ r.revisions

section Step

variable {m m' : Manifest} {dep : Dependency} {repository : Repository}

/-- A package that joins the first repository that contains it. -/
theorem Tidy.hold {before after : Manifest} {owner : Repository}
    (tidy : Tidy (before ++ owner :: after)) (owned : owner.contains dep.importPath = true)
    (first : ∀ r ∈ before, r.contains dep.importPath = false) :
    Tidy (before ++ owner.hold dep :: after) := by
  have held {path : String} : (owner.hold dep).packages.Has path ↔
      owner.packages.Has path ∨ dep.importPath = path := by
    simp [Repository.hold]
  obtain ⟨front, back, across⟩ := List.pairwise_append.1 tidy.first
  obtain ⟨here, back⟩ := List.pairwise_cons.1 back
  refine ⟨List.pairwise_append.2 ⟨front, List.pairwise_cons.2 ⟨here, back⟩, ?_⟩,
    Manifest.forall_mem_change tidy.inside fun inside path has => ?_,
    Manifest.forall_mem_change tidy.told id⟩
  · intro r hr later hl path has
    rcases List.mem_cons.1 hl with rfl | hl
    · rcases held.1 has with has | rfl
      · exact across r hr owner List.mem_cons_self path has
      · exact first r hr
    · exact across r hr later (List.mem_cons_of_mem _ hl) path has
  · rcases held.1 has with has | rfl
    · exact inside path has
    · exact owned

/-- A repository that goes on record for a package that none contains. -/
theorem Tidy.opened (tidy : Tidy m) (free : ∀ r ∈ m, r.contains dep.importPath = false)
    (packages : repository.packages = Graph.empty.add dep)
    (contains : repository.contains dep.importPath = true)
    (told : repository.onDiskRevision ∈ repository.revisions) : Tidy (m ++ [repository]) where
  first := by
    refine List.pairwise_append.2 ⟨tidy.first, List.pairwise_singleton _ _, fun r hr => ?_⟩
    simpa [packages] using free r hr
  inside := List.forall_mem_append.2 ⟨tidy.inside, by simpa [packages] using contains⟩
  told := List.forall_mem_append.2 ⟨tidy.told, by simpa using told⟩

/-- The record of a repository that was asked for is as it is found. -/
theorem found_of_open? {checkout : Checkout σ} {s s' : σ}
    (h : c.open? checkout dep s = (.ok repository, s')) : repository.Found := by
  unfold open? at h
  split at h
  · cases h
  · split at h
    · cases h
    · cases h
      exact ⟨by simp, by simp, rfl⟩

/-- **Placing a package keeps a manifest tidy.** -/
theorem Tidy.place {s s' : σ} (holders : c.resolver.FindsHolders) (tidy : Tidy m)
    (placed : c.place m dep s = (.ok m', s')) : Tidy m' := by
  have placing := c.placing_place m dep s
  rw [placed] at placing
  cases placing with
  | held joins owned first =>
    subst joins
    exact tidy.hold owned first
  | unresolved => exact tidy
  | own => exact tidy
  | opened free asked apart told =>
    obtain ⟨root, packages⟩ := c.open?_eq_ok told
    refine tidy.opened free packages ?_ (((found_of_open? told).revisions _).2 rfl)
    rw [Repository.contains, root]
    exact holders _ _ _ _ _ asked

/-- **Packages are placed in a tidy manifest**, to which the pins are added. -/
theorem exists_tidy_of_manifest {graph : Graph} {s s' : σ} (holders : c.resolver.FindsHolders)
    (drawn : c.manifest graph s = (.ok m, s')) : ∃ m', Tidy m' ∧ m = declareAll c.pins m' := by
  have none : Tidy [] := ⟨List.Pairwise.nil, by simp, by simp⟩
  have run := placeAll_run (c := c) graph.records (s := s) (motive := fun _ m _ => Tidy m) none
    fun _ _ _ _ _ _ _ _ tidy placed => tidy.place holders placed
  unfold manifest at drawn
  rcases run with ⟨m', t, all, tidy⟩ | ⟨_, _, _, _, _, _, _, _, _, _, all⟩ <;> rw [all] at drawn <;>
    cases drawn
  exact ⟨m', tidy, rfl⟩

end Step

/-! ## Where a pin goes -/

section Declare

variable {pin : Pin} {pins : List Pin} {r S : Repository} {rs m before : Manifest} {value : String}

/-- **The record of a repository with what several pins declare for it**, one after another. -/
def declareEach (pins : List Pin) (r : Repository) : Repository :=
  pins.foldl (fun r pin => declare pin r) r

@[simp] theorem declareEach_cons :
    declareEach (pin :: pins) r = declareEach pins (declare pin r) := rfl

theorem declareEach_concat : declareEach (pins ++ [pin]) r = declare pin (declareEach pins r) := by
  rw [declareEach, List.foldl_append]
  rfl

theorem eq_of_declareEach {α : Type} {f : Repository → α}
    (keeps : ∀ pin r, f (declare pin r) = f r) : f (declareEach pins r) = f r := by
  induction pins generalizing r with
  | nil => rfl
  | cons pin pins ih => rw [declareEach_cons, ih, keeps]

/-- **The pins of a repository** behind others: those whose root it contains, and none of the others
does. -/
def ownPins (pins : List Pin) (before : Manifest) (r : Repository) : List Pin :=
  pins.filter fun pin => r.contains pin.root && before.all (!·.contains pin.root)

@[simp] theorem declareAll_nil : declareAll pins [] = [] :=
  List.map_eq_nil_iff.1 (map_root_declareAll pins [])

/-- **The first repository takes the pins whose root it contains**, and leaves the rest to those
behind it. -/
theorem declareAll_cons : declareAll pins (r :: rs) =
    declareEach (pins.filter (r.contains ·.root)) r ::
      declareAll (pins.filter (!r.contains ·.root)) rs := by
  induction pins generalizing r rs with
  | nil => rfl
  | cons pin pins ih =>
    -- a repository contains the same paths whatever is declared for it
    have same : (declare pin r).contains = r.contains := rfl
    have next (m : Manifest) : declareAll (pin :: pins) m =
        declareAll pins ((m.updateOwner? pin.root (declare pin)).getD m) := rfl
    rw [next, Manifest.updateOwner?]
    by_cases own : r.contains pin.root = true
    · rw [if_pos own, Option.getD_some, ih, same, List.filter_cons_of_pos (by simpa using own),
        List.filter_cons_of_neg (by simpa using own), declareEach_cons]
    · rw [if_neg own, List.filter_cons_of_neg (by simpa using own),
        List.filter_cons_of_pos (by simpa using own)]
      rcases updated : Manifest.updateOwner? pin.root (declare pin) rs with _ | rs' <;>
        · rw [Option.map, Option.getD, ih, declareAll, declareAll, List.foldl_cons, updated]
          rfl

/-- **Each repository takes its own pins**, whatever those before it take. -/
theorem declareAll_append : declareAll pins (before ++ rs) =
    declareAll pins before ++ declareAll (pins.filter fun pin =>
      before.all (!·.contains pin.root)) rs := by
  induction before generalizing pins with
  | nil => simp
  | cons r before ih =>
    rw [List.cons_append, declareAll_cons, ih, declareAll_cons, List.cons_append,
      List.filter_filter]
    simp only [List.all_cons, Bool.and_comm]

/-- **What is on record of a repository** is what was found and what its own pins declare. -/
theorem exists_of_declareAll {after : Manifest} (h : declareAll pins m = before ++ S :: after) :
    ∃ before' r after', m = before' ++ r :: after' ∧ before = declareAll pins before' ∧
      S = declareEach (ownPins pins before' r) r := by
  have length : m.length = before.length + (after.length + 1) := by
    have := congrArg List.length ((map_root_declareAll pins m).symm.trans (congrArg _ h))
    simpa using this
  obtain ⟨before', rest, rfl, front⟩ : ∃ before' rest, m = before' ++ rest ∧
      before'.length = before.length :=
    ⟨_, _, (List.take_append_drop before.length m).symm, by simp; omega⟩
  rcases rest with _ | ⟨r, after'⟩
  · simp at length
    omega
  · have front' : (declareAll pins before').length = before.length := by
      have := congrArg List.length (map_root_declareAll pins before')
      simpa [front] using this
    rw [declareAll_append, declareAll_cons] at h
    obtain ⟨first, rest⟩ := List.append_inj h front'
    refine ⟨before', r, after', rfl, first.symm, ?_⟩
    rw [← (List.cons.inj rest).1, List.filter_filter]
    rfl

theorem exists_of_mem_declareAll (listed : S ∈ declareAll pins m) :
    ∃ before r after, m = before ++ r :: after ∧ S = declareEach (ownPins pins before r) r := by
  obtain ⟨_, _, split⟩ := List.append_of_mem listed
  obtain ⟨before, r, after, found, -, own⟩ := exists_of_declareAll split
  exact ⟨before, r, after, found, own⟩

/-- **What one pin after another adds to a set** of the record is what they tell, and nothing is
taken away. -/
theorem mem_declareEach {field : Repository → StringSet} {told : Pin → Option String}
    (adds : ∀ pin r, value ∈ field (declare pin r) ↔ told pin = some value ∨ value ∈ field r) :
    value ∈ field (declareEach pins r) ↔
      (∃ pin ∈ pins, told pin = some value) ∨ value ∈ field r := by
  induction pins generalizing r with
  | nil => simp [declareEach]
  | cons pin pins ih =>
    rw [declareEach_cons, ih, adds, List.exists_mem_cons_iff, or_left_comm, or_assoc]

theorem mem_revisions_declare :
    value ∈ (declare pin r).revisions ↔ pin.revision = some value ∨ value ∈ r.revisions := by
  rcases declared : pin.revision with _ | revision <;> simp [declare, declared, eq_comm]

/-- **The revisions on record** are those found and those that the pins declare. -/
theorem mem_revisions_declareEach : value ∈ (declareEach pins r).revisions ↔
    (∃ pin ∈ pins, pin.revision = some value) ∨ value ∈ r.revisions :=
  mem_declareEach fun _ _ => mem_revisions_declare

theorem mem_remotes_declare :
    value ∈ (declare pin r).remotes ↔ pin.source = some value ∨ value ∈ r.remotes := by
  rcases declared : pin.source with _ | remote <;> simp [declare, declared, eq_comm]

/-- **The remotes on record**, likewise. -/
theorem mem_remotes_declareEach : value ∈ (declareEach pins r).remotes ↔
    (∃ pin ∈ pins, pin.source = some value) ∨ value ∈ r.remotes :=
  mem_declareEach fun _ _ => mem_remotes_declare

/-- **More than one revision is a conflict**, which is on record once there is a pin. -/
theorem error_declareEach (some_pin : pins ≠ []) (many : 1 < (declareEach pins r).revisions.size) :
    (declareEach pins r).error =
      some ("conflicting revisions " ++ (declareEach pins r).revisions.render) := by
  -- the last pin sees the revisions that all of them declare
  obtain ⟨pins, pin, rfl⟩ := List.eq_nil_or_concat' pins |>.resolve_left some_pin
  rw [declareEach_concat] at many ⊢
  exact if_pos many

end Declare

/-- **A package's pin is on record where the package is held**, if the pin's root is in that
repository. Let the resolver find for a package nothing but what holds it, and a manifest be drawn
up. Take a package that one of its repositories holds, and the revision of the first pin that
governs the package.

* If the repository contains the root of the pin, then the revision is on record, and if it is not
  what is checked out, then the conflict is on record too.
* If it does not, then the root of the pin is above the repository. -/
theorem pin_on_record {graph : Graph} {m : Manifest} {s s' : σ} {S : Repository} {dep : Dependency}
    {pin : Pin} {revision : String} (holders : c.resolver.FindsHolders)
    (drawn : c.manifest graph s = (.ok m, s')) (listed : S ∈ m) (held : dep ∈ S.packages.records)
    (governed : Pin.firstFor c.pins dep.importPath = some pin)
    (declares : pin.revision = some revision) :
    (S.contains pin.root = true → revision ∈ S.revisions ∧ S.onDiskRevision ∈ S.revisions ∧
      (S.onDiskRevision ≠ revision →
        S.error = some ("conflicting revisions " ++ S.revisions.render))) ∧
      (S.contains pin.root = false → ImportPath.contains pin.root S.root = true) := by
  obtain ⟨m', tidy, rfl⟩ := exists_tidy_of_manifest holders drawn
  obtain ⟨before, r, after, rfl, rfl⟩ := exists_of_mem_declareAll listed
  have governs : pin.governs dep.importPath = true := by simpa using List.find?_some governed
  have known : pin ∈ c.pins := List.mem_of_find?_eq_some governed
  generalize pins : ownPins c.pins before r = own at *
  have root : (declareEach own r).root = r.root := eq_of_declareEach fun _ _ => rfl
  have packages : (declareEach own r).packages = r.packages := eq_of_declareEach fun _ _ => rfl
  have onDisk : (declareEach own r).onDiskRevision = r.onDiskRevision :=
    eq_of_declareEach fun _ _ => rfl
  have has : r.packages.Has dep.importPath := by
    rw [← Graph.mem_importPaths, ← packages]
    exact List.mem_map_of_mem held
  have here : r ∈ before ++ r :: after := by simp
  have inside : r.contains dep.importPath = true := tidy.inside r here _ has
  have same : (declareEach own r).contains = r.contains := by
    funext path
    rw [Repository.contains, root, Repository.contains]
  rw [same]
  refine ⟨fun contains => ?_, fun absent => ?_⟩
  · -- a repository before it that contains the root of the pin would contain the package
    have behind : ∀ earlier ∈ before, earlier.contains pin.root = false := by
      intro earlier mem
      have free := (List.pairwise_append.1 tidy.first).2.2 earlier mem r List.mem_cons_self _ has
      refine Bool.eq_false_iff.2 fun taken => ?_
      rw [Repository.contains, ImportPath.contains_trans taken governs] at free
      cases free
    have mine : pin ∈ own := by
      rw [← pins, ownPins, List.mem_filter]
      exact ⟨known, by simpa [contains] using behind⟩
    have recorded : revision ∈ (declareEach own r).revisions :=
      mem_revisions_declareEach.2 (.inl ⟨pin, mine, declares⟩)
    have told : r.onDiskRevision ∈ (declareEach own r).revisions :=
      mem_revisions_declareEach.2 (.inr (tidy.told r here))
    rw [onDisk]
    exact ⟨recorded, told, fun other => error_declareEach (List.ne_nil_of_mem mine)
      (StringSet.one_lt_size told recorded other)⟩
  · rw [root]
    refine (ImportPath.contains_or_contains governs inside).resolve_right fun contains => ?_
    rw [Repository.contains, contains] at absent
    cases absent

/-- A library that is checked out at its revision `l1`. -/
def libraryAnswers : Answers where
  root path := if path = "e.org/lib/a" then some "e.org/lib" else none
  revision _ := .ok "l1"
  branch _ := .error .foreign
  remote root := .ok ("https://" ++ root)

/-- A project with one pin. -/
def library (pin : Pin) : Consolidation Unit where
  workspace := ⟨⟨"/w"⟩⟩
  project := ⟨"/w/src/e.org/proj"⟩
  branches := false
  pins := [pin]
  resolver := libraryAnswers.resolver

/-- The package of the library. -/
def libraryPackage : Dependency := { importPath := "e.org/lib/a" }

/-- The library with revisions on record. -/
def libraryRecord (revisions : List String) (error : Option String) : Repository where
  root := "e.org/lib"
  revisions := .ofList revisions
  onDiskRevision := "l1"
  remotes := .ofList ["https://e.org/lib"]
  onDiskRemote := "https://e.org/lib"
  packages := .ofList [libraryPackage]
  error := error

theorem library_findsHolders (pin : Pin) : (library pin).resolver.FindsHolders := by
  refine Answers.findsHolders fun path root found => ?_
  unfold libraryAnswers at found
  dsimp only at found
  split at found
  · next h => subst h; cases found; decide +kernel
  · cases found

/-- The pin of the library adds a second revision, which is a conflict. -/
theorem pin_on_record_library :
    let pin : Pin := { root := "e.org/lib", revision := some "v2" }
    let S := libraryRecord ["l1", "v2"] (some "conflicting revisions [l1, v2]")
    (library pin).resolver.FindsHolders ∧
      (library pin).manifest (.ofList [libraryPackage]) () = (.ok [S], ()) ∧
      libraryPackage ∈ S.packages.records ∧
      Pin.firstFor (library pin).pins libraryPackage.importPath = some pin ∧
      S.contains pin.root = true ∧ "v2" ∈ S.revisions ∧ S.onDiskRevision ∈ S.revisions ∧
      S.error = some ("conflicting revisions " ++ S.revisions.render) := by
  intro pin S
  have holders := library_findsHolders pin
  have drawn : (library pin).manifest (.ofList [libraryPackage]) () = (.ok [S], ()) := by
    decide +kernel
  have held : libraryPackage ∈ S.packages.records := by decide +kernel
  have governed : Pin.firstFor (library pin).pins libraryPackage.importPath = some pin := by
    decide +kernel
  have contains : S.contains pin.root = true := by decide +kernel
  obtain ⟨recorded, told, conflict⟩ := (pin_on_record holders drawn (List.mem_singleton_self S)
    held governed rfl).1 contains
  exact ⟨holders, drawn, held, governed, contains, recorded, told, conflict (by decide +kernel)⟩

/-- **A pin above a repository is not on record there**: the package is held, its pin declares a
revision that is not checked out, and the repository shows neither this revision nor a conflict. -/
theorem pin_above_not_on_record :
    let pin : Pin := { root := "e.org", revision := some "v1" }
    let S := libraryRecord ["l1"] none
    (library pin).resolver.FindsHolders ∧
      (library pin).manifest (.ofList [libraryPackage]) () = (.ok [S], ()) ∧
      libraryPackage ∈ S.packages.records ∧
      Pin.firstFor (library pin).pins libraryPackage.importPath = some pin ∧
      "v1" ∉ S.revisions ∧ S.error = none :=
  ⟨library_findsHolders _, by decide +kernel, by decide +kernel, by decide +kernel,
    by simp [libraryRecord], rfl⟩

end Consolidation

end Depot
