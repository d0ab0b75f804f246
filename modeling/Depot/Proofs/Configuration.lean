import Depot.Configuration
import Mathlib.Data.List.Nodup

/-!
# Which pin counts

The pins of a project are put among those of the user: one that has the root of a pin of the user
stands in its place, any other behind all of them (`mergePins_eq`). As the first pin that governs a
path counts, what decides is the first pin of the user that governs it. Where the project has a pin
of exactly its root, that pin counts, and where the user has none at all, the first one of the
project does. Otherwise the pin of the user counts, even if the project has a pin for a smaller
subtree, or for the same subtree with a slash at the end of its root (`project_pin_shadowed`).
-/

namespace Depot

namespace Pin

variable {pin pin' : Pin} {pins : List Pin} {path : String}

theorem governs_congr (same : pin.root = pin'.root) : pin.governs path = pin'.governs path := by
  unfold governs
  rw [same]

theorem firstFor_append (pins more : List Pin) (path : String) :
    firstFor (pins ++ more) path = (firstFor pins path).or (firstFor more path) :=
  List.find?_append

/-- **No pin counts** exactly if none governs the path. -/
theorem firstFor_eq_none : firstFor pins path = none ↔ ∀ pin ∈ pins, pin.governs path = false := by
  simp [firstFor]

end Pin

namespace Configuration

variable {base top pins : List Pin} {pin : Pin} {path : String}

/-- The roots of pins, in order. -/
def roots (pins : List Pin) : List String := pins.map (·.root)

/-- **The pin that stands for `pin`** once `top` is put over it: the one of its root, if there is
one. -/
def override (top : List Pin) (pin : Pin) : Pin := (top.find? (·.root = pin.root)).getD pin

/-- The pins of `top` whose roots are new to `base`. -/
def added (base top : List Pin) : List Pin := top.filter (·.root ∉ roots base)

theorem mem_roots {root : String} : root ∈ roots pins ↔ ∃ pin ∈ pins, pin.root = root :=
  List.mem_map

theorem root_mem_roots (h : pin ∈ pins) : pin.root ∈ roots pins := List.mem_map_of_mem h

theorem nodup_roots_cons :
    (roots (pin :: pins)).Nodup ↔ pin.root ∉ roots pins ∧ (roots pins).Nodup :=
  List.nodup_cons

@[simp] theorem override_root (top : List Pin) (pin : Pin) : (override top pin).root = pin.root := by
  rcases found : top.find? (·.root = pin.root) with _ | own
  · rw [override, found, Option.getD_none]
  · rw [override, found, Option.getD_some]
    simpa using List.find?_some found

/-- A pin whose root `top` does not have is left alone. -/
theorem override_of_notMem (absent : pin.root ∉ roots top) : override top pin = pin := by
  have none : top.find? (·.root = pin.root) = none := by
    simpa [roots, List.find?_eq_none] using absent
  rw [override, none, Option.getD_none]

/-- The pin that stands for another is one of `top` exactly if `top` has its root. -/
theorem override_mem_iff : override top pin ∈ top ↔ pin.root ∈ roots top := by
  constructor
  · intro h
    exact override_root top pin ▸ root_mem_roots h
  · intro h
    obtain ⟨own, mem, same⟩ := mem_roots.1 h
    have found : (top.find? (·.root = pin.root)).isSome := by
      rw [List.find?_isSome]
      exact ⟨own, mem, by simpa using same⟩
    obtain ⟨own', found⟩ := Option.isSome_iff_exists.1 found
    rw [override, found, Option.getD_some]
    exact List.mem_of_find?_eq_some found

/-- A pin put over others and more pins after it, none of which has its root, are put over them at
once. -/
theorem override_override {own : Pin} (fresh : own.root ∉ roots top) (pin : Pin) :
    override top (override [own] pin) = override (own :: top) pin := by
  by_cases same : own.root = pin.root
  · rw [show override [own] pin = own by simp [override, same],
      show override (own :: top) pin = own by simp [override, same], override_of_notMem fresh]
  · have other : pin.root ∉ roots [own] := by simpa [roots] using fun h => same h.symm
    rw [override_of_notMem other]
    unfold override
    rw [List.find?_cons_of_neg (by simpa using same)]

/-- **A pin of a root that is there** takes the place of the pin of that root. -/
theorem putPin_of_mem (distinct : (roots base).Nodup) (there : pin.root ∈ roots base) :
    putPin pin base = base.map (override [pin]) := by
  induction base with
  | nil => cases there
  | cons p ps ih =>
    obtain ⟨fresh, distinct⟩ := nodup_roots_cons.1 distinct
    unfold putPin
    split
    · next same =>
      -- no later pin has the root, so none of them changes
      have kept : ps.map (override [pin]) = ps := by
        refine List.map_congr_left (fun q mem => override_of_notMem ?_) |>.trans (List.map_id ps)
        have : q.root ≠ p.root := fun h => fresh (h ▸ root_mem_roots mem)
        simpa [roots, same] using this
      rw [List.map_cons, kept, show override [pin] p = pin by simp [override, same]]
    · next other =>
      have there := (List.mem_cons.1 there).resolve_left fun h => other h.symm
      rw [ih distinct there, List.map_cons, override_of_notMem (by simpa [roots] using other)]

/-- **A pin of a new root** comes after all others. -/
theorem putPin_of_notMem (absent : pin.root ∉ roots base) : putPin pin base = base ++ [pin] := by
  induction base with
  | nil => rfl
  | cons p ps ih =>
    obtain ⟨other, absent⟩ := not_or.1 (mt List.mem_cons.2 absent)
    rw [putPin, if_neg fun h => other h.symm, ih absent, List.cons_append]

/-- **Merging pins**: those of `base`, each with the pin of `top` of its root in its place, and then
those of `top` whose roots are new. -/
theorem mergePins_eq (distinct : (roots base).Nodup) (distinct' : (roots top).Nodup) :
    mergePins base top = base.map (override top) ++ added base top := by
  induction top generalizing base with
  | nil => exact (List.append_nil _).trans (List.map_id base) |>.symm
  | cons own top ih =>
    obtain ⟨fresh, distinct'⟩ := nodup_roots_cons.1 distinct'
    rw [mergePins, List.foldl_cons]
    by_cases there : own.root ∈ roots base
    · have same : roots (base.map (override [own])) = roots base := by simp [roots]
      rw [putPin_of_mem distinct there, ← mergePins, ih (same ▸ distinct) distinct',
        List.map_map, show override top ∘ override [own] = override (own :: top) from
          funext (override_override fresh), added, same,
        added, List.filter_cons_of_neg (by simpa using there)]
    · have distinct : (roots (base ++ [own])).Nodup := by
        rw [roots, List.map_append, List.nodup_append_comm]
        exact nodup_roots_cons.2 ⟨there, distinct⟩
      have before : base.map (override top) = base.map (override (own :: top)) := by
        refine List.map_congr_left fun p mem => ?_
        have other : p.root ∉ roots [own] := by
          simpa [roots] using fun h : p.root = own.root => there (h ▸ root_mem_roots mem)
        rw [← override_override fresh, override_of_notMem other]
      have after : added (base ++ [own]) top = added base top := by
        refine List.filter_congr fun p mem => ?_
        have : p.root ≠ own.root := fun h => fresh (h ▸ root_mem_roots mem)
        simp [roots, this]
      rw [putPin_of_notMem there, ← mergePins, ih distinct distinct', List.map_append, before,
        after, List.map_singleton, override_of_notMem fresh, added, added,
        List.filter_cons_of_pos (by simpa using there), List.append_assoc]
      rfl

/-- **The first of merged pins** that governs a path stands for the first of `base` that does, and
is the first of `top` where none of `base` does. -/
theorem firstFor_mergePins (distinct : (roots base).Nodup) (distinct' : (roots top).Nodup)
    (path : String) :
    Pin.firstFor (mergePins base top) path =
      ((Pin.firstFor base path).map (override top)).or (Pin.firstFor top path) := by
  have changed : Pin.firstFor (base.map (override top)) path =
      (Pin.firstFor base path).map (override top) := by
    rw [Pin.firstFor, List.find?_map]
    congr 1
    exact congrArg (List.find? · base)
      (funext fun pin => Pin.governs_congr (override_root top pin))
  rw [mergePins_eq distinct distinct', Pin.firstFor_append, changed]
  rcases none : Pin.firstFor base path with _ | pin
  · -- a pin that is not new has the root of one of `base`, so it does not govern the path either
    rw [Option.map_none, Option.none_or, Option.none_or, Pin.firstFor, added, List.find?_filter]
    refine congrArg (List.find? · top) (funext fun own => ?_)
    by_cases there : own.root ∈ roots base
    · obtain ⟨pin, mem, same⟩ := List.mem_map.1 there
      have := Pin.firstFor_eq_none.1 none pin mem
      rw [Pin.governs_congr same] at this
      simp [this]
    · simp [there]
  · rfl

/-- Pins of distinct roots put over none are those pins. -/
theorem mergePins_nil (distinct : (roots top).Nodup) : mergePins [] top = top := by
  have none : (roots []).Nodup := List.nodup_nil
  rw [mergePins_eq none distinct, List.map_nil, List.nil_append]
  exact List.filter_eq_self.2 fun pin _ => by simp [roots]

section Files

variable (disk : Disk) (cwd : Location) (user project : Path)

/-- The pins of both files are those of the project put over those of the user. -/
theorem pins_loadBoth (distinct : (roots (loadOrDefault disk cwd user).pins).Nodup) :
    (loadBoth disk cwd user project).pins =
      mergePins (loadOrDefault disk cwd user).pins (loadOrDefault disk cwd project).pins := by
  rw [loadBoth, merge, merge, mergePins_nil distinct]

/-- **Which pin counts where the project has one.** It is a pin of the project exactly if the first
pin of the user that governs the path, if there is one, has a root for which the project has a pin.
Otherwise it is that pin of the user. -/
theorem project_pin_counts (path : String)
    (distinct : (roots (loadOrDefault disk cwd user).pins).Nodup)
    (distinct' : (roots (loadOrDefault disk cwd project).pins).Nodup)
    (governed : ∃ own ∈ (loadOrDefault disk cwd project).pins, own.governs path = true) :
    ∃ pin, Pin.firstFor (loadBoth disk cwd user project).pins path = some pin ∧
      (pin ∈ (loadOrDefault disk cwd project).pins ↔
        ∀ above, Pin.firstFor (loadOrDefault disk cwd user).pins path = some above →
          above.root ∈ roots (loadOrDefault disk cwd project).pins) ∧
      (pin ∉ (loadOrDefault disk cwd project).pins →
        Pin.firstFor (loadOrDefault disk cwd user).pins path = some pin) := by
  rw [pins_loadBoth disk cwd user project distinct, firstFor_mergePins distinct distinct']
  generalize (loadOrDefault disk cwd project).pins = own at *
  rcases first : Pin.firstFor (loadOrDefault disk cwd user).pins path with _ | above
  · obtain ⟨pin, mem, governs⟩ := governed
    rcases found : Pin.firstFor own path with _ | pin
    · rw [Pin.firstFor_eq_none.1 found pin mem] at governs
      cases governs
    · have mem : pin ∈ own := List.mem_of_find?_eq_some found
      exact ⟨pin, rfl, iff_of_true mem (by simp), fun absent => absurd mem absent⟩
  · refine ⟨override own above, rfl, ?_, fun absent => ?_⟩
    · rw [override_mem_iff]
      simp
    · rw [override_of_notMem (mt override_mem_iff.2 absent)]

end Files

/-- A disk with the configuration files of a user and of a project. -/
def configured (users projects : String) : Disk :=
  ⟨[(["home"], .directory), (["home", "config.toml"], .file users.toUTF8 false),
    (["p"], .directory), (["p", "Canticle.toml"], .file projects.toUTF8 false)]⟩

/-- Where the file of the user is. -/
def usersFile : Path := ⟨"/home/config.toml"⟩

/-- Where the file of the project is. -/
def projectsFile : Path := ⟨"/p/Canticle.toml"⟩

/-- The lines of a file that declare the revision of one root. -/
def declaration (root revision : String) : String :=
  "[[dependencies]]\nroot = \"" ++ root ++ "\"\nrevision = \"" ++ revision ++ "\"\n"

/-- The pin of the project that counts first stands in the place of one of the user, so it is the
one that counts. -/
theorem project_pin_counts_sample :
    let disk := configured (declaration "e.org" "v1")
      (declaration "e.org/lib" "v2" ++ declaration "e.org" "v3")
    (roots (loadOrDefault disk [] usersFile).pins).Nodup ∧
      (roots (loadOrDefault disk [] projectsFile).pins).Nodup ∧
      (∃ own ∈ (loadOrDefault disk [] projectsFile).pins, own.governs "e.org/lib/a" = true) ∧
      ∃ pin, Pin.firstFor (loadBoth disk [] usersFile projectsFile).pins "e.org/lib/a" = some pin ∧
        pin ∈ (loadOrDefault disk [] projectsFile).pins := by
  intro disk
  have distinct : (roots (loadOrDefault disk [] usersFile).pins).Nodup := by decide +kernel
  have distinct' : (roots (loadOrDefault disk [] projectsFile).pins).Nodup := by decide +kernel
  have governed : ∃ own ∈ (loadOrDefault disk [] projectsFile).pins,
      own.governs "e.org/lib/a" = true := by
    decide +kernel
  have above : Pin.firstFor (loadOrDefault disk [] usersFile).pins "e.org/lib/a" =
      some { root := "e.org", revision := some "v1" } := by
    decide +kernel
  obtain ⟨pin, counts, own, -⟩ := project_pin_counts disk [] usersFile projectsFile "e.org/lib/a"
    distinct distinct' governed
  refine ⟨distinct, distinct', governed, pin, counts, own.2 fun pin' h => ?_⟩
  obtain rfl := Option.some.inj (above.symm.trans h)
  decide +kernel

/-- **A pin of the project may not count**, for lack of a pin of exactly the root that the user's
has: neither one for a smaller subtree, nor one for the same subtree that is spelled otherwise. -/
theorem project_pin_shadowed :
    let users : Pin := { root := "e.org", revision := some "v1" }
    let disk root := configured (declaration "e.org" "v1") (declaration root "v2")
    let counting root :=
      Pin.firstFor (loadBoth (disk root) [] usersFile projectsFile).pins "e.org/lib/a"
    let projects root := (loadOrDefault (disk root) [] projectsFile).pins
    (loadOrDefault (disk "e.org/lib") [] usersFile).pins = [users] ∧
      (projects "e.org/lib" = [{ root := "e.org/lib", revision := some "v2" }] ∧
        (∃ own ∈ projects "e.org/lib", own.governs "e.org/lib/a" = true) ∧
        counting "e.org/lib" = some users ∧ users ∉ projects "e.org/lib") ∧
      projects "e.org/" = [{ root := "e.org/", revision := some "v2" }] ∧
        (∃ own ∈ projects "e.org/", own.governs "e.org/lib/a" = true) ∧
        counting "e.org/" = some users ∧ users ∉ projects "e.org/" := by
  decide +kernel

end Configuration

end Depot
