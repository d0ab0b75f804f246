import Depot.Proofs.Configuration
import Mathlib.Data.List.Induction

/-!
# Merging configurations

Merging goes setting by setting, and for all but the pins it is plain to see that a setting of the
last configuration that has one is the one that counts. The pins are put one after another in a list
that they change: what has the root of a pin that is there takes its place, anything else comes
last.

All the same the list can be told from what goes into it: the roots are those of all pins, each
where it occurs first (`roots_mergePins`), and with each root stands the last pin that has it
(`lastOf_mergePins`). Pins of distinct roots are determined by the two (`eq_of_roots_of_lastOf`), so
that lists that agree in them are the same list. It takes that the list merged into has distinct
roots: where it has a root twice, only the first of the two pins is replaced.
-/

namespace Depot.Configuration

/-! ## First occurrences -/

section EraseDups

variable {values : List String}

/-- One more value comes last, if it has not occurred. -/
theorem eraseDups_concat (values : List String) (value : String) :
    (values ++ [value]).eraseDups =
      if value ∈ values then values.eraseDups else values.eraseDups ++ [value] := by
  rw [List.eraseDups_append, List.cons_removeAll, List.nil_removeAll]
  by_cases known : value ∈ values <;> simp [known, List.eraseDups_cons]

theorem eraseDups_of_nodup (distinct : values.Nodup) : values.eraseDups = values := by
  induction values using List.reverseRecOn with
  | nil => rfl
  | append_singleton values value ih =>
    rw [List.nodup_append_comm, List.singleton_append, List.nodup_cons] at distinct
    rw [eraseDups_concat, if_neg distinct.1, ih distinct.2]

end EraseDups

/-! ## The last pin of a root -/

section Pins

variable {base top pins pins' : List Pin} {pin : Pin} {root : String}

/-- **The last of `pins` that has a root.** -/
def lastOf (pins : List Pin) (root : String) : Option Pin := pins.reverse.find? (·.root = root)

theorem lastOf_append (pins more : List Pin) (root : String) :
    lastOf (pins ++ more) root = (lastOf more root).or (lastOf pins root) := by
  rw [lastOf, List.reverse_append, List.find?_append]
  rfl

theorem lastOf_singleton : lastOf [pin] root = if pin.root = root then some pin else none := by
  by_cases same : pin.root = root <;> simp [lastOf, same]

/-- Where roots are distinct, a pin is the last one of its root. -/
theorem lastOf_of_mem (distinct : (roots pins).Nodup) (mem : pin ∈ pins) :
    lastOf pins pin.root = some pin := by
  rcases found : lastOf pins pin.root with _ | last
  · have absent := List.find?_eq_none.1 found pin (List.mem_reverse.2 mem)
    simp at absent
  · have listed : last ∈ pins := List.mem_reverse.1 (List.mem_of_find?_eq_some found)
    have same : last.root = pin.root := by simpa using List.find?_some found
    rw [List.inj_on_of_nodup_map distinct listed mem same]

/-- **Pins of distinct roots are determined** by their roots and the last pin of each. -/
theorem eq_of_roots_of_lastOf (distinct : (roots pins).Nodup) (same : roots pins = roots pins')
    (last : ∀ root, lastOf pins root = lastOf pins' root) : pins = pins' := by
  have listed {pins : List Pin} (distinct : (roots pins).Nodup) :
      pins.map some = (roots pins).map (lastOf pins) := by
    rw [roots, List.map_map]
    exact List.map_congr_left fun pin mem => (lastOf_of_mem distinct mem).symm
  have equal : pins.map some = pins'.map some := by
    rw [listed distinct, listed (same ▸ distinct), same, funext last]
  exact List.map_injective_iff.2 (fun _ _ => Option.some.inj) equal

/-! ## Putting a pin -/

/-- A pin adds its root behind those that are there, unless it is one of them. -/
theorem roots_putPin (pin : Pin) (base : List Pin) :
    roots (putPin pin base) =
      if pin.root ∈ roots base then roots base else roots base ++ [pin.root] := by
  induction base with
  | nil => rfl
  | cons p ps ih =>
    unfold putPin
    by_cases same : p.root = pin.root
    · simp [roots, same]
    · have other : pin.root ≠ p.root := fun h => same h.symm
      rw [if_neg same]
      simp only [roots, List.map_cons, List.mem_cons, other, false_or] at ih ⊢
      rw [ih]
      by_cases there : pin.root ∈ ps.map (·.root) <;> simp only [there, if_true, if_false,
        List.cons_append]

theorem nodup_roots_putPin (distinct : (roots base).Nodup) : (roots (putPin pin base)).Nodup := by
  rw [roots_putPin]
  split
  · exact distinct
  · next fresh =>
    rw [List.nodup_append_comm]
    exact List.nodup_cons.2 ⟨fresh, distinct⟩

theorem lastOf_map_override (top base : List Pin) (root : String) :
    lastOf (base.map (override top)) root = (lastOf base root).map (override top) := by
  rw [lastOf, ← List.map_reverse, List.find?_map]
  simp only [Function.comp_def, override_root]
  rfl

/-- **A pin is the last one of its root**, and changes none of another root. -/
theorem lastOf_putPin (distinct : (roots base).Nodup) (root : String) :
    lastOf (putPin pin base) root = if pin.root = root then some pin else lastOf base root := by
  by_cases there : pin.root ∈ roots base
  · rw [putPin_of_mem distinct there, lastOf_map_override]
    rcases found : lastOf base root with _ | last
    · have other : pin.root ≠ root := by
        rintro rfl
        obtain ⟨own, mem, same⟩ := mem_roots.1 there
        rw [← same, lastOf_of_mem distinct mem] at found
        cases found
      rw [if_neg other, Option.map_none]
    · have same : last.root = root := by simpa using List.find?_some found
      subst same
      split
      · next own => simp [override, own]
      · next other =>
        rw [Option.map_some, override_of_notMem (by simpa [roots] using fun h => other h.symm)]
  · rw [putPin_of_notMem there, lastOf_append, lastOf_singleton]
    split <;> rfl

/-! ## Merging pins -/

theorem mergePins_concat (base top : List Pin) (pin : Pin) :
    mergePins base (top ++ [pin]) = putPin pin (mergePins base top) := by
  rw [mergePins, List.foldl_append]
  rfl

/-- **Merging keeps roots distinct**, whatever is merged. -/
theorem nodup_roots_mergePins (distinct : (roots base).Nodup) (top : List Pin) :
    (roots (mergePins base top)).Nodup := by
  induction top using List.reverseRecOn with
  | nil => exact distinct
  | append_singleton top pin ih => exact mergePins_concat base top pin ▸ nodup_roots_putPin ih

/-- **The roots of merged pins** are all roots, each where it occurs first. -/
theorem roots_mergePins (distinct : (roots base).Nodup) (top : List Pin) :
    roots (mergePins base top) = (roots base ++ roots top).eraseDups := by
  induction top using List.reverseRecOn with
  | nil => exact (eraseDups_of_nodup distinct).symm.trans (by rw [roots, roots, List.map_nil,
      List.append_nil])
  | append_singleton top pin ih =>
    have more : roots (top ++ [pin]) = roots top ++ [pin.root] := List.map_append
    rw [mergePins_concat, roots_putPin, ih, more, ← List.append_assoc, eraseDups_concat]
    simp only [List.mem_eraseDups]

/-- **With each root stands the last pin that has it.** -/
theorem lastOf_mergePins (distinct : (roots base).Nodup) (top : List Pin) (root : String) :
    lastOf (mergePins base top) root = lastOf (base ++ top) root := by
  induction top using List.reverseRecOn with
  | nil => rw [List.append_nil]; rfl
  | append_singleton top pin ih =>
    rw [mergePins_concat, lastOf_putPin (nodup_roots_mergePins distinct top), ih,
      ← List.append_assoc, lastOf_append _ [pin], lastOf_singleton]
    split <;> rfl

/-- **It does not matter when a pin is put**, among those to be merged or among those merged. -/
theorem mergePins_putPin (distinct : (roots base).Nodup) (distinct' : (roots top).Nodup) :
    mergePins base (putPin pin top) = putPin pin (mergePins base top) := by
  have merged := nodup_roots_mergePins distinct top
  refine eq_of_roots_of_lastOf (nodup_roots_mergePins distinct _) ?_ fun root => ?_
  · have merge : roots (mergePins base top) = (roots base ++ roots top).eraseDups :=
      roots_mergePins distinct top
    rw [roots_mergePins distinct, roots_putPin pin top]
    split
    · next there => rw [roots_putPin, merge, if_pos (by simp [there])]
    · rw [← List.append_assoc, eraseDups_concat, roots_putPin, merge]
      simp only [List.mem_eraseDups]
  · rw [lastOf_mergePins distinct, lastOf_append, lastOf_putPin distinct', lastOf_putPin merged,
      lastOf_mergePins distinct, lastOf_append]
    split <;> rfl

/-- **Merging pins is associative.** -/
theorem mergePins_assoc (distinct : (roots base).Nodup) (distinct' : (roots top).Nodup)
    (more : List Pin) :
    mergePins (mergePins base top) more = mergePins base (mergePins top more) := by
  induction more using List.reverseRecOn with
  | nil => rfl
  | append_singleton more pin ih =>
    rw [mergePins_concat, mergePins_concat, ih,
      mergePins_putPin distinct (nodup_roots_mergePins distinct' more)]

/-- Pins put over none are those pins, however often their roots occur. -/
theorem mergePins_nil_append (pins more : List Pin) :
    mergePins (mergePins [] pins) more = mergePins [] (pins ++ more) :=
  List.foldl_append.symm

end Pins

/-! ## Merging configurations -/

section Configurations

variable {a b : Configuration}

/-- **Merging is associative** where the roots of all but the last configuration are distinct. -/
theorem merge_assoc (distinct : (roots a.pins).Nodup) (distinct' : (roots b.pins).Nodup)
    (c : Configuration) : (a.merge b).merge c = a.merge (b.merge c) := by
  have first {α : Type} (x y z : Option α) : (x <|> (y <|> z)) = ((x <|> y) <|> z) := by
    cases x <;> rfl
  have filled : ((a.merge b).merge c).avoided = (a.merge (b.merge c)).avoided := by
    unfold merge
    cases c.avoided <;> rfl
  have pins := mergePins_assoc distinct distinct' c.pins
  unfold merge at filled ⊢
  simp only [mk.injEq]
  exact ⟨first .., first .., filled, first .., first .., pins⟩

theorem merge_default (a : Configuration) : a.merge {} = a := rfl

/-- What is put over nothing is what it is, if its roots are distinct. -/
theorem default_merge (distinct : (roots a.pins).Nodup) : merge {} a = a := by
  have first {α : Type} (x : Option α) : (x <|> none) = x := by cases x <;> rfl
  have filled : (if a.avoided.isEmpty then [] else a.avoided) = a.avoided := by
    cases a.avoided <;> rfl
  obtain ⟨workspace, branches, avoided, tests, update, pins⟩ := a
  simp only [merge, mk.injEq]
  exact ⟨first _, first _, filled, first _, first _, mergePins_nil distinct⟩

end Configurations

/-! ## Loading -/

section Files

variable {disk : Disk} {cwd : Location} {path : Path}

/-- **The pins that a file contributes**: none, if it cannot be loaded. -/
def filePins (disk : Disk) (cwd : Location) (path : Path) : List Pin :=
  match load disk cwd path with
  | .ok c => c.pins
  | .error _ => []

theorem pins_loadOrDefault (disk : Disk) (cwd : Location) (path : Path) :
    (loadOrDefault disk cwd path).pins = filePins disk cwd path := by
  unfold loadOrDefault filePins
  cases load disk cwd path <;> rfl

theorem filePins_of_unloaded (unloaded : (load disk cwd path).isOk = false) :
    filePins disk cwd path = [] := by
  unfold filePins
  rcases loaded : load disk cwd path with _ | c
  · rfl
  · rw [loaded] at unloaded
    cases unloaded

theorem isOk_load_of_missing (missing : disk.exists? cwd path = false) :
    (load disk cwd path).isOk = false := by
  unfold Disk.exists? at missing
  unfold load Disk.readText Disk.read
  rcases found : disk.resolve cwd path with cause | _
  · rfl
  · rw [found] at missing
    cases missing

/-- The pins of both files are put over none, one after another. -/
theorem pins_loadBoth_eq (disk : Disk) (cwd : Location) (user project : Path) :
    (loadBoth disk cwd user project).pins =
      mergePins [] (filePins disk cwd user ++ filePins disk cwd project) := by
  rw [← mergePins_nil_append, ← pins_loadOrDefault, ← pins_loadOrDefault]
  rfl

end Files

/-- **Merging is a well-behaved override.**

* On configurations whose roots are distinct it is associative, and what sets nothing changes
  nothing on either side.
* What is merged into a configuration with distinct roots keeps them distinct, even if it has roots
  more than once itself.
* The pins loaded from two files have the roots of the user's and then the project's pins, each
  where it occurs first, and with each root stands, as a whole, the last pin that has it. A file
  that is missing or cannot be loaded contributes none. -/
theorem merge_overrides :
    (∀ a b c : Configuration, (roots a.pins).Nodup → (roots b.pins).Nodup → (roots c.pins).Nodup →
      (a.merge b).merge c = a.merge (b.merge c)) ∧
    (∀ a : Configuration, (roots a.pins).Nodup → merge {} a = a ∧ a.merge {} = a) ∧
    (∀ base top : Configuration, (roots base.pins).Nodup → (roots (base.merge top).pins).Nodup) ∧
    ∀ (disk : Disk) (cwd : Location) (user project : Path),
      (∀ path, disk.exists? cwd path = false ∨ (load disk cwd path).isOk = false →
        filePins disk cwd path = []) ∧
      roots (loadBoth disk cwd user project).pins =
        (roots (filePins disk cwd user ++ filePins disk cwd project)).eraseDups ∧
      ∀ pin ∈ (loadBoth disk cwd user project).pins,
        lastOf (filePins disk cwd user ++ filePins disk cwd project) pin.root = some pin := by
  have none : (roots []).Nodup := List.nodup_nil
  refine ⟨fun a b c distinct distinct' _ => merge_assoc distinct distinct' c,
    fun a distinct => ⟨default_merge distinct, merge_default a⟩,
    fun base top distinct => nodup_roots_mergePins distinct top.pins,
    fun disk cwd user project => ⟨fun path absent => ?_, ?_, fun pin listed => ?_⟩⟩
  · exact filePins_of_unloaded (absent.elim isOk_load_of_missing id)
  · rw [pins_loadBoth_eq, roots_mergePins none]
    rfl
  · rw [pins_loadBoth_eq] at listed
    have last := lastOf_of_mem (nodup_roots_mergePins none _) listed
    rwa [lastOf_mergePins none] at last

/-- A configuration that declares revisions. -/
def declaring (pins : List (String × String)) : Configuration where
  pins := pins.map fun (root, revision) => { root, revision := some revision }

/-- Three configurations that overlap, and two files, of which the project's has one root twice and
the user's is missing or not. -/
theorem merge_overrides_sample :
    let a := declaring [("e.org", "v1"), ("f.org", "v1")]
    let b := declaring [("g.org", "v2"), ("f.org", "v2")]
    let c := declaring [("h.org", "v3"), ("g.org", "v3"), ("e.org", "v3")]
    let twice := declaring [("e.org", "v4"), ("e.org", "v5")]
    let disk := configured (declaration "e.org" "v1" ++ declaration "f.org" "v1")
      (declaration "g.org" "v2" ++ declaration "e.org" "v2" ++ declaration "g.org" "v3")
    ((a.merge b).merge c = a.merge (b.merge c) ∧
      roots ((a.merge b).merge c).pins = ["e.org", "f.org", "g.org", "h.org"]) ∧
    (merge {} c = c ∧ c.merge {} = c) ∧
    (roots (a.merge twice).pins).Nodup ∧
    roots (loadBoth disk [] usersFile projectsFile).pins = ["e.org", "f.org", "g.org"] ∧
    roots (loadBoth disk [] ⟨"/gone.toml"⟩ projectsFile).pins = ["g.org", "e.org"] := by
  intro a b c twice disk
  obtain ⟨associative, neutral, distinct, loaded⟩ := merge_overrides
  have ha : (roots a.pins).Nodup := by decide +kernel
  have hb : (roots b.pins).Nodup := by decide +kernel
  have hc : (roots c.pins).Nodup := by decide +kernel
  obtain ⟨-, both, -⟩ := loaded disk [] usersFile projectsFile
  obtain ⟨missing, one, -⟩ := loaded disk [] ⟨"/gone.toml"⟩ projectsFile
  refine ⟨⟨associative a b c ha hb hc, by decide +kernel⟩, neutral c hc, distinct a twice ha, ?_, ?_⟩
  · rw [both]
    decide +kernel
  · rw [one, missing ⟨"/gone.toml"⟩ (.inl (by decide +kernel))]
    decide +kernel

/-- It takes distinct roots: where one occurs twice, only the first of the two pins is replaced. -/
example :
    let twice := declaring [("e.org", "v1"), ("e.org", "v2")]
    let last := declaring [("e.org", "v3")]
    (merge (merge {} twice) last).pins ≠ (merge {} (merge twice last)).pins := by
  decide +kernel

end Depot.Configuration
