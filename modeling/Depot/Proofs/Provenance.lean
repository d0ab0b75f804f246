import Depot.Proofs.Loader
import Depot.Proofs.Survey.Records

/-!
# Provenance

Every edge of an import graph is on record twice: with the package that imports, and with the one
that is imported. The two are written at different times and into records that may be there already,
with edges and errors of their own. They agree all the same (`Mirrored`), because a call on the
loader or on a survey adds its records all at once, and what it adds is in balance: each edge comes
with the edge back.

Adding records takes nothing away (`Keeps`), so an edge or an error that is on record once stays.
-/

namespace Depot

/-- **A record has kept all that another said**: the edges are still there, and so is an error. -/
structure Dependency.Keeps (old new : Dependency) : Prop where
  /-- It is of the same package. -/
  importPath : new.importPath = old.importPath
  /-- No import is gone. -/
  imports : ∀ q ∈ old.imports, q ∈ new.imports
  /-- No importer is gone. -/
  importedFrom : ∀ q ∈ old.importedFrom, q ∈ new.importedFrom
  /-- An error is the same error. -/
  error : ∀ e, old.error = some e → new.error = some e

namespace Dependency

theorem Keeps.refl (dep : Dependency) : dep.Keeps dep where
  importPath := rfl
  imports := fun _ h => h
  importedFrom := fun _ h => h
  error := fun _ h => h

theorem Keeps.trans {a b c : Dependency} (ab : a.Keeps b) (bc : b.Keeps c) : a.Keeps c where
  importPath := bc.importPath.trans ab.importPath
  imports := fun q h => bc.imports q (ab.imports q h)
  importedFrom := fun q h => bc.importedFrom q (ab.importedFrom q h)
  error := fun e h => bc.error e (ab.error e h)

theorem keeps_merge (old new : Dependency) : old.Keeps (old.merge new) where
  importPath := rfl
  imports := fun q h => by simp [h]
  importedFrom := fun q h => by simp [h]
  error := fun e h => by simp [h]

end Dependency

namespace Graph

variable {g h : Graph} {deps : List Dependency} {p q : String}

/-! ## Nothing is taken away -/

/-- **A graph has kept all that another had on record.** -/
def Keeps (g h : Graph) : Prop :=
  ∀ p dep, g.get? p = some dep → ∃ dep', h.get? p = some dep' ∧ dep.Keeps dep'

theorem Keeps.refl (g : Graph) : g.Keeps g := fun _ dep found => ⟨dep, found, .refl dep⟩

theorem Keeps.trans {k : Graph} (gh : g.Keeps h) (hk : h.Keeps k) : g.Keeps k := by
  intro p dep found
  obtain ⟨dep', found', kept⟩ := gh p dep found
  obtain ⟨dep'', found'', kept'⟩ := hk p dep' found'
  exact ⟨dep'', found'', kept.trans kept'⟩

theorem keeps_add (g : Graph) (dep : Dependency) : g.Keeps (g.add dep) := by
  intro p old found
  rw [get?_add, found]
  split
  · exact ⟨_, rfl, old.keeps_merge dep⟩
  · exact ⟨old, rfl, .refl old⟩

theorem keeps_addAll (g : Graph) (deps : List Dependency) : g.Keeps (g.addAll deps) := by
  induction deps generalizing g with
  | nil => exact .refl g
  | cons dep deps ih => exact (g.keeps_add dep).trans (ih (g.add dep))

/-- What is found under an import path is the record of the graph that has it. -/
theorem get?_eq_some_iff {dep : Dependency} :
    g.get? p = some dep ↔ dep ∈ g.records ∧ dep.importPath = p :=
  Ordered.lookup_eq_some_iff g.sorted

/-! ## Edges and edges back -/

/-- **Imports and importers mirror each other**: `q` is an import of `p` on record exactly if `p` is
an importer of `q` on record. -/
def Mirrored (g : Graph) : Prop := ∀ p q, g.Imports p q ↔ g.ImportedFrom q p

theorem mirrored_empty : empty.Mirrored := by
  intro p q
  simp

/-- **Records in balance**: an edge is in one of them exactly if the edge back is. -/
def Balanced (deps : List Dependency) : Prop :=
  ∀ p q, (∃ dep ∈ deps, dep.importPath = p ∧ q ∈ dep.imports) ↔
    ∃ dep ∈ deps, dep.importPath = q ∧ p ∈ dep.importedFrom

/-- **Adding records in balance keeps the mirror**, whatever is on record already. -/
theorem Mirrored.addAll (mirrored : g.Mirrored) (balanced : Balanced deps) :
    (g.addAll deps).Mirrored := by
  intro p q
  rw [imports_addAll, importedFrom_addAll, mirrored p q, balanced p q]

theorem balanced_of_no_edges
    (none : ∀ dep ∈ deps, dep.imports = .empty ∧ dep.importedFrom = .empty) : Balanced deps := by
  intro p q
  constructor
  · rintro ⟨dep, hd, -, edge⟩
    rw [(none dep hd).1] at edge
    exact absurd edge (StringSet.not_mem_empty q)
  · rintro ⟨dep, hd, -, edge⟩
    rw [(none dep hd).2] at edge
    exact absurd edge (StringSet.not_mem_empty p)

/-- **The records of a package that was read are in balance**, also where it imports itself or
names an import twice. -/
theorem balanced_recordsOf (package : String) (imports : List String) :
    Balanced (recordsOf package imports) := by
  intro p q
  rw [exists_imports_recordsOf, exists_importedFrom_recordsOf]

end Graph

/-! ## The calls that record packages -/

/-- **A loader is asked for packages, one after another.** Each call meets the surroundings as they
are by then, and may fail. -/
def LoadPlan.loadEach {σ : Type} (plan : LoadPlan σ) (loader : Loader)
    (calls : List (String × σ)) : Loader :=
  calls.foldl (fun loader call => (plan.load call.1 loader call.2).2.1) loader

/-- **A survey is asked for directories, one after another.** Each call meets the surroundings as
they are by then. -/
def Survey.examineEach {σ : Type} (survey : Survey σ) (graph : Graph)
    (calls : List (Path × σ)) : Graph :=
  calls.foldl (fun graph call => (survey.examine call.1 graph call.2).2.1) graph

/-- **Loading a package adds records in balance**: those of the package, or none if it fails. -/
theorem LoadPlan.load_addAll {σ : Type} (plan : LoadPlan σ) (package : String) (loader : Loader)
    (s : σ) :
    ∃ deps, Graph.Balanced deps ∧
      (plan.load package loader s).2.1.graph = loader.graph.addAll deps := by
  have nothing : Graph.Balanced [] := Graph.balanced_of_no_edges (by simp)
  rcases provided : plan.provide package loader.pinned s with ⟨cause | pinned, s₁⟩
  · rw [load_of_provide_error provided]
    exact ⟨[], nothing, rfl⟩
  · rw [load_of_provide_ok provided]
    dsimp only
    rcases (plan.reader.read (plan.workspace.packageSource package) s₁).1.toExcept with
      cause | imports
    · exact ⟨[], nothing, rfl⟩
    · exact ⟨_, Graph.balanced_recordsOf package imports,
        Graph.record_eq_addAll loader.graph package imports⟩

/-- What a survey records for one path is in balance: it is a package that was read, or an error. -/
theorem Survey.balanced_records {σ : Type} (survey : Survey σ) (s : σ) (path : Path) :
    Graph.Balanced (survey.records s path) := by
  have alone (name : String) (e : DependencyError) : Graph.Balanced [fault name e] :=
    Graph.balanced_of_no_edges (by simp [fault])
  have nothing : Graph.Balanced [] := Graph.balanced_of_no_edges (by simp)
  unfold records
  split
  · exact alone _ _
  · split
    · exact alone _ _
    · split
      · exact nothing
      · unfold recordsOfFound
        split
        · exact Graph.balanced_recordsOf _ _
        · split
          · split
            · exact nothing
            · exact alone _ _
          · exact Graph.balanced_recordsOf _ _

/-- **Examining a path adds its records.** -/
theorem Survey.examine_addAll {σ : Type} (survey : Survey σ) (path : Path) (graph : Graph) (s : σ) :
    (survey.examine path graph s).2.1 = graph.addAll (survey.records s path) := by
  by_cases h : ∃ name, survey.Reads s path name
  · obtain ⟨name, reads⟩ := h
    rw [examine_of_reads reads]
  · rw [examine_of_not_reads (not_exists.1 h)]

/-- **A loader's graph is mirrored after any calls.** -/
theorem LoadPlan.mirrored_loadEach {σ : Type} (plan : LoadPlan σ) {loader : Loader}
    (calls : List (String × σ)) (mirrored : loader.graph.Mirrored) :
    (plan.loadEach loader calls).graph.Mirrored := by
  unfold loadEach
  refine List.foldlRecOn (motive := fun loader : Loader => loader.graph.Mirrored) calls _ mirrored
    fun loader h call _ => ?_
  obtain ⟨deps, balanced, added⟩ := plan.load_addAll call.1 loader call.2
  rw [added]
  exact h.addAll balanced

theorem Survey.mirrored_examineEach {σ : Type} (survey : Survey σ) {graph : Graph}
    (calls : List (Path × σ)) (mirrored : graph.Mirrored) :
    (survey.examineEach graph calls).Mirrored := by
  unfold examineEach
  refine List.foldlRecOn calls _ mirrored fun graph h call _ => ?_
  rw [survey.examine_addAll]
  exact h.addAll (survey.balanced_records call.2 call.1)

/-- **Provenance is never lost and never made up.** Let a loader or a survey be asked for anything,
any number of times, in surroundings that may have changed from one call to the next, and whatever
came of the calls. Then, in the graph on record,

* `q` is among the imports of `p` exactly if there is a record of `q` with `p` among its importers;
* every record is found under its own import path, and nothing else is found there;
* whatever is asked for next, no record goes, no import, no importer, and an error stays as it is.
-/
theorem provenance_mirrors_imports {σ τ : Type} (plan : LoadPlan σ) (survey : Survey τ) :
    (∀ calls, let loader := plan.loadEach {} calls
      loader.graph.Mirrored ∧
        (∀ p dep, loader.graph.get? p = some dep ↔
          dep ∈ loader.graph.records ∧ dep.importPath = p) ∧
        ∀ package s, loader.graph.Keeps (plan.load package loader s).2.1.graph) ∧
    ∀ calls, let graph := survey.examineEach .empty calls
      graph.Mirrored ∧
        (∀ p dep, graph.get? p = some dep ↔ dep ∈ graph.records ∧ dep.importPath = p) ∧
        ∀ path s, graph.Keeps (survey.examine path graph s).2.1 := by
  refine ⟨fun calls => ?_, fun calls => ?_⟩
  · refine ⟨plan.mirrored_loadEach calls Graph.mirrored_empty,
      fun p dep => Graph.get?_eq_some_iff, fun package s => ?_⟩
    obtain ⟨deps, -, added⟩ := plan.load_addAll package (plan.loadEach {} calls) s
    rw [added]
    exact Graph.keeps_addAll _ deps
  · refine ⟨survey.mirrored_examineEach calls Graph.mirrored_empty,
      fun p dep => Graph.get?_eq_some_iff, fun path s => ?_⟩
    rw [survey.examine_addAll]
    exact Graph.keeps_addAll _ _

end Depot
