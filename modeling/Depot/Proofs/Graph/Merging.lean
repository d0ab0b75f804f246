import Depot.Proofs.Graph

/-!
# Graphs put together from records

A graph is what is left of a list of records when those of one import path are merged. The edges of
a record are united, so neither the order of the list nor repetitions show in them. Its error is the
first one that comes up, and this is the only trace that the order of a list can leave: the graph is
the same for every order exactly if the list agrees with itself about errors (`ofList_comm_iff`).

A graph agrees with itself, having one record for an import path. What is put together again from
its records, in whatever order, is therefore the graph (`ofList_of_perm`), and adding some of them
once more changes nothing (`addAll_own`).
-/

namespace Depot.Graph

section Records

variable (g : Graph)

theorem nodup_importPaths : g.importPaths.Nodup :=
  List.pairwise_map.2 (g.sorted.imp fun before same => by simp [same] at before)

/-- A record of the graph is found under its import path. -/
theorem get?_of_mem {dep : Dependency} (h : dep ∈ g.records) :
    g.get? dep.importPath = some dep :=
  (Ordered.lookup_eq_some_iff g.sorted).2 ⟨h, rfl⟩

/-- **Adding some of a graph's own records again** changes nothing. -/
theorem addAll_own {more : List Dependency} (own : ∀ dep ∈ more, dep ∈ g.records) :
    g.addAll more = g := by
  refine ext_of_views (fun k => ?_) (fun k q => ?_) (fun k q => ?_) fun k => ?_
  · rw [has_addAll, or_iff_left_iff_imp]
    rintro ⟨dep, hd, rfl⟩
    exact ⟨dep, g.get?_of_mem (own dep hd)⟩
  · rw [imports_addAll, or_iff_left_iff_imp]
    rintro ⟨dep, hd, rfl, edge⟩
    exact ⟨dep, g.get?_of_mem (own dep hd), edge⟩
  · rw [importedFrom_addAll, or_iff_left_iff_imp]
    rintro ⟨dep, hd, rfl, edge⟩
    exact ⟨dep, g.get?_of_mem (own dep hd), edge⟩
  · rw [errorOf_addAll]
    cases known : g.errorOf k with
    | some e => rfl
    | none =>
      -- what could come after an import path without error is the record that is there
      refine List.findSome?_eq_none_iff.2 fun dep hd => ?_
      split
      · next here => rw [← errorOf_eq (here ▸ g.get?_of_mem (own dep hd)), known]
      · rfl

theorem ofList_records : ofList g.records = g := eq_of_records (records_ofList g.sorted)

end Records

/-- **The error that a list of records brings** for an import path: the first one. -/
def firstError (deps : List Dependency) (k : String) : Option DependencyError :=
  (deps.filter (·.importPath = k)).findSome? (·.error)

/-- **A list agrees with itself**: no import path occurs with two different errors. -/
def Unanimous (deps : List Dependency) : Prop :=
  ∀ a ∈ deps, ∀ b ∈ deps, a.importPath = b.importPath →
    ∀ e f, a.error = some e → b.error = some f → e = f

instance (deps : List Dependency) : Decidable (Unanimous deps) :=
  decidable_of_iff
    (∀ a ∈ deps, ∀ b ∈ deps, a.importPath = b.importPath →
      ∀ e ∈ a.error, ∀ f ∈ b.error, e = f)
    (by simp only [Unanimous, Option.mem_def]; grind)

section OfList

variable {deps deps' : List Dependency} {k : String}

/-- The error on record is the first one of the list. -/
theorem errorOf_ofList : (ofList deps).errorOf k = firstError deps k := by
  rw [ofList, errorOf_addAll, errorOf_empty]
  show deps.findSome? _ = (deps.filter _).findSome? _
  induction deps with
  | nil => rfl
  | cons dep deps ih =>
    by_cases here : dep.importPath = k
    · simp [here, List.findSome?_cons, ih]
    · simp [here, ih]

/-- A record that comes first has its error on record. -/
theorem errorOf_ofList_cons {dep : Dependency} {e : DependencyError} (h : dep.error = some e) :
    (ofList (dep :: deps)).errorOf dep.importPath = some e := by
  rw [errorOf_ofList, firstError]
  simp [h]

/-- In a list that agrees with itself, the first error of an import path is any error of it. -/
theorem firstError_eq_some (agree : Unanimous deps) {e : DependencyError} :
    firstError deps k = some e ↔ ∃ dep ∈ deps, dep.importPath = k ∧ dep.error = some e := by
  constructor
  · intro h
    obtain ⟨dep, hd, found⟩ := List.exists_of_findSome?_eq_some h
    obtain ⟨hd, here⟩ := List.mem_filter.1 hd
    exact ⟨dep, hd, by simpa using here, found⟩
  · rintro ⟨dep, hd, here, found⟩
    cases first : firstError deps k with
    | none =>
      have absent := List.findSome?_eq_none_iff.1 first dep (List.mem_filter.2 ⟨hd, by simpa⟩)
      cases found.symm.trans absent
    | some f =>
      obtain ⟨other, ho, found'⟩ := List.exists_of_findSome?_eq_some first
      obtain ⟨ho, there⟩ := List.mem_filter.1 ho
      have same : other.importPath = dep.importPath := by simpa [here] using there
      rw [agree other ho dep hd same f e found' found]

/-- **The order of a list that agrees with itself** does not show in its graph. -/
theorem ofList_perm (agree : Unanimous deps) (h : deps.Perm deps') : ofList deps' = ofList deps := by
  have agree' : Unanimous deps' := fun a ha b hb =>
    agree a (h.mem_iff.2 ha) b (h.mem_iff.2 hb)
  refine ext_of_views (fun k => ?_) (fun k q => ?_) (fun k q => ?_) fun k => ?_
  · simp [h.mem_iff]
  · simp [h.mem_iff]
  · simp [h.mem_iff]
  · refine Option.ext fun e => ?_
    rw [errorOf_ofList, errorOf_ofList, firstError_eq_some agree, firstError_eq_some agree']
    simp [h.mem_iff]

/-- **Which lists may be put in any order**: those that agree with themselves. Of two records with
different errors, either can be put first, and what is on record is then its error. -/
theorem ofList_comm_iff :
    (∀ deps', deps.Perm deps' → ofList deps' = ofList deps) ↔ Unanimous deps := by
  refine ⟨fun comm a ha b hb same e f he hf => ?_, fun agree deps' h => ofList_perm agree h⟩
  have ahead (dep : Dependency) (hd : dep ∈ deps) :
      ofList (dep :: deps.erase dep) = ofList deps :=
    comm _ (List.perm_cons_erase hd)
  have left : (ofList deps).errorOf a.importPath = some e := by
    rw [← ahead a ha, errorOf_ofList_cons he]
  have right : (ofList deps).errorOf b.importPath = some f := by
    rw [← ahead b hb, errorOf_ofList_cons hf]
  rw [same, right] at left
  exact (Option.some.inj left).symm

/-- The records of a graph agree, since no import path has two of them. -/
theorem unanimous_records (g : Graph) : Unanimous g.records := by
  intro a ha b hb same e f he hf
  have found := g.get?_of_mem hb
  rw [← same, g.get?_of_mem ha] at found
  rw [Option.some.inj found, hf] at he
  exact (Option.some.inj he).symm

/-- **A graph is put together again** from its records in any order. -/
theorem ofList_of_perm {g : Graph} (h : deps.Perm g.records) : ofList deps = g :=
  (ofList_perm g.unanimous_records h.symm).trans g.ofList_records

end OfList

/-- **Merging loses nothing and does not depend on the order.** The graph of a list has one record
for every import path in it. Its edges are those of all records of the path, and its error is the
first one among them; so the graph is the same for every order of the list exactly if no import path
occurs with two different errors. Adding records of a graph to it again changes nothing, and its
records, collected in any order, are the graph. -/
theorem ofList_merges (deps : List Dependency) :
    ((ofList deps).importPaths.Nodup ∧
      ∀ k, k ∈ (ofList deps).importPaths ↔ ∃ dep ∈ deps, dep.importPath = k) ∧
    (∀ k dep, (ofList deps).get? k = some dep →
      dep.importPath = k ∧
      (∀ q, q ∈ dep.imports ↔ ∃ d ∈ deps, d.importPath = k ∧ q ∈ d.imports) ∧
      (∀ q, q ∈ dep.importedFrom ↔ ∃ d ∈ deps, d.importPath = k ∧ q ∈ d.importedFrom) ∧
      dep.error = firstError deps k) ∧
    ((∀ deps', deps.Perm deps' → ofList deps' = ofList deps) ↔ Unanimous deps) ∧
    (∀ (g : Graph) (more : List Dependency), (∀ dep ∈ more, dep ∈ g.records) →
      g.addAll more = g) ∧
    ∀ (g : Graph) (collected : List Dependency), collected.Perm g.records → ofList collected = g := by
  refine ⟨⟨nodup_importPaths _, fun k => by simp⟩, fun k dep found => ?_, ofList_comm_iff,
    fun g more own => g.addAll_own own, fun g collected h => ofList_of_perm h⟩
  refine ⟨importPath_of_get? found, fun q => ?_, fun q => ?_, ?_⟩
  · rw [← imports_iff found, imports_ofList]
  · rw [← importedFrom_iff found, importedFrom_ofList]
  · rw [← errorOf_eq found, errorOf_ofList]

/-- Three records, two of them of one import path: the second brings the error, and the graph has it
together with the edges of both. The order does not matter, and the records of the graph, last one
first, are the graph. -/
theorem ofList_merges_repeated :
    let failed : DependencyError := .read "b" "broken"
    let deps : List Dependency :=
      [{ importPath := "b", imports := .ofList ["c"] },
        { importPath := "a", imports := .ofList ["b"] },
        { importPath := "b", imports := .ofList ["a"], importedFrom := .ofList ["a"],
          error := some failed }]
    (ofList deps).importPaths = ["a", "b"] ∧
    (ofList deps).get? "b" = some
      { importPath := "b", imports := .ofList ["a", "c"], importedFrom := .ofList ["a"],
        error := some failed } ∧
    (∃ d ∈ deps, d.importPath = "b" ∧ "c" ∈ d.imports) ∧ firstError deps "b" = some failed ∧
    ofList deps.reverse = ofList deps ∧
    (ofList deps).addAll (ofList deps).records = ofList deps ∧
    ofList (ofList deps).records.reverse = ofList deps := by
  intro failed deps
  have found : (ofList deps).get? "b" = some
      { importPath := "b", imports := .ofList ["a", "c"], importedFrom := .ofList ["a"],
        error := some failed } := by decide +kernel
  have ⟨_, reads, comm, again, collected⟩ := ofList_merges deps
  have ⟨_, imports, _, error⟩ := reads "b" _ found
  refine ⟨by decide +kernel, found, (imports "c").1 (by simp), error.symm, ?_, ?_, ?_⟩
  · exact comm.2 (by decide +kernel) _ (List.reverse_perm deps).symm
  · exact again _ _ fun _ h => h
  · exact collected _ _ (List.reverse_perm _)

end Depot.Graph
