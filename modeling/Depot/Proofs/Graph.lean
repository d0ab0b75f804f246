import Depot.Graph

/-!
# What a graph says

A graph is read through four views: which import paths are on record, which imports a record has,
which importers, and which error. Two graphs with the same views are the same graph
(`ext_of_views`), so what a graph says can be computed view by view.

Adding a record adds to each view what the record says, and the error of an import path is the first
one added for it. The views of a graph therefore do not depend on the order in which edges arrive,
and a record that an importer puts in for a package it names is never lost when the package itself
follows.
-/

namespace Depot.Graph

/-- The import path is on record. -/
def Has (g : Graph) (path : String) : Prop := ∃ dep, g.get? path = some dep

/-- The record of `path` names `other` as an import. -/
def Imports (g : Graph) (path other : String) : Prop :=
  ∃ dep, g.get? path = some dep ∧ other ∈ dep.imports

/-- The record of `path` names `other` as an importer. -/
def ImportedFrom (g : Graph) (path other : String) : Prop :=
  ∃ dep, g.get? path = some dep ∧ other ∈ dep.importedFrom

/-- The error on record for an import path. -/
def errorOf (g : Graph) (path : String) : Option DependencyError := (g.get? path).bind (·.error)

/-- The import paths of the graph are those on record. -/
@[simp] theorem mem_importPaths {g : Graph} {path : String} :
    path ∈ g.importPaths ↔ g.Has path := by
  unfold importPaths Has
  rw [List.mem_map]
  exact exists_congr fun dep => (Ordered.lookup_eq_some_iff g.sorted).symm

section Found

variable {g : Graph} {dep : Dependency} {path other : String}

theorem imports_iff (h : g.get? path = some dep) : g.Imports path other ↔ other ∈ dep.imports := by
  simp [Imports, h]

theorem importedFrom_iff (h : g.get? path = some dep) :
    g.ImportedFrom path other ↔ other ∈ dep.importedFrom := by
  simp [ImportedFrom, h]

theorem errorOf_eq (h : g.get? path = some dep) : g.errorOf path = dep.error := by
  simp [errorOf, h]

/-- Where no record has an error, none is on record. -/
theorem errorOf_eq_none (sound : ∀ dep ∈ g.records, dep.error = none) (path : String) :
    g.errorOf path = none := by
  cases found : g.get? path with
  | none => rw [errorOf, found, Option.bind_none]
  | some dep =>
    rw [errorOf_eq found]
    exact sound dep ((Ordered.lookup_eq_some_iff g.sorted).1 found).1

end Found

/-- **Two graphs that say the same are one graph.** -/
theorem ext_of_views {g h : Graph} (has : ∀ p, g.Has p ↔ h.Has p)
    (imports : ∀ p q, g.Imports p q ↔ h.Imports p q)
    (importedFrom : ∀ p q, g.ImportedFrom p q ↔ h.ImportedFrom p q)
    (error : ∀ p, g.errorOf p = h.errorOf p) : g = h := by
  refine Graph.ext fun p => ?_
  rcases hg : g.get? p with _ | a <;> rcases hh : h.get? p with _ | b
  · rfl
  · obtain ⟨dep, found⟩ := (has p).2 ⟨b, hh⟩
    cases hg.symm.trans found
  · obtain ⟨dep, found⟩ := (has p).1 ⟨a, hg⟩
    cases hh.symm.trans found
  · have path : a.importPath = b.importPath :=
      (importPath_of_get? hg).trans (importPath_of_get? hh).symm
    have same : a.imports = b.imports := StringSet.ext fun q => by
      rw [← imports_iff hg, ← imports_iff hh, imports p q]
    have back : a.importedFrom = b.importedFrom := StringSet.ext fun q => by
      rw [← importedFrom_iff hg, ← importedFrom_iff hh, importedFrom p q]
    have trouble : a.error = b.error := by rw [← errorOf_eq hg, ← errorOf_eq hh, error p]
    cases a
    cases b
    simp_all

/-! ## Adding records -/

section Add

variable (g : Graph) (dep : Dependency) (deps more : List Dependency) (p q : String)

@[simp] theorem not_has_empty : ¬ empty.Has p := by simp [Has]

@[simp] theorem not_imports_empty : ¬ empty.Imports p q := by simp [Imports]

@[simp] theorem not_importedFrom_empty : ¬ empty.ImportedFrom p q := by simp [ImportedFrom]

@[simp] theorem errorOf_empty : empty.errorOf p = none := rfl

@[simp] theorem has_add : (g.add dep).Has p ↔ g.Has p ∨ dep.importPath = p := by
  unfold Has
  rw [get?_add]
  split
  · next h => simp [h]
  · next h => simp [h]

@[simp] theorem imports_add :
    (g.add dep).Imports p q ↔ g.Imports p q ∨ (dep.importPath = p ∧ q ∈ dep.imports) := by
  unfold Imports
  rw [get?_add]
  split
  · next h => cases g.get? p <;> simp [h]
  · next h => simp [h]

@[simp] theorem importedFrom_add :
    (g.add dep).ImportedFrom p q ↔
      g.ImportedFrom p q ∨ (dep.importPath = p ∧ q ∈ dep.importedFrom) := by
  unfold ImportedFrom
  rw [get?_add]
  split
  · next h => cases g.get? p <;> simp [h]
  · next h => simp [h]

/-- An error that is on record stays; otherwise the record that is added may bring one. -/
@[simp] theorem errorOf_add :
    (g.add dep).errorOf p =
      (g.errorOf p <|> if dep.importPath = p then dep.error else none) := by
  unfold errorOf
  rw [get?_add]
  split
  · next h => cases g.get? p <;> simp
  · next h => simp

@[simp] theorem addAll_nil : g.addAll [] = g := rfl

@[simp] theorem addAll_cons : g.addAll (dep :: deps) = (g.add dep).addAll deps := rfl

theorem addAll_append : g.addAll (deps ++ more) = (g.addAll deps).addAll more :=
  List.foldl_append

@[simp] theorem has_addAll :
    (g.addAll deps).Has p ↔ g.Has p ∨ ∃ dep ∈ deps, dep.importPath = p := by
  induction deps generalizing g with
  | nil => simp
  | cons dep deps ih => simp [ih, or_assoc]

@[simp] theorem imports_addAll :
    (g.addAll deps).Imports p q ↔
      g.Imports p q ∨ ∃ dep ∈ deps, dep.importPath = p ∧ q ∈ dep.imports := by
  induction deps generalizing g with
  | nil => simp
  | cons dep deps ih => simp [ih, or_assoc]

@[simp] theorem importedFrom_addAll :
    (g.addAll deps).ImportedFrom p q ↔
      g.ImportedFrom p q ∨ ∃ dep ∈ deps, dep.importPath = p ∧ q ∈ dep.importedFrom := by
  induction deps generalizing g with
  | nil => simp
  | cons dep deps ih => simp [ih, or_assoc]

/-- The error on record is the first one that was added for the import path. -/
theorem errorOf_addAll :
    (g.addAll deps).errorOf p =
      (g.errorOf p <|>
        deps.findSome? fun dep => if dep.importPath = p then dep.error else none) := by
  -- the first error stays, whether it was there before or comes with an earlier record
  induction deps generalizing g with
  | nil => simp
  | cons dep deps ih =>
    rw [addAll_cons, ih, errorOf_add, List.findSome?_cons]
    cases g.errorOf p <;> cases (if dep.importPath = p then dep.error else none) <;> rfl

end Add

/-! ## The graph of a list of records -/

section OfList

variable {deps : List Dependency} {p q : String}

theorem addAll_ofList (deps more : List Dependency) :
    (ofList deps).addAll more = ofList (deps ++ more) :=
  (addAll_append empty deps more).symm

@[simp] theorem has_ofList : (ofList deps).Has p ↔ ∃ dep ∈ deps, dep.importPath = p := by
  simp [ofList]

@[simp] theorem imports_ofList :
    (ofList deps).Imports p q ↔ ∃ dep ∈ deps, dep.importPath = p ∧ q ∈ dep.imports := by
  simp [ofList]

@[simp] theorem importedFrom_ofList :
    (ofList deps).ImportedFrom p q ↔ ∃ dep ∈ deps, dep.importPath = p ∧ q ∈ dep.importedFrom := by
  simp [ofList]

/-- An error on record was brought by some record of the list. -/
theorem exists_of_errorOf_ofList {e : DependencyError} (h : (ofList deps).errorOf p = some e) :
    ∃ dep ∈ deps, dep.importPath = p ∧ dep.error = some e := by
  rw [ofList, errorOf_addAll, errorOf_empty] at h
  obtain ⟨dep, hd, found⟩ := List.exists_of_findSome?_eq_some h
  split at found
  · next path => exact ⟨dep, hd, path, found⟩
  · cases found

/-- No error is on record exactly if no record of the list brings one. -/
theorem errorOf_ofList_eq_none :
    (ofList deps).errorOf p = none ↔ ∀ dep ∈ deps, dep.importPath = p → dep.error = none := by
  rw [ofList, errorOf_addAll, errorOf_empty]
  show List.findSome? _ deps = none ↔ _
  rw [List.findSome?_eq_none_iff]
  refine forall₂_congr fun dep _ => ?_
  split
  · next h => simp [h]
  · next h => simp [h]

/-- A record that comes after all others is put at the end. -/
theorem records_add_of_lt {g : Graph} {dep : Dependency}
    (last : ∀ d ∈ g.records, compare d.importPath dep.importPath = .lt) :
    (g.add dep).records = g.records ++ [dep] :=
  Ordered.insertWith_of_last last

/-- Records in order that come after all others are put at the end. -/
theorem records_addAll {g : Graph}
    (sorted : Ordered.Sorted Dependency.importPath (g.records ++ deps)) :
    (g.addAll deps).records = g.records ++ deps := by
  induction deps generalizing g with
  | nil => simp
  | cons dep deps ih =>
    have last : ∀ d ∈ g.records, compare d.importPath dep.importPath = .lt := fun d hd =>
      (List.pairwise_append.1 sorted).2.2 d hd dep List.mem_cons_self
    have added : (g.add dep).records ++ deps = g.records ++ dep :: deps := by
      rw [records_add_of_lt last, List.append_assoc, List.singleton_append]
    rw [addAll_cons, ih (by rwa [added]), added]

/-- **The graph of records in order** has just these records. -/
theorem records_ofList (sorted : Ordered.Sorted Dependency.importPath deps) :
    (ofList deps).records = deps :=
  records_addAll (g := empty) sorted

/-- The part of a graph with the records that are wanted. -/
def only (wanted : Dependency → Bool) (g : Graph) : Graph :=
  ⟨g.records.filter wanted, g.sorted.filter _⟩

theorem ofList_filter (wanted : Dependency → Bool) (g : Graph) :
    ofList (g.records.filter wanted) = g.only wanted :=
  eq_of_records (records_ofList (g.sorted.filter _))

end OfList

/-- What is said of some record that one of several sources brings. -/
theorem exists_mem_flatMap {α : Type} {sources : List α} {records : α → List Dependency}
    {P : Dependency → Prop} :
    (∃ dep ∈ sources.flatMap records, P dep) ↔ ∃ a ∈ sources, ∃ dep ∈ records a, P dep := by
  simp only [List.mem_flatMap]
  constructor
  · rintro ⟨dep, ⟨a, ha, hd⟩, h⟩
    exact ⟨a, ha, dep, hd, h⟩
  · rintro ⟨a, ha, dep, hd, h⟩
    exact ⟨dep, ⟨a, ha, hd⟩, h⟩

/-! ## Recording a package -/

/-- What naming an import puts on record: that the package imports it. -/
def placeholder (package name : String) : Dependency :=
  { importPath := name, importedFrom := StringSet.empty.insert package }

/-- **The records of a package that was read**: one for each import, then its own. -/
def recordsOf (package : String) (imports : List String) : List Dependency :=
  imports.map (placeholder package) ++ [{ importPath := package, imports := .ofList imports }]

theorem record_eq_addAll (g : Graph) (package : String) (imports : List String) :
    g.record package imports = g.addAll (recordsOf package imports) := by
  rw [recordsOf, addAll_append]
  show (imports.foldl _ g).add _ = ((imports.map (placeholder package)).foldl add g).add _
  rw [List.foldl_map]
  rfl

section RecordsOf

variable {package p q : String} {imports : List String}

/-- The records of a package are its own and those of its imports. -/
theorem exists_mem_recordsOf {P : Dependency → Prop} :
    (∃ dep ∈ recordsOf package imports, P dep) ↔
      P { importPath := package, imports := .ofList imports } ∨
        ∃ i ∈ imports, P (placeholder package i) := by
  constructor
  · rintro ⟨dep, hd, h⟩
    rcases List.mem_append.1 hd with hd | hd
    · obtain ⟨i, hi, rfl⟩ := List.mem_map.1 hd
      exact .inr ⟨i, hi, h⟩
    · obtain rfl := List.mem_singleton.1 hd
      exact .inl h
  · rintro (h | ⟨i, hi, h⟩)
    · exact ⟨_, List.mem_append_right _ (List.mem_singleton_self _), h⟩
    · exact ⟨_, List.mem_append_left _ (List.mem_map_of_mem hi), h⟩

/-- Recording a package puts itself and its imports on record. -/
@[simp] theorem exists_recordsOf :
    (∃ dep ∈ recordsOf package imports, dep.importPath = p) ↔ p = package ∨ p ∈ imports := by
  rw [exists_mem_recordsOf]
  simp [placeholder, eq_comm]

@[simp] theorem exists_imports_recordsOf :
    (∃ dep ∈ recordsOf package imports, dep.importPath = p ∧ q ∈ dep.imports) ↔
      p = package ∧ q ∈ imports := by
  rw [exists_mem_recordsOf]
  simp [placeholder, eq_comm]

@[simp] theorem exists_importedFrom_recordsOf :
    (∃ dep ∈ recordsOf package imports, dep.importPath = p ∧ q ∈ dep.importedFrom) ↔
      q = package ∧ p ∈ imports := by
  rw [exists_mem_recordsOf]
  constructor
  · rintro (⟨-, absent⟩ | ⟨i, hi, rfl, edge⟩)
    · exact absurd absent (StringSet.not_mem_empty q)
    · exact ⟨by simpa [placeholder] using edge, hi⟩
  · rintro ⟨rfl, hp⟩
    exact .inr ⟨p, hp, rfl, by simp [placeholder]⟩

theorem error_of_mem_recordsOf {dep : Dependency} (h : dep ∈ recordsOf package imports) :
    dep.error = none := by
  rcases List.mem_append.1 h with h | h
  · obtain ⟨other, -, rfl⟩ := List.mem_map.1 h
    rfl
  · obtain rfl := List.mem_singleton.1 h
    rfl

theorem errorOf_record (g : Graph) : (g.record package imports).errorOf p = g.errorOf p := by
  have sound : ((recordsOf package imports).findSome? fun dep =>
      if dep.importPath = p then dep.error else none) = none :=
    List.findSome?_eq_none_iff.2 fun dep hd => by simp [error_of_mem_recordsOf hd]
  rw [record_eq_addAll, errorOf_addAll, sound]
  cases g.errorOf p <;> rfl

/-- **In which order imports are listed, and how often, does not matter.** -/
theorem record_congr (g : Graph) {others : List String} (h : ∀ i, i ∈ imports ↔ i ∈ others) :
    g.record package imports = g.record package others := by
  refine ext_of_views (fun p => ?_) (fun p q => ?_) (fun p q => ?_) fun p => ?_
  · simp [record_eq_addAll, h]
  · simp [record_eq_addAll, h]
  · simp [record_eq_addAll, h]
  · rw [errorOf_record, errorOf_record]

end RecordsOf

/-- Recording packages one after another adds the edges from each to its imports. -/
theorem imports_foldl_record (g : Graph) (read : List (String × List String)) (p q : String) :
    (read.foldl (fun g r => g.record r.1 r.2) g).Imports p q ↔
      g.Imports p q ∨ ∃ r ∈ read, p = r.1 ∧ q ∈ r.2 := by
  induction read generalizing g with
  | nil => simp
  | cons r read ih =>
    rw [List.foldl_cons, ih, record_eq_addAll, imports_addAll, exists_imports_recordsOf, or_assoc]
    simp only [List.mem_cons, or_and_right, exists_or, exists_eq_left]

/-- **The graph of packages** that were read without error, given their imports. -/
def ofPackages (imports : String → List String) (packages : List String) : Graph :=
  ofList (packages.flatMap fun package => recordsOf package (imports package))

section OfPackages

variable {imports : String → List String} {packages : List String} {p q : String}

theorem record_ofPackages (imports : String → List String) (packages : List String)
    (package : String) :
    (ofPackages imports packages).record package (imports package)
      = ofPackages imports (packages ++ [package]) := by
  rw [record_eq_addAll, ofPackages, addAll_ofList, ofPackages, List.flatMap_append,
    List.flatMap_singleton]

/-- The packages and what they import are on record. -/
@[simp] theorem has_ofPackages :
    (ofPackages imports packages).Has p ↔ ∃ q ∈ packages, p = q ∨ p ∈ imports q := by
  rw [ofPackages, has_ofList, exists_mem_flatMap]
  simp

@[simp] theorem imports_ofPackages :
    (ofPackages imports packages).Imports p q ↔ p ∈ packages ∧ q ∈ imports p := by
  rw [ofPackages, imports_ofList, exists_mem_flatMap]
  simp only [exists_imports_recordsOf]
  constructor
  · rintro ⟨_, hp, rfl, hq⟩
    exact ⟨hp, hq⟩
  · rintro ⟨hp, hq⟩
    exact ⟨p, hp, rfl, hq⟩

/-- The edges back are the same, the other way round. -/
@[simp] theorem importedFrom_ofPackages :
    (ofPackages imports packages).ImportedFrom p q ↔ q ∈ packages ∧ p ∈ imports q := by
  rw [ofPackages, importedFrom_ofList, exists_mem_flatMap]
  simp only [exists_importedFrom_recordsOf]
  constructor
  · rintro ⟨_, hq, rfl, hp⟩
    exact ⟨hq, hp⟩
  · rintro ⟨hq, hp⟩
    exact ⟨q, hq, rfl, hp⟩

@[simp] theorem errorOf_ofPackages : (ofPackages imports packages).errorOf p = none := by
  rw [ofPackages, errorOf_ofList_eq_none]
  intro dep hd _
  obtain ⟨package, -, hd⟩ := List.mem_flatMap.1 hd
  exact error_of_mem_recordsOf hd

/-- The imports on record of a package that was read are those it has. -/
theorem imports_eq_of_mem {dep : Dependency} (read : p ∈ packages)
    (found : (ofPackages imports packages).get? p = some dep) :
    dep.imports = .ofList (imports p) :=
  StringSet.ext fun q => by
    rw [← imports_iff found, imports_ofPackages, StringSet.mem_ofList]
    exact and_iff_right read

/-- **Neither order nor repetition matter.** -/
theorem ofPackages_congr {packages' : List String} (h : ∀ p, p ∈ packages ↔ p ∈ packages') :
    ofPackages imports packages = ofPackages imports packages' := by
  refine ext_of_views (fun p => ?_) (fun p q => ?_) (fun p q => ?_) fun p => ?_
  · simp [h]
  · simp [h]
  · simp [h]
  · simp

end OfPackages

end Depot.Graph
