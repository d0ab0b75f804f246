import Depot.Dependency

/-!
# The import graph

A graph holds one record per import path, in the order of import paths. Adding a record for a path
that is there already merges the two, so nothing that was recorded is lost. `record` is how a
package that was read enters the graph: each of its imports learns who imports it, and the package
learns what it imports.
-/

namespace Depot

/-- **All packages on record**, one record per import path. -/
structure Graph where
  /-- The records, by increasing import path. -/
  records : List Dependency
  /-- No import path occurs twice and the order is strict. -/
  sorted : Ordered.Sorted Dependency.importPath records
  deriving DecidableEq

namespace Graph

/-- The graph without packages. -/
def empty : Graph := ⟨[], by simp⟩

instance : Inhabited Graph := ⟨empty⟩

/-- Add a record, merging it into the one of the same import path if there is one. -/
def add (g : Graph) (dep : Dependency) : Graph :=
  ⟨Ordered.insertWith Dependency.importPath Dependency.merge dep g.records,
    Ordered.sorted_insertWith (fun _ _ => rfl) g.sorted⟩

/-- Add several records, one after another. -/
def addAll (g : Graph) (deps : List Dependency) : Graph := deps.foldl add g

/-- The graph of a list of records. -/
def ofList (deps : List Dependency) : Graph := empty.addAll deps

/-- The record of an import path. -/
def get? (g : Graph) (importPath : String) : Option Dependency :=
  Ordered.lookup Dependency.importPath importPath g.records

/-- **Record a package that was read** with its imports: every import gains `importPath` as an
importer, and the package gains the imports as its edges. -/
def record (g : Graph) (importPath : String) (imports : List String) : Graph :=
  let placed := imports.foldl
    (fun g i => g.add { importPath := i, importedFrom := StringSet.empty.insert importPath }) g
  placed.add { importPath, imports := .ofList imports }

/-- The import paths on record, in order. -/
def importPaths (g : Graph) : List String := g.records.map (·.importPath)

/-- The records of packages that could not be read. -/
def failed (g : Graph) : List Dependency := g.records.filter (·.error.isSome)

/-- The number of packages on record. -/
def size (g : Graph) : Nat := g.records.length

/-- Whether no package is on record. -/
def isEmpty (g : Graph) : Bool := g.records.isEmpty

@[simp] theorem records_empty : empty.records = [] := rfl

/-- Two graphs with the same records are one graph. -/
theorem eq_of_records {g h : Graph} (e : g.records = h.records) : g = h := by
  cases g; cases h; simp_all

/-- What is found under an import path is the record of that path. -/
theorem importPath_of_get? {g : Graph} {importPath : String} {dep : Dependency}
    (h : g.get? importPath = some dep) : dep.importPath = importPath :=
  ((Ordered.lookup_eq_some_iff g.sorted).1 h).2

@[simp] theorem get?_empty (importPath : String) : empty.get? importPath = none := rfl

/-- **What adding a record changes**: the record of its import path, and nothing else. -/
theorem get?_add (g : Graph) (dep : Dependency) (importPath : String) :
    (g.add dep).get? importPath =
      if dep.importPath = importPath then
        some (((g.get? importPath).map (·.merge dep)).getD dep)
      else g.get? importPath :=
  Ordered.lookup_insertWith (fun _ _ => rfl) g.sorted

/-- **Two graphs with the same record under every import path are one graph.** -/
theorem ext {g h : Graph} (e : ∀ importPath, g.get? importPath = h.get? importPath) : g = h := by
  refine eq_of_records (Ordered.eq_of_mem_iff g.sorted h.sorted fun dep => ?_)
  have found (g : Graph) : dep ∈ g.records ↔ g.get? dep.importPath = some dep := by
    simp [get?, Ordered.lookup_eq_some_iff g.sorted]
  rw [found, found, e]

end Graph

end Depot
