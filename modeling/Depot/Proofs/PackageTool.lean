import Depot.Operation
import Depot.PackageTool

/-!
# Reading packages by their descriptions

The package tool describes a package once, with the imports of its test files beside the others.
Whether these count is decided only when the description is made into imports. So a package that is
read with its tests shows all the imports that it shows without them, and it is in the same kind of
trouble (`ExtendedBy`).

Such a package may still be recorded differently: one that is in trouble and has test imports only
is recorded with its error if they do not count, and as if it had none if they do.
-/

namespace Depot

/-- **The reader of packages that someone describes**, with or without the imports of test files. -/
def PackageReader.describing {σ : Type} (describe : Path → Attempt σ ListedPackage) (tests : Bool) :
    PackageReader σ where
  read dir s :=
    match describe dir s with
    | (.ok listed, s) =>
      ({ imports := listed.remoteImports tests, error := listed.error.map .package }, s)
    | (.error fault, s) => ({ error := some (.tool fault) }, s)

/-- **The package tool is such a reader**, and describes packages the same way whether tests count
or not. -/
theorem PackageTool.reader_eq (tool : PackageTool) (tests : Bool) :
    ({ tool with tests } : PackageTool).reader = .describing tool.describe tests := by
  have same : ({ tool with tests } : PackageTool).describe = tool.describe := rfl
  unfold reader PackageReader.describing
  rw [same]
  refine congrArg PackageReader.mk (funext fun dir => funext fun w => ?_)
  rcases tool.describe dir w with ⟨_ | _, _⟩ <;> rfl

/-- What an operation works with that reads packages of a world by their descriptions. -/
def Means.describing (describe : Path → Attempt World ListedPackage) (resolver : RepoResolver World)
    (tests : Bool) (budget : Nat) : Means World where
  files := World.files
  reader := .describing describe tests
  resolver := resolver
  budget := budget

/-- What an operation works with that reads packages of a world with the package tool. -/
def Means.ofTool (tool : PackageTool) (resolver : RepoResolver World) (tests : Bool) (budget : Nat) :
    Means World where
  files := World.files
  reader := ({ tool with tests } : PackageTool).reader
  resolver := resolver
  budget := budget

theorem Means.ofTool_eq (tool : PackageTool) (resolver : RepoResolver World) (tests : Bool)
    (budget : Nat) :
    Means.ofTool tool resolver tests budget = .describing tool.describe resolver tests budget := by
  rw [ofTool, describing, PackageTool.reader_eq]

/-- **Which imports count.** -/
theorem ListedPackage.mem_remoteImports {listed : ListedPackage} {tests : Bool} {i : String} :
    i ∈ listed.remoteImports tests ↔ ImportPath.isRemote i = true ∧
      (i ∈ listed.imports ∨
        (tests = true ∧ (i ∈ listed.testImports ∨ i ∈ listed.externalTestImports))) := by
  unfold remoteImports
  rw [StringSet.mem_toList, StringSet.mem_ofList, List.mem_filter, and_comm]
  cases tests <;> simp

/-- **What was read of a package shows in what was read with more imports**: all its imports, and
the kind of trouble it is in. -/
structure PackageImports.ExtendedBy (less more : PackageImports) : Prop where
  /-- All imports are there. -/
  imports : ∀ i ∈ less.imports, i ∈ more.imports
  /-- Either both have an error or none has, and both errors say that there is no package or none
  does. -/
  error : less.error.map (·.isNoBuildable) = more.error.map (·.isNoBuildable)

theorem PackageImports.ExtendedBy.error_eq_none_iff {less more : PackageImports}
    (h : less.ExtendedBy more) : less.error = none ↔ more.error = none := by
  rw [← Option.map_eq_none_iff, h.error, Option.map_eq_none_iff]

namespace PackageReader

variable {σ : Type} {describe : Path → Attempt σ ListedPackage} {dir dir' : Path} {s : σ}

/-- **Counting tests extends what is read**, if both times the same description is given, or none.
-/
theorem extendedBy_describing
    (same : (describe dir s).1.toOption = (describe dir' s).1.toOption) :
    ((PackageReader.describing describe false).read dir s).1.ExtendedBy
      ((PackageReader.describing describe true).read dir' s).1 := by
  simp only [describing]
  rcases here : describe dir s with ⟨fault | listed, t⟩ <;>
    rcases there : describe dir' s with ⟨fault' | listed', t'⟩ <;> rw [here, there] at same
  · exact ⟨fun i hi => absurd hi List.not_mem_nil, rfl⟩
  · cases same
  · cases same
  · obtain rfl : listed = listed' := Option.some.inj same
    refine ⟨fun i hi => ?_, rfl⟩
    obtain ⟨remote, ⟨hi⟩ | ⟨absurd, -⟩⟩ := ListedPackage.mem_remoteImports.1 hi
    · exact ListedPackage.mem_remoteImports.2 ⟨remote, .inl hi⟩
    · cases absurd

end PackageReader

end Depot
