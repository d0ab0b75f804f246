import Depot.Proofs.Path
import Depot.Workspace
import Mathlib.Data.List.Basic

/-!
# Import paths and directories

The directory of an import path lies below the source directory, one component for each segment that
names one. A directory has an import path if it lies below the source directory by plain names
alone, and then the import path leads back to it. So no two directories share an import path.
-/

namespace Depot

/-- **An import path of ordinary segments**: none is empty, `.` or `..`. -/
def ImportPath.Ordinary (importPath : String) : Prop :=
  ∀ segment ∈ Segments.ofString importPath, segment ≠ "" ∧ segment ≠ "." ∧ segment ≠ ".."

instance (importPath : String) : Decidable (ImportPath.Ordinary importPath) :=
  inferInstanceAs (Decidable (∀ segment ∈ Segments.ofString importPath, _))

namespace Workspace

open Component

variable {w : Workspace} {p q : Path} {name : String}

theorem text_srcDir_ne_empty (w : Workspace) : w.srcDir.text ≠ "" := by
  have relative : (Path.mk "src").isAbsolute = false := by decide
  unfold srcDir Path.join
  rw [relative, if_neg (by simp)]
  split <;> simp

theorem components_srcDir_ne_nil (w : Workspace) : w.srcDir.components ≠ [] := by
  unfold srcDir
  by_cases text : w.root.text = ""
  · have alone : w.root.join "src" = ⟨"src"⟩ := by simp [Path.join, Path.isAbsolute, text]
    rw [alone]
    decide
  · rw [Path.components_join text (by decide)]
    simp [Segments.split, ofSegment]

/-- **The components of a package's directory.** -/
theorem components_packageSource (w : Workspace) (importPath : String) :
    (w.packageSource importPath).components =
      w.srcDir.components ++ (Segments.split importPath.toList).filterMap ofSegment := by
  have segments : ∀ s ∈ Segments.split importPath.toList, '/' ∉ s :=
    fun s hs => Segments.slash_notMem_of_mem_split hs
  unfold packageSource
  generalize Segments.split importPath.toList = ss at segments ⊢
  have text := w.text_srcDir_ne_empty
  generalize w.srcDir = dir at text ⊢
  induction ss generalizing dir with
  | nil => simp
  | cons s ss ih =>
    rw [List.forall_mem_cons] at segments
    by_cases empty : s = []
    · simpa [empty, ofSegment] using ih segments.2 dir text
    · have relative : (Path.mk (String.ofList s)).isAbsolute = false :=
        Path.isAbsolute_of_slash_notMem (by simpa using segments.1)
      have next :=
        ih segments.2 (dir.join (String.ofList s)) (Path.text_join_ne_empty text relative)
      rw [Path.components_join text relative, String.toList_ofList,
        Segments.split_of_slash_notMem segments.1, List.append_assoc,
        ← List.filterMap_append] at next
      simpa [empty] using next

/-- Components have names exactly if they are names. -/
theorem mapM_nameOf_eq_some {components : List Component} {names : List String} :
    components.mapM nameOf = some names ↔ components = names.map normal := by
  constructor
  · intro h
    induction components generalizing names with
    | nil =>
      obtain rfl : [] = names := by simpa using h
      rfl
    | cons c cs ih =>
      cases c with
      | normal name =>
        rcases found : cs.mapM nameOf with _ | rest
        · simp [nameOf, found] at h
        · obtain rfl : name :: rest = names := by simpa [nameOf, found] using h
          rw [List.map_cons, ih found]
      | _ => simp [nameOf] at h
  · rintro rfl
    induction names with
    | nil => rfl
    | cons name names ih => simp [nameOf, ih]

/-- **Which directories have an import path**, and which it is. -/
theorem packageName_eq_ok :
    w.packageName p = .ok name ↔
      ∃ names, p.components = w.srcDir.components ++ names.map normal ∧
        name = "/".intercalate names := by
  unfold packageName Path.below?
  constructor
  · intro h
    rcases found : (w.srcDir.components.isPrefixOf? p.components).bind (·.mapM nameOf) with
      _ | names
    · rw [found] at h
      cases h
    · rw [found] at h
      obtain ⟨rest, below, named⟩ := Option.bind_eq_some_iff.1 found
      rw [List.isPrefixOf?_eq_some_iff_append_eq] at below
      exact ⟨names, by rw [← below, mapM_nameOf_eq_some.1 named], (Except.ok.inj h).symm⟩
  · rintro ⟨names, below, rfl⟩
    have rest : w.srcDir.components.isPrefixOf? p.components = some (names.map normal) :=
      List.isPrefixOf?_eq_some_iff_append_eq.2 below.symm
    rw [rest, Option.bind_some, mapM_nameOf_eq_some.2 rfl]

/-- The import path does not depend on how the directory is written. -/
theorem packageName_congr (same : p.components = q.components) :
    w.packageName p = .ok name ↔ w.packageName q = .ok name := by
  rw [packageName_eq_ok, packageName_eq_ok, same]

theorem isSrcDir_congr (same : p.components = q.components) : w.isSrcDir p = w.isSrcDir q := by
  unfold isSrcDir Path.same
  rw [same]

theorem plain_of_components {names : List String}
    (h : p.components = w.srcDir.components ++ names.map normal) : ∀ name ∈ names, Plain name := by
  intro name hn
  have mem : normal name ∈ p.components := by
    rw [h]
    exact List.mem_append_right _ (List.mem_map_of_mem hn)
  exact Path.plain_of_mem_components mem

/-- **The import path of a directory leads back to it.** -/
theorem components_packageSource_of_packageName (h : w.packageName p = .ok name) :
    (w.packageSource name).components = p.components := by
  obtain ⟨names, below, rfl⟩ := packageName_eq_ok.1 h
  have plain := plain_of_components below
  rw [components_packageSource, below]
  congr 1
  cases names with
  | nil => rfl
  | cons name names =>
    rw [Segments.split_intercalate (fun n hn => (plain n hn).2.2.2) (by simp)]
    exact Path.filterMap_ofSegment_of_plain plain

theorem components_eq_of_packageName (hp : w.packageName p = .ok name)
    (hq : w.packageName q = .ok name) : p.components = q.components := by
  rw [← components_packageSource_of_packageName hp, components_packageSource_of_packageName hq]

theorem text_ne_empty_of_packageName (h : w.packageName p = .ok name) : p.text ≠ "" := by
  obtain ⟨names, below, -⟩ := packageName_eq_ok.1 h
  intro empty
  have nothing : p.components = [] := by
    rw [Path.components_eq_read, empty]
    rfl
  rw [nothing] at below
  exact w.components_srcDir_ne_nil (List.append_eq_nil_iff.1 below.symm).1

/-- **A path that is placed for a package**: it lies below the source directory, be it by going up,
or it is absolute. -/
def Placed (w : Workspace) (p : Path) : Prop :=
  w.srcDir.components <+: p.components ∨ p.isAbsolute = true

theorem Placed.of_packageName (h : w.packageName p = .ok name) : w.Placed p := by
  obtain ⟨names, below, -⟩ := packageName_eq_ok.1 h
  exact .inl ⟨_, below.symm⟩

theorem placed_packageSource (w : Workspace) (importPath : String) :
    w.Placed (w.packageSource importPath) :=
  .inl ⟨_, (w.components_packageSource importPath).symm⟩

/-- So is whatever is joined to a directory that has an import path. -/
theorem Placed.join (h : w.packageName p = .ok name) (q : String) : w.Placed (p.join q) := by
  obtain ⟨names, below, -⟩ := packageName_eq_ok.1 h
  by_cases absolute : (Path.mk q).isAbsolute = true
  · refine .inr ?_
    rwa [Path.join, if_pos absolute]
  · rw [Bool.not_eq_true] at absolute
    refine .inl ⟨names.map normal ++ (Segments.split q.toList).filterMap ofSegment, ?_⟩
    rw [Path.components_join (text_ne_empty_of_packageName h) absolute, below, List.append_assoc]

/-- **A placed path without an import path is not written like one**: its text is no import path of
another directory. -/
theorem packageName_of_text (placed : w.Placed q) (h : w.packageName p = .ok q.text) :
    ∃ name, w.packageName q = .ok name := by
  obtain ⟨names, below, text⟩ := packageName_eq_ok.1 h
  have written : q.components = names.map normal := by
    have := Path.components_of_plain (plain_of_components below)
    rwa [← text] at this
  -- written in plain names only, it goes up nowhere and does not begin at the root
  rcases placed with ⟨rest, placed⟩ | absolute
  · have split : rest = (names.drop w.srcDir.components.length).map normal := by
      have := congrArg (List.drop w.srcDir.components.length) (placed.trans written)
      rwa [List.drop_left, ← List.map_drop] at this
    exact ⟨_, packageName_eq_ok.2 ⟨_, by rw [← placed, split], rfl⟩⟩
  · have := Path.root_mem_components absolute
    rw [written] at this
    simp at this

/-! ## Import paths of ordinary segments -/

section Ordinary

variable {importPath : String}

/-- An ordinary segment of an import path is a plain name. -/
theorem plain_of_mem_ofString {segment : String} (h : segment ∈ Segments.ofString importPath)
    (ordinary : segment ≠ "" ∧ segment ≠ "." ∧ segment ≠ "..") : Plain segment := by
  obtain ⟨nonempty, here, up⟩ := ordinary
  obtain ⟨chars, hc, rfl⟩ := List.mem_map.1 h
  simp only [ne_eq, ← String.toList_inj, String.toList_ofList] at nonempty here up
  rw [Plain, String.toList_ofList]
  exact ⟨nonempty, here, up, Segments.slash_notMem_of_mem_split hc⟩

theorem plain_of_ordinary (ordinary : ImportPath.Ordinary importPath) :
    ∀ segment ∈ Segments.ofString importPath, Plain segment :=
  fun segment hs => plain_of_mem_ofString hs (ordinary segment hs)

/-- **Each ordinary segment names one component** of the package's directory. -/
theorem components_packageSource_of_ordinary (w : Workspace)
    (ordinary : ImportPath.Ordinary importPath) :
    (w.packageSource importPath).components =
      w.srcDir.components ++ (Segments.ofString importPath).map normal := by
  rw [components_packageSource, ← Segments.map_toList_ofString,
    Path.filterMap_ofSegment_of_plain (plain_of_ordinary ordinary)]

/-- **An ordinary import path is that of its directory.** -/
theorem packageName_packageSource (w : Workspace) (ordinary : ImportPath.Ordinary importPath) :
    w.packageName (w.packageSource importPath) = .ok importPath := by
  refine packageName_eq_ok.2 ⟨_, components_packageSource_of_ordinary w ordinary, ?_⟩
  rw [Segments.ofString, Segments.intercalate_split, String.ofList_toList]

theorem isSrcDir_packageSource (w : Workspace) (ordinary : ImportPath.Ordinary importPath) :
    w.isSrcDir (w.packageSource importPath) = false := by
  unfold isSrcDir Path.same
  rw [components_packageSource_of_ordinary w ordinary]
  simp [Segments.ofString, Segments.split_ne_nil]

end Ordinary

end Workspace

end Depot
