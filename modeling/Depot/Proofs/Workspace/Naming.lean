import Depot.Proofs.Workspace
import Depot.Proofs.Disk.Spelling

/-!
# Import paths and directories, back and forth

Going from a directory to its import path and back ends where it began, as far as paths mean
something: the text may differ in slashes and dots. Going from an import path to its directory and
back does not quite. The segments that count when a path is looked up (`Segments.solid`) are kept,
the others are dropped, and a `..` among them leaves no import path at all, even where the directory
lies in the source directory again.
-/

namespace Depot

namespace Component

variable {segments : List (List Char)}

theorem up_mem_filterMap_ofSegment (h : ['.', '.'] ∈ segments) :
    up ∈ segments.filterMap ofSegment :=
  List.mem_filterMap.2 ⟨_, h, by decide⟩

/-- Segments none of which goes up stand for the names that count among them. -/
theorem filterMap_ofSegment_of_no_up (h : ['.', '.'] ∉ segments) :
    segments.filterMap ofSegment =
      (Segments.solid (segments.map String.ofList)).map normal := by
  rw [filterMap_ofSegment]
  refine List.map_congr_left fun segment hs => ofName_of_ne ?_
  rintro rfl
  obtain ⟨s, hs, parent⟩ := List.mem_map.1 (Segments.mem_solid.1 hs).1
  obtain rfl : s = ['.', '.'] := by simpa using congrArg String.toList parent
  exact h hs

end Component

namespace Workspace

open Component

variable {w : Workspace} {p q : Path} {importPath : String}

/-- A directory without import path is said to be outside the source directory. -/
theorem packageName_eq_outsideSource
    (h : ∀ names : List String, p.components ≠ w.srcDir.components ++ names.map normal) :
    w.packageName p = .error (.outsideSource p w.srcDir) := by
  unfold packageName
  cases found : (p.below? w.srcDir).bind (·.mapM nameOf) with
  | none => rfl
  | some names =>
    have named : w.packageName p = .ok ("/".intercalate names) := by rw [packageName, found]
    obtain ⟨names, below, -⟩ := packageName_eq_ok.1 named
    exact absurd below (h names)

/-- An import path goes up exactly if one of its segments is `..`. -/
theorem up_mem_ofString : ".." ∈ Segments.ofString importPath ↔
    ['.', '.'] ∈ Segments.split importPath.toList := by
  rw [Segments.ofString, List.mem_map]
  constructor
  · rintro ⟨s, hs, up⟩
    obtain rfl : s = ['.', '.'] := by simpa using congrArg String.toList up
    exact hs
  · intro h
    exact ⟨_, h, rfl⟩

/-- The directory of an import path that goes up has no import path. -/
theorem packageName_packageSource_of_up (up : ".." ∈ Segments.ofString importPath) :
    w.packageName (w.packageSource importPath) =
      .error (.outsideSource (w.packageSource importPath) w.srcDir) := by
  refine packageName_eq_outsideSource fun names below => ?_
  rw [components_packageSource, List.append_cancel_left_eq] at below
  have mem := up_mem_filterMap_ofSegment (up_mem_ofString.1 up)
  rw [below, List.mem_map] at mem
  obtain ⟨name, -, differs⟩ := mem
  cases differs

/-- The directory of any other import path has the segments that count as its import path. -/
theorem packageName_packageSource_of_no_up (up : ".." ∉ Segments.ofString importPath) :
    w.packageName (w.packageSource importPath) =
      .ok ("/".intercalate (Segments.solid (Segments.ofString importPath))) := by
  refine packageName_eq_ok.2 ⟨_, ?_, rfl⟩
  rw [components_packageSource, filterMap_ofSegment_of_no_up (mt up_mem_ofString.2 up)]
  rfl

/-- **Import paths and directories map back and forth.** The import path of a directory leads back
to it, so different directories have different import paths. The directory of an import path with a
`..` segment is outside the source directory; that of any other has as its import path the segments
that are neither empty nor `.`. -/
theorem naming_back_and_forth (w : Workspace) :
    (∀ q importPath, w.packageName q = .ok importPath →
      (w.packageSource importPath).same q = true) ∧
    (∀ p q importPath, w.packageName p = .ok importPath → w.packageName q = .ok importPath →
      p.same q = true) ∧
    ∀ importPath, w.packageName (w.packageSource importPath) =
      if ".." ∈ Segments.ofString importPath then
        .error (.outsideSource (w.packageSource importPath) w.srcDir)
      else .ok ("/".intercalate (Segments.solid (Segments.ofString importPath))) := by
  refine ⟨fun q importPath h => ?_, fun p q importPath hp hq => ?_, fun importPath => ?_⟩
  · exact beq_iff_eq.2 (components_packageSource_of_packageName h)
  · exact beq_iff_eq.2 (components_eq_of_packageName hp hq)
  · split
    · next up => exact packageName_packageSource_of_up up
    · next up => exact packageName_packageSource_of_no_up up

/-- In a workspace whose root is the empty path: a directory written with a dot and slashes to
spare, and two import paths, of which one goes up. -/
theorem naming_back_and_forth_relative :
    let w : Workspace := ⟨⟨""⟩⟩
    w.packageName ⟨"src/./h.org//p/"⟩ = .ok "h.org/p" ∧
    (w.packageSource "h.org/p").same ⟨"src/./h.org//p/"⟩ = true ∧
    (Path.mk "src//h.org/p").same ⟨"src/./h.org//p/"⟩ = true ∧
    w.packageName (w.packageSource "/h.org/.//p") = .ok "h.org/p" ∧
    w.packageName (w.packageSource "h.org/../p") =
      .error (.outsideSource ⟨"src/h.org/../p"⟩ ⟨"src"⟩) := by
  intro w
  have ⟨back, alone, forth⟩ := naming_back_and_forth w
  have named : w.packageName ⟨"src/./h.org//p/"⟩ = .ok "h.org/p" := by decide +kernel
  refine ⟨named, back _ _ named, alone _ _ "h.org/p" (by decide +kernel) named, ?_, ?_⟩
  · rw [forth, if_neg (by decide +kernel)]
    decide +kernel
  · rw [forth, if_pos (by decide +kernel)]
    decide +kernel

end Workspace

end Depot
