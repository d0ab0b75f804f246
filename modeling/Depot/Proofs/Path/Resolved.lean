import Depot.Proofs.Workspace.Naming
import Mathlib.Data.List.Infix

/-!
# Paths once `..` is worked off

A path may go up with `..`, and what it means keeps every `..` where it stands. `Path.resolved`
works them off without asking the disk, so as if no directory on the way were a link: each takes
back the name before it, and stays only where a relative path has no name left to take back.

The directory of an import path lies below the source directory as it is written, but `..` segments
may lead out of it. They do not where the import path is *grounded*: however far it is read, it has
not gone up more often than down (`Workspace.inside_of_grounded`). An import path that never goes up
names its directory by the segments that count, and by nothing else
(`Workspace.resolved_packageSource`).
-/

namespace Depot

namespace Path

open Component

/-- **One component further**, from components held last first. A `..` takes back the name before
it; there is nothing above the root, and a `.` leads nowhere. -/
def goOn : List Component → Component → List Component
  | way, .here => way
  | .normal _ :: above, .up => above
  | .root :: above, .up => .root :: above
  | way, .up => .up :: way
  | way, c => c :: way

@[simp] theorem goOn_normal (way : List Component) (name : String) :
    goOn way (normal name) = normal name :: way := by
  cases way with
  | nil => rfl
  | cons c way => cases c <;> rfl

@[simp] theorem goOn_up (name : String) (above : List Component) :
    goOn (normal name :: above) up = above := rfl

/-- **What is left of a path** once each `..` has taken back the name before it. -/
def resolved (p : Path) : List Component := (p.components.foldl goOn []).reverse

theorem foldl_goOn_normal (way : List Component) (names : List String) :
    (names.map normal).foldl goOn way = (names.map normal).reverse ++ way := by
  induction names generalizing way with
  | nil => rfl
  | cons name names ih => simp [ih]

end Path

namespace Segments

/-- **Segments that never lead above where they begin**: however far one reads, `..` comes no more
often than names do. -/
def Grounded (segments : List String) : Prop :=
  ∀ part ∈ segments.inits, part.count ".." ≤ part.countP (· ≠ "..")

instance (segments : List String) : Decidable (Grounded segments) :=
  inferInstanceAs (Decidable (∀ part ∈ segments.inits, _))

variable {segments part : List String}

theorem Grounded.of_begins (h : Grounded segments) (begins : part <+: segments) : Grounded part :=
  fun p hp => h p ((List.mem_inits _ _).2 (((List.mem_inits _ _).1 hp).trans begins))

open Component in
/-- **Grounded segments only lead down**, by as many names as there are more of them than `..`. -/
theorem Grounded.foldl_goOn (h : Grounded segments) (way : List Component) :
    ∃ names : List String, (segments.map ofName).foldl Path.goOn way = names.map normal ++ way ∧
      names.length + segments.count ".." = segments.countP (· ≠ "..") := by
  -- the count says that there is a name to take back wherever the next segment goes up
  induction segments using List.reverseRecOn with
  | nil => exact ⟨[], rfl, rfl⟩
  | append_singleton segments segment ih =>
    obtain ⟨names, leads, count⟩ := ih (h.of_begins (List.prefix_append _ _))
    rw [List.map_append, List.foldl_append, leads]
    by_cases up : segment = ".."
    · subst up
      have more : (segments ++ [".."]).count ".." = segments.count ".." + 1 := by simp
      have same : (segments ++ [".."]).countP (· ≠ "..") = segments.countP (· ≠ "..") := by simp
      have all := h _ ((List.mem_inits _ _).2 List.prefix_rfl)
      rw [more, same] at all ⊢
      cases names with
      | nil =>
        rw [List.length_nil] at count
        omega
      | cons name names =>
        rw [List.length_cons] at count
        exact ⟨names, by simp, by omega⟩
    · have same : (segments ++ [segment]).count ".." = segments.count ".." := by
        simp [List.count_eq_zero, Ne.symm up]
      have more : (segments ++ [segment]).countP (· ≠ "..") = segments.countP (· ≠ "..") + 1 := by
        simp [up]
      refine ⟨segment :: names, by simp [ofName_of_ne up], ?_⟩
      rw [more, same, List.length_cons]
      omega

end Segments

/-- **An import path that never leads above where it begins.** -/
def ImportPath.Grounded (path : String) : Prop :=
  Segments.Grounded (Segments.solid (Segments.ofString path))

instance (path : String) : Decidable (ImportPath.Grounded path) :=
  inferInstanceAs (Decidable (Segments.Grounded _))

namespace Workspace

open Component

variable {w : Workspace} {path path' : String}

/-- **A directory inside the source directory**, once `..` is worked off. -/
def Inside (w : Workspace) (dir : Path) : Prop := w.srcDir.resolved <+: dir.resolved

instance (w : Workspace) (dir : Path) : Decidable (w.Inside dir) :=
  inferInstanceAs (Decidable (_ <+: _))

/-- The components of a package's directory are told by the segments that count. -/
theorem components_packageSource_solid (w : Workspace) (path : String) :
    (w.packageSource path).components =
      w.srcDir.components ++ (Segments.solid (Segments.ofString path)).map ofName := by
  rw [components_packageSource, filterMap_ofSegment, Segments.ofString]

/-- **Two import paths have one directory exactly if the same segments count in them.** -/
theorem same_packageSource_iff :
    (w.packageSource path).same (w.packageSource path') = true ↔
      Segments.solid (Segments.ofString path) = Segments.solid (Segments.ofString path') := by
  unfold Path.same
  rw [beq_iff_eq, components_packageSource_solid, components_packageSource_solid,
    List.append_cancel_left_eq, (ofName_injective.list_map).eq_iff]

/-- **The directory of a grounded import path is inside the source directory.** -/
theorem inside_of_grounded (w : Workspace) (grounded : ImportPath.Grounded path) :
    w.Inside (w.packageSource path) := by
  unfold Inside Path.resolved
  rw [components_packageSource_solid, List.foldl_append]
  obtain ⟨names, leads, -⟩ := grounded.foldl_goOn (w.srcDir.components.foldl Path.goOn [])
  rw [leads, List.reverse_append]
  exact List.prefix_append _ _

/-- **Where an import path that never goes up leads**: from the source directory down, by the
segments that count. -/
theorem resolved_packageSource (w : Workspace) (up : ".." ∉ Segments.ofString path) :
    (w.packageSource path).resolved =
      w.srcDir.resolved ++ (Segments.solid (Segments.ofString path)).map normal := by
  unfold Path.resolved
  rw [components_packageSource, filterMap_ofSegment_of_no_up (mt up_mem_ofString.2 up),
    List.foldl_append, Path.foldl_goOn_normal, List.reverse_append, List.reverse_reverse]
  rfl

/-- So two such import paths lead to one directory exactly if the same segments count in them. -/
theorem resolved_packageSource_eq_iff (up : ".." ∉ Segments.ofString path)
    (up' : ".." ∉ Segments.ofString path') :
    (w.packageSource path).resolved = (w.packageSource path').resolved ↔
      Segments.solid (Segments.ofString path) = Segments.solid (Segments.ofString path') := by
  rw [resolved_packageSource w up, resolved_packageSource w up', List.append_cancel_left_eq]
  exact (List.map_injective_iff.2 fun _ _ => normal.inj).eq_iff

end Workspace

end Depot
