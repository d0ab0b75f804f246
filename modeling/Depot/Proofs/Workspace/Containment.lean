import Depot.Proofs.Disk.Spelling
import Depot.Proofs.ImportPath
import Depot.Proofs.Path.Ancestors
import Depot.Proofs.Workspace

/-!
# Containment of import paths and of directories

Whether an import path contains another is told from the texts, whether a directory lies below
another from the components of both. A text is its segments, and the empty ones at the end of a root
do not count: a root contains the paths whose segments begin with those that it has left
(`contains_iff_prefix`). Whatever a root contains lies below the root's directory, however both are
written (`Workspace.startsWith_of_contains`).

The other way around, the directory must not hide what the text has: an empty segment or a `.` in
the middle names no component, and two `..` may name one directory by two texts. For import paths
without such segments the two tests are one (`Workspace.contains_iff_startsWith`).
-/

namespace Depot

namespace Segments

/-- Slashes at the end of a text are as many empty segments. -/
theorem split_append_replicate (cs : List Char) (n : Nat) :
    split (cs ++ List.replicate n '/') = split cs ++ List.replicate n [] := by
  induction n generalizing cs with
  | zero => simp
  | succ n ih =>
    have next : split (cs ++ ['/']) = split cs ++ [[]] := split_append_slash cs []
    have more := ih (cs ++ ['/'])
    rw [List.append_assoc, List.singleton_append, ← List.replicate_succ] at more
    rw [more, next, List.append_assoc, List.singleton_append, ← List.replicate_succ]

/-- **A text goes on after another with a new segment** if its segments begin with the other's. -/
theorem split_prefix_split {cs ds : List Char} :
    split cs <+: split ds ↔ ∃ rest, ImportPath.Begins rest ∧ ds = cs ++ rest := by
  constructor
  · rintro ⟨more, whole⟩
    rcases more with _ | ⟨s, more⟩
    · refine ⟨[], .inl rfl, ?_⟩
      rw [List.append_nil] at whole ⊢
      rw [← join_split ds, ← whole, join_split]
    · refine ⟨'/' :: join (s :: more), .inr rfl, ?_⟩
      rw [← join_split ds, ← whole, join_append (split_ne_nil cs) (by simp), join_split]
  · rintro ⟨rest, begins, rfl⟩
    rcases rest with _ | ⟨c, rest⟩
    · simp
    · obtain rfl : c = '/' := by simpa using begins.resolve_left (by simp)
      rw [split_append_slash]
      exact List.prefix_append _ _

/-- A text that ends in no slash ends in a segment that is not empty. -/
theorem getLast_split_ne_nil {cs : List Char} (trimmed : ImportPath.trimSlashes cs = cs)
    (text : cs ≠ []) : (split cs).getLast (split_ne_nil cs) ≠ [] := by
  intro blank
  obtain ⟨before, ends⟩ : ∃ before, split cs = before ++ [[]] :=
    ⟨_, (blank ▸ List.dropLast_append_getLast (split_ne_nil cs)).symm⟩
  have whole := join_split cs
  rw [ends] at whole
  rcases before with _ | ⟨s, before⟩
  · exact text whole.symm
  · -- the slash before that segment is the last character
    rw [join_append (by simp) (by simp)] at whole
    subst whole
    have ended : (join (s :: before) ++ '/' :: join [[]]).getLast text ≠ '/' := by
      simpa using List.rdropWhile_eq_self_iff.1 trimmed text
    exact ended (by simp [join])

/-- **The segments of a text without the empty ones at its end.** -/
def counted (text : String) : List String := (ofString text).rdropWhile (· == "")

/-- The segments of a text begin with those that count. -/
theorem counted_prefix (text : String) : counted text <+: ofString text :=
  List.rdropWhile_prefix (· == "") _

/-- No segment that is left out counts when a path is looked up. -/
theorem solid_counted (text : String) : solid (counted text) = solid (ofString text) := by
  have blank : solid ((ofString text).rtakeWhile (· == "")) = [] :=
    List.filter_eq_nil_iff.2 fun segment hs => by
      have : segment = "" := by simpa using List.mem_rtakeWhile_imp hs
      simp [this]
  have whole : counted text ++ (ofString text).rtakeWhile (· == "") = ofString text :=
    List.rdropWhile_append_rtakeWhile
  rw [← whole, solid_append, blank, List.append_nil]

/-- **Those of a root are those of its stem**, if it has any. -/
theorem counted_eq_split_stem (root : String) :
    counted root =
      if ImportPath.stem root = [] then [] else (split (ImportPath.stem root)).map String.ofList := by
  obtain ⟨n, text⟩ := ImportPath.exists_toList_eq_stem root
  rw [counted, ofString, text, split_append_replicate, List.map_append, List.rdropWhile,
    List.reverse_append, List.dropWhile_append_of_pos (by simp)]
  split
  · next empty => simp [empty, Segments.split]
  · next some =>
    refine List.rdropWhile_eq_self_iff.2 fun hl => ?_
    have := getLast_split_ne_nil (ImportPath.trimSlashes_stem root) some
    simpa [← String.toList_inj, List.getLast_map] using this

end Segments

namespace ImportPath

variable {root path : String}

/-- **A root contains the paths whose segments begin with those of it that count.** -/
theorem contains_iff_prefix :
    contains root path = true ↔ Segments.counted root <+: Segments.ofString path := by
  rw [contains_iff, Segments.counted_eq_split_stem]
  split
  · next empty => exact iff_of_true (.inl empty) List.nil_prefix
  · next some =>
    have strings : (Segments.split (stem root)).map String.ofList <+: Segments.ofString path ↔
        Segments.split (stem root) <+: Segments.split path.toList :=
      ⟨fun h => by simpa [Function.comp_def] using h.map String.toList,
        fun h => h.map String.ofList⟩
    rw [strings, Segments.split_prefix_split]
    exact or_iff_right some

/-- **An import path that names each component once**: no segment of it is `.` or `..`, and none is
empty but those at the end. -/
def Clean (path : String) : Prop :=
  ∀ segment ∈ Segments.counted path, segment ≠ "" ∧ segment ≠ "." ∧ segment ≠ ".."

instance (path : String) : Decidable (Clean path) :=
  inferInstanceAs (Decidable (∀ segment ∈ Segments.counted path, _))

end ImportPath

namespace Workspace

open Component

variable {w : Workspace} {root path : String}

/-- The empty segments at the end name no component. -/
theorem components_packageSource_counted (w : Workspace) (path : String) :
    (w.packageSource path).components = w.srcDir.components ++
      ((Segments.counted path).map String.toList).filterMap ofSegment := by
  have strings : ((Segments.counted path).map String.toList).map String.ofList =
      Segments.counted path := by
    simp [Function.comp_def]
  rw [components_packageSource, filterMap_ofSegment, filterMap_ofSegment, strings,
    Segments.solid_counted, Segments.ofString]

/-- The segments of a clean import path that count are plain names. -/
theorem plain_of_clean (clean : ImportPath.Clean path) :
    ∀ segment ∈ Segments.counted path, Plain segment :=
  fun segment hs =>
    plain_of_mem_ofString ((Segments.counted_prefix path).subset hs) (clean segment hs)

/-- **They are the components of its directory** below the source directory. -/
theorem components_packageSource_of_clean (w : Workspace) (clean : ImportPath.Clean path) :
    (w.packageSource path).components =
      w.srcDir.components ++ (Segments.counted path).map normal := by
  rw [components_packageSource_counted, Path.filterMap_ofSegment_of_plain (plain_of_clean clean)]

/-- **What a root contains lies below its directory**, however the two are written. -/
theorem startsWith_of_contains (w : Workspace) (contains : ImportPath.contains root path = true) :
    (w.packageSource path).startsWith (w.packageSource root) = true := by
  have segments := ImportPath.contains_iff_prefix.1 contains
  rw [Path.startsWith, List.isPrefixOf_iff_prefix, components_packageSource_counted w root,
    components_packageSource, ← Segments.map_toList_ofString, List.prefix_append_right_inj]
  exact (segments.map String.toList).filterMap ofSegment

/-- **Containment of import paths is containment of directories.** In every workspace, a root
contains a path exactly if the directory of the path is that of the root or lies beneath it, as long
as neither has a `.` or a `..` segment, or an empty one anywhere but at its end. -/
theorem contains_iff_startsWith (w : Workspace) (rootClean : ImportPath.Clean root)
    (pathClean : ImportPath.Clean path) :
    ImportPath.contains root path = true ↔
      (w.packageSource path).startsWith (w.packageSource root) = true := by
  refine ⟨startsWith_of_contains w, fun below => ?_⟩
  rw [Path.startsWith, List.isPrefixOf_iff_prefix, components_packageSource_of_clean w rootClean,
    components_packageSource_of_clean w pathClean, List.prefix_append_right_inj] at below
  -- a component has one name, so the segments begin with the root's
  obtain ⟨segments, first, names⟩ := List.prefix_map_iff.1 below
  have same : Segments.counted root = segments :=
    List.map_injective_iff.2 (fun _ _ => Component.normal.inj) names
  exact ImportPath.contains_iff_prefix.2 ((same ▸ first).trans (Segments.counted_prefix path))

/-- A root with a slash at its end and a package below it, written with two; a name that only
continues the last one of the root is not below it. -/
theorem contains_iff_startsWith_slashes :
    let w : Workspace := ⟨⟨"/work"⟩⟩
    ImportPath.Clean "e.org/lib/" ∧ ImportPath.Clean "e.org/lib/sub//" ∧
    ImportPath.Clean "e.org/library" ∧
    (w.packageSource "e.org/lib/sub//").startsWith (w.packageSource "e.org/lib/") = true ∧
    (w.packageSource "e.org/library").startsWith (w.packageSource "e.org/lib/") = false := by
  intro w
  have root : ImportPath.Clean "e.org/lib/" := by decide +kernel
  have below : ImportPath.Clean "e.org/lib/sub//" := by decide +kernel
  have beside : ImportPath.Clean "e.org/library" := by decide +kernel
  refine ⟨root, below, beside, ?_, ?_⟩
  · exact (contains_iff_startsWith w root below).1 (by decide +kernel)
  · rw [Bool.eq_false_iff, ne_eq, ← contains_iff_startsWith w root beside]
    decide +kernel

/-- An empty segment in the middle hides a directory from the texts, but not from the components. -/
example :
    ImportPath.contains "e.org//lib" "e.org/lib" = false ∧
    let w : Workspace := ⟨⟨"/work"⟩⟩
    (w.packageSource "e.org/lib").startsWith (w.packageSource "e.org//lib") = true := by
  decide +kernel

end Workspace

end Depot
