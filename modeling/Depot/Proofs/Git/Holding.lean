import Depot.Proofs.Git.Cloning
import Depot.Proofs.Git.Missing
import Depot.Proofs.ImportPath
import Depot.Proofs.Path.Ancestors
import Depot.Proofs.Workspace
import Mathlib.Data.List.Infix

/-!
# The work copy that holds a package

The directories above a package, as long as they are below the source directory, are those of the
first segments of its import path (`ancestors_below`). So the search upward for a repository is a
search for the longest first part of the import path that has one (`enclosing?_of_ordinary`), and it
tells the root and the directory of the work copy alike.

A work copy that is found for a package is therefore in the place of its root, and the root contains
the package, whether the work copy is on disk or is what a pin or a well-known host says
(`holding_contains`).
-/

namespace Depot

/-! ## The first parts of a list of names -/

/-- The first parts of a list of names that are not empty, longest first. -/
def upward (names : List String) : List (List String) := names.inits.tail.reverse

/-- One more name makes a longer part, which comes first. -/
theorem upward_concat (names : List String) (name : String) :
    upward (names ++ [name]) = (names ++ [name]) :: upward names := by
  unfold upward
  cases names with
  | nil => rfl
  | cons n names => simp [List.inits_append]

theorem mem_upward {names part : List String} :
    part ∈ upward names ↔ part <+: names ∧ part ≠ [] := by
  induction names using List.reverseRecOn with
  | nil => simp [upward]
  | append_singleton names name ih =>
    rw [upward_concat, List.mem_cons, ih, List.prefix_concat_iff]
    constructor
    · rintro (rfl | ⟨first, some⟩)
      · exact ⟨.inl rfl, by simp⟩
      · exact ⟨.inr first, some⟩
    · rintro ⟨whole | first, some⟩
      · exact .inl whole
      · exact .inr ⟨first, some⟩

/-- **The first part that is found is the longest one**: it begins with any other that is marked. -/
theorem prefix_of_find?_upward {mark : List String → Bool} {names part other : List String}
    (found : (upward names).find? mark = some part) (first : other <+: names) (some : other ≠ [])
    (marked : mark other = true) : other <+: part := by
  induction names using List.reverseRecOn with
  | nil => exact absurd (List.prefix_nil.1 first) some
  | append_singleton names name ih =>
    rw [upward_concat, List.find?_cons] at found
    split at found
    · cases found
      exact first
    · next unmarked =>
      rcases List.prefix_concat_iff.1 first with rfl | first
      · rw [marked] at unmarked
        cases unmarked
      · exact ih found first

/-! ## Directories below the source directory -/

namespace Workspace

open Component

variable {w : Workspace} {names : List String} {importPath : String}

/-- **The directory that names lead to** from the source directory. -/
def below (w : Workspace) (names : List String) : Path := names.foldl Path.join w.srcDir

theorem below_concat (w : Workspace) (names : List String) (name : String) :
    w.below (names ++ [name]) = (w.below names).join name :=
  List.foldl_concat ..

/-- The names lead to the directory of the import path that is made of them. -/
theorem packageSource_intercalate (plain : ∀ name ∈ names, Plain name) :
    w.packageSource ("/".intercalate names) = w.below names := by
  unfold packageSource below
  cases names with
  | nil => rfl
  | cons name names =>
    rw [Segments.split_intercalate (fun n hn => (plain n hn).2.2.2) (by simp),
      List.filter_eq_self.2 (by
        intro s hs
        obtain ⟨n, hn, rfl⟩ := List.mem_map.1 hs
        simpa using (plain n hn).1),
      List.foldl_map]
    simp only [String.ofList_toList]

/-- An ordinary import path is made of its segments. -/
theorem packageSource_of_ordinary (w : Workspace) (ordinary : ImportPath.Ordinary importPath) :
    w.packageSource importPath = w.below (Segments.ofString importPath) := by
  rw [← packageSource_intercalate (plain_of_ordinary ordinary), Segments.ofString,
    Segments.intercalate_split, String.ofList_toList]

/-- The directory ends in a name, the source directory as well as those below it. -/
theorem endsInName_below (w : Workspace) (plain : ∀ name ∈ names, Plain name) :
    (w.below names).EndsInName := by
  cases names using List.reverseRecOn with
  | nil =>
    have plain : Plain "src" := ⟨by decide, by decide, by decide, by decide⟩
    exact Path.endsInName_join w.root plain
  | append_singleton names name _ =>
    rw [below_concat]
    exact Path.endsInName_join _ (plain name (by simp))

/-- **Each name is one component.** -/
theorem components_below (w : Workspace) (plain : ∀ name ∈ names, Plain name) :
    (w.below names).components = w.srcDir.components ++ names.map normal := by
  rw [← packageSource_intercalate plain, components_packageSource]
  cases names with
  | nil => rfl
  | cons name names =>
    rw [Segments.split_intercalate (fun n hn => (plain n hn).2.2.2) (by simp),
      Path.filterMap_ofSegment_of_plain plain]

/-- **The directories above**, up to the source directory, are those of the first names, and further
ones. -/
theorem ancestors_below (w : Workspace) (plain : ∀ name ∈ names, Plain name) :
    (w.below names).ancestors = (upward names).map w.below ++ w.srcDir.ancestors := by
  induction names using List.reverseRecOn with
  | nil => rfl
  | append_singleton names name ih =>
    have rest : ∀ n ∈ names, Plain n := fun n hn => plain n (List.mem_append_left _ hn)
    rw [below_concat, Path.ancestors_join (w.endsInName_below rest) (plain name (by simp)),
      ih rest, upward_concat, List.map_cons, List.cons_append, below_concat]

/-- **Below the source directory**: inside it, and not it. -/
def isInside (w : Workspace) (dir : Path) : Bool :=
  (dir.below? w.srcDir).isSome && !dir.same w.srcDir

theorem isInside_below (plain : ∀ name ∈ names, Plain name) (some : names ≠ []) :
    w.isInside (w.below names) = true := by
  have inside : w.srcDir.components.isPrefixOf? (w.below names).components =
      .some (names.map normal) :=
    List.isPrefixOf?_eq_some_iff_append_eq.2 (w.components_below plain).symm
  unfold isInside Path.below? Path.same
  rw [inside, w.components_below plain]
  simpa using some

/-- What is above the source directory is not inside. -/
theorem isInside_above {dir : Path} (above : dir ∈ w.srcDir.ancestors) :
    w.isInside dir = false := by
  unfold isInside Path.below? Path.same
  rw [Bool.and_eq_false_iff, Bool.not_eq_false', beq_iff_eq]
  rcases inside : w.srcDir.components.isPrefixOf? dir.components with _ | rest
  · exact .inl rfl
  · have within := List.isPrefixOf?_eq_some_iff_append_eq.1 inside
    exact .inr ((Path.components_of_mem_ancestors above).eq_of_length_le
      (by rw [← within, List.length_append]; omega))

/-- **The directories inside that are above an ordinary import path** are those of its first parts.
-/
theorem mem_ancestors_packageSource (ordinary : ImportPath.Ordinary importPath) {dir : Path} :
    dir ∈ (w.packageSource importPath).ancestors ∧ w.isInside dir = true ↔
      ∃ names ∈ upward (Segments.ofString importPath), dir = w.below names := by
  have plain := plain_of_ordinary ordinary
  rw [w.packageSource_of_ordinary ordinary, ancestors_below w plain, List.mem_append, List.mem_map]
  constructor
  · rintro ⟨⟨names, part, rfl⟩ | above, inside⟩
    · exact ⟨names, part, rfl⟩
    · rw [isInside_above above] at inside
      cases inside
  · rintro ⟨names, part, rfl⟩
    obtain ⟨first, some⟩ := mem_upward.1 part
    exact ⟨.inl ⟨names, part, rfl⟩, isInside_below (fun n hn => plain n (first.subset hn)) some⟩

end Workspace

/-! ## Roots that contain a package -/

/-- **The first segments of an import path contain it.** -/
theorem ImportPath.contains_intercalate {names : List String} (some : names ≠ [])
    (more : List String) :
    contains ("/".intercalate names) ("/".intercalate (names ++ more)) = true := by
  obtain ⟨slashes, begins, whole⟩ :=
    exists_begins_of_trimSlashes ("/".intercalate names).toList
  refine contains_iff.2 (.inr ?_)
  by_cases further : more = []
  · exact ⟨slashes, begins, by rw [further, List.append_nil]; exact whole⟩
  · refine ⟨slashes ++ '/' :: ("/".intercalate more).toList, begins.append (.inr rfl), ?_⟩
    rw [String.intercalate_append_of_ne_nil some further, String.toList_append,
      String.toList_append, ← List.append_assoc]
    nth_rewrite 1 [whole]
    rw [List.append_assoc]
    rfl

namespace Git.WorkCopy

variable {w : World} {workspace : Workspace} {importPath : String} {pin : Option Pin} {c : WorkCopy}

/-- **The work copy in the place that names lead to.** -/
def placed (workspace : Workspace) (names : List String) : WorkCopy where
  root := "/".intercalate names
  path := workspace.below names

/-- Whether there is a repository in the place that names lead to. -/
def marked (workspace : Workspace) (w : World) (names : List String) : Bool :=
  w.disk.exists? w.cwd ((workspace.below names).join ".git")

/-- **Searching upward for a repository** is searching the first parts of the import path, longest
first. -/
theorem enclosing?_of_ordinary (ordinary : ImportPath.Ordinary importPath) :
    enclosing? workspace importPath w =
      ((upward (Segments.ofString importPath)).find? (marked workspace w)).map
        (placed workspace) := by
  have plain := Workspace.plain_of_ordinary ordinary
  have part {names : List String} (h : names ∈ upward (Segments.ofString importPath)) :
      (∀ name ∈ names, Component.Plain name) ∧ names ≠ [] :=
    ⟨fun name hn => plain name ((mem_upward.1 h).1.subset hn), (mem_upward.1 h).2⟩
  have inside : (workspace.packageSource importPath).ancestors.takeWhile workspace.isInside =
      (upward (Segments.ofString importPath)).map workspace.below := by
    rw [workspace.packageSource_of_ordinary ordinary, workspace.ancestors_below plain,
      List.takeWhile_append_of_pos, List.takeWhile_eq_nil_iff.2, List.append_nil]
    · intro some
      exact Bool.eq_false_iff.1 (Workspace.isInside_above (List.get_mem ..))
    · intro dir hdir
      obtain ⟨names, hn, rfl⟩ := List.mem_map.1 hdir
      exact Workspace.isInside_below (part hn).1 (part hn).2
  have search : ((workspace.packageSource importPath).ancestors.takeWhile workspace.isInside).find?
        (fun dir => w.disk.exists? w.cwd (dir.join ".git")) =
      ((upward (Segments.ofString importPath)).find? (marked workspace w)).map
        workspace.below := by
    rw [inside, List.find?_map]
    rfl
  unfold Workspace.isInside at search
  unfold enclosing?
  dsimp only
  rw [search]
  rcases found : (upward (Segments.ofString importPath)).find? (marked workspace w) with _ | names
  · rfl
  · have named : workspace.packageName (workspace.below names) = .ok ("/".intercalate names) :=
      Workspace.packageName_eq_ok.2 ⟨names,
        workspace.components_below (part (List.mem_of_find?_eq_some found)).1, rfl⟩
    rw [Option.map_some, Option.map_some]
    simp only [named]
    rfl

/-- **The nearest repository above a package**: the longest first part of the import path that leads
to one. -/
structure Nearest (workspace : Workspace) (w : World) (importPath : String) (names : List String) :
    Prop where
  /-- It is a first part of the import path. -/
  first : names <+: Segments.ofString importPath
  /-- It does not lead to the source directory. -/
  some : names ≠ []
  /-- It leads to a repository. -/
  held : marked workspace w names = true
  /-- No longer one does. -/
  longest : ∀ other, other <+: Segments.ofString importPath → other ≠ [] →
    marked workspace w other = true → other <+: names

theorem Nearest.plain {names : List String} (h : Nearest workspace w importPath names)
    (ordinary : ImportPath.Ordinary importPath) : ∀ name ∈ names, Component.Plain name :=
  fun name hn => Workspace.plain_of_ordinary ordinary name (h.first.subset hn)

/-- What is found above a package is the nearest repository. -/
theorem nearest_of_enclosing? (ordinary : ImportPath.Ordinary importPath)
    (h : enclosing? workspace importPath w = some c) :
    ∃ names, Nearest workspace w importPath names ∧ c = placed workspace names := by
  rw [enclosing?_of_ordinary ordinary] at h
  obtain ⟨names, found, rfl⟩ := Option.map_eq_some_iff.1 h
  obtain ⟨first, some⟩ := mem_upward.1 (List.mem_of_find?_eq_some found)
  exact ⟨names, ⟨first, some, List.find?_some found, fun _ first some marked =>
    prefix_of_find?_upward found first some marked⟩, rfl⟩

/-- A repository is found exactly if some directory inside has one, from the package's upward. -/
theorem exists_enclosing?_iff (ordinary : ImportPath.Ordinary importPath) :
    (∃ c, enclosing? workspace importPath w = some c) ↔
      ∃ dir ∈ (workspace.packageSource importPath).ancestors, workspace.isInside dir = true ∧
        w.disk.exists? w.cwd (dir.join ".git") = true := by
  rw [← Option.isSome_iff_exists, enclosing?_of_ordinary ordinary, Option.isSome_map,
    List.find?_isSome]
  constructor
  · rintro ⟨names, part, held⟩
    obtain ⟨above, inside⟩ :=
      (workspace.mem_ancestors_packageSource ordinary).2 ⟨names, part, rfl⟩
    exact ⟨_, above, inside, held⟩
  · rintro ⟨dir, above, inside, held⟩
    obtain ⟨names, part, rfl⟩ :=
      (workspace.mem_ancestors_packageSource ordinary).1 ⟨above, inside⟩
    exact ⟨names, part, held⟩

section There

variable (there : w.disk.exists? w.cwd (workspace.packageSource importPath) = true)
include there

/-- **A package that is there** is held by the repository above it, whatever the pin says. -/
theorem holding_of_there (pin : Option Pin) :
    (holding workspace importPath pin w).map (fun c => (c.root, c.path)) =
      match enclosing? workspace importPath w with
      | some c => .ok (c.root, c.path)
      | none => .error (.ofMessage ("no version control found for " ++ importPath)) := by
  unfold holding
  dsimp only
  rw [if_pos there]
  cases enclosing? workspace importPath w <;> rfl

theorem exists_holding_iff :
    (∃ c, holding workspace importPath pin w = .ok c) ↔
      ∃ c, enclosing? workspace importPath w = some c := by
  have same := holding_of_there there pin
  rcases told : holding workspace importPath pin w with cause | c <;>
    rcases outer : enclosing? workspace importPath w with _ | c' <;> rw [told, outer] at same
  · simp
  · cases same
  · cases same
  · exact iff_of_true ⟨c, rfl⟩ ⟨c', rfl⟩

theorem nearest_of_holding (ordinary : ImportPath.Ordinary importPath)
    (h : holding workspace importPath pin w = .ok c) :
    ∃ names, Nearest workspace w importPath names ∧
      c.root = "/".intercalate names ∧ c.path = workspace.below names := by
  have same := holding_of_there there pin
  rw [h] at same
  obtain ⟨c', outer⟩ := (exists_holding_iff there).1 ⟨c, h⟩
  rw [outer] at same
  obtain ⟨names, nearest, rfl⟩ := nearest_of_enclosing? ordinary outer
  obtain ⟨root, path⟩ := Prod.mk.inj (Except.ok.inj same)
  exact ⟨names, nearest, root, path⟩

end There

/-- **The root of a package that is missing** is that of the pin, or else the one on a well-known
host. -/
theorem root_of_missing
    (missing : w.disk.exists? w.cwd (workspace.packageSource importPath) = false)
    (h : holding workspace importPath pin w = .ok c) :
    (∃ own, pin = some own ∧ c.root = own.root) ∨
      ∃ g, Host.guess? importPath = some g ∧ c.root = g.root := by
  unfold holding at h
  dsimp only at h
  rw [missing, if_neg (by decide)] at h
  split at h
  · cases h
  · next root told =>
    split at h
    · cases h
    · cases h
      cases pin with
      | some own => exact .inl ⟨own, rfl, (Option.some.inj told).symm⟩
      | none => exact .inr (Option.map_eq_some_iff.1 told |>.imp fun g hg => ⟨hg.1, hg.2.symm⟩)

/-- **The host's repository contains the package** that it is guessed for. -/
theorem contains_of_guess? {g : Host.Guess} (h : Host.guess? importPath = some g) :
    ImportPath.contains g.root importPath = true := by
  obtain ⟨host, owner, name, rest, segments, -, rfl⟩ := Host.guess?_eq_some.1 h
  have whole : importPath = "/".intercalate ([host, owner, name] ++ rest) := by
    have := Segments.intercalate_split importPath.toList
    rw [String.ofList_toList] at this
    rw [← this]
    exact congrArg _ segments
  have some : [host, owner, name] ≠ [] := by simp
  have first := ImportPath.contains_intercalate some rest
  rw [← whole] at first
  simpa [String.intercalate_cons_cons, String.append_assoc] using first

/-- **The root of a package that is missing contains the package**, if the pin is the one that
governs it. -/
theorem contains_of_missing {pins : List Pin}
    (missing : w.disk.exists? w.cwd (workspace.packageSource importPath) = false)
    (h : holding workspace importPath (Pin.firstFor pins importPath) w = .ok c) :
    ImportPath.contains c.root importPath = true := by
  rcases root_of_missing missing h with ⟨own, chosen, root⟩ | ⟨g, guessed, root⟩ <;> rw [root]
  · have governs : own.governs importPath = true := by
      simpa using List.find?_some (show Pin.firstFor pins importPath = some own from chosen)
    exact governs
  · exact contains_of_guess? guessed

/-- **The work copy that is found for a package**, by the pin that counts for it, is in the place of
its root, and the root contains the package.

If the package is there,

* a work copy is found exactly if a directory has an entry `.git` that is above the package's
  directory, or is that directory, and is strictly below the source directory;
* its root is the longest first part of the import path whose directory has one;
* with another pin, or with none, the root and the place would be the same. -/
theorem holding_contains (workspace : Workspace) (pins : List Pin) (w : World)
    (ordinary : ImportPath.Ordinary importPath) :
    let pin := Pin.firstFor pins importPath
    let found := holding workspace importPath pin w
    let hasGit (dir : Path) : Bool := w.disk.exists? w.cwd (dir.join ".git")
    (resolver workspace).resolve importPath pin w = (found.map handle, w) ∧
    (∀ c, found = .ok c →
      ImportPath.contains c.root importPath = true ∧ c.path = workspace.packageSource c.root) ∧
    (w.disk.exists? w.cwd (workspace.packageSource importPath) = true →
      ((∃ c, found = .ok c) ↔
        ∃ dir ∈ (workspace.packageSource importPath).ancestors,
          (dir.below? workspace.srcDir).isSome = true ∧ dir.same workspace.srcDir = false ∧
            hasGit dir = true) ∧
      (∀ c, found = .ok c →
        Segments.ofString c.root <+: Segments.ofString importPath ∧
          hasGit (workspace.packageSource c.root) = true ∧
          ∀ root, Segments.ofString root <+: Segments.ofString importPath →
            hasGit (workspace.packageSource root) = true →
              Segments.ofString root <+: Segments.ofString c.root) ∧
      ∀ other, (holding workspace importPath other w).map (fun c => (c.root, c.path)) =
        found.map fun c => (c.root, c.path)) := by
  intro pin found hasGit
  -- a root whose segments come first in the import path leads to them
  have place {root : String} (first : Segments.ofString root <+: Segments.ofString importPath) :
      workspace.packageSource root = workspace.below (Segments.ofString root) :=
    workspace.packageSource_of_ordinary fun s hs => ordinary s (first.subset hs)
  refine ⟨rfl, fun c h => ?_, fun there => ⟨?_, fun c h => ?_, fun other => ?_⟩⟩
  · cases there : w.disk.exists? w.cwd (workspace.packageSource importPath) with
    | true =>
      obtain ⟨names, nearest, root, path⟩ := nearest_of_holding there ordinary h
      obtain ⟨more, whole⟩ := nearest.first
      rw [root, path, Workspace.packageSource_intercalate (nearest.plain ordinary)]
      refine ⟨?_, rfl⟩
      have contained := ImportPath.contains_intercalate nearest.some more
      rwa [whole, Segments.ofString, Segments.intercalate_split, String.ofList_toList] at contained
    | false =>
      exact ⟨contains_of_missing there h, holding_of_missing there h⟩
  · rw [exists_holding_iff there, exists_enclosing?_iff ordinary]
    simp only [Workspace.isInside, Bool.and_eq_true, Bool.not_eq_true', and_assoc]
    rfl
  · obtain ⟨names, nearest, root, -⟩ := nearest_of_holding there ordinary h
    have plain := nearest.plain ordinary
    rw [root, Workspace.packageSource_intercalate plain,
      Segments.ofString_intercalate (fun n hn => (plain n hn).2.2.2) nearest.some]
    refine ⟨nearest.first, nearest.held, fun other first marked => ?_⟩
    rw [place first] at marked
    exact nearest.longest _ first (by simp [Segments.ofString, Segments.split_ne_nil]) marked
  · exact (holding_of_there there other).trans (holding_of_there there pin).symm

/-- A repository with a package in a directory of its own. -/
def libraryWorld : World where
  disk := ⟨[(["w"], .directory), (["w", "src"], .directory), (["w", "src", "e.org"], .directory),
    (["w", "src", "e.org", "lib"], .directory), (["w", "src", "e.org", "lib", ".git"], .directory),
    (["w", "src", "e.org", "lib", "sub"], .directory)]⟩

/-- The package is held by that repository, although a pin has the package as its root. -/
theorem holding_contains_library :
    let pins : List Pin := [{ root := "e.org/lib/sub", source := some "/sub" }]
    ImportPath.Ordinary "e.org/lib/sub" ∧
      ∃ c, holding ⟨⟨"/w"⟩⟩ "e.org/lib/sub" (Pin.firstFor pins "e.org/lib/sub") libraryWorld =
          .ok c ∧
        c.root = "e.org/lib" ∧ ImportPath.contains c.root "e.org/lib/sub" = true ∧
        c.path = Workspace.packageSource ⟨⟨"/w"⟩⟩ c.root := by
  intro pins
  have ordinary : ImportPath.Ordinary "e.org/lib/sub" := by decide
  have found : holding ⟨⟨"/w"⟩⟩ "e.org/lib/sub" (Pin.firstFor pins "e.org/lib/sub") libraryWorld =
      .ok { root := "e.org/lib", path := ⟨"/w/src/e.org/lib"⟩, remote := some "/sub" } := by
    decide +kernel
  have placed := (holding_contains ⟨⟨"/w"⟩⟩ pins libraryWorld ordinary).2.1 _ found
  exact ⟨ordinary, _, found, rfl, placed⟩

end Git.WorkCopy

end Depot
