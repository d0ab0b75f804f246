import Depot.Proofs.Disk.Spelling
import Depot.Proofs.PackageTool
import Depot.Proofs.Survey.Ending

/-!
# Surveys that find more

Let two surveys of one project differ in their reader, and let the second find of every package what
the first finds, and further imports. It then goes wherever the first one goes: a package that has
imports is not broken, whatever else is wrong with it, so nothing that is entered ceases to be.

There is one obstacle. Further imports may lead to a directory sooner, and by another text. The
system takes all texts of a directory for the same, but it refuses those that are too long, and a
survey that has come upon such a text goes no further. It tells so on record
(`Graph.RefusedForLength`), and where it does not, everything is covered that was covered before
(`Enlarging.covered`). What the graph says is then kept, but for records that stand for a text:
those of paths that were refused, and those of directories that have no import path
(`Graph.WrittenOtherwise`).
-/

namespace Depot

namespace Graph

/-- **The system refused the path of a package for its length.** -/
def RefusedForLength (g : Graph) (k : String) : Prop :=
  ∃ path, g.errorOf k = some (.stat path OsError.nameTooLong.message)

/-- **What is on record for a text only**, and may be on record for another text, or not at all,
where directories are written otherwise. -/
inductive WrittenOtherwise (g g' : Graph) (k : String) : Prop
  /-- The path of the package was refused for its length. -/
  | refused (long : g.RefusedForLength k)
  /-- A directory without import path is on record by its text. The other graph has it on record by
  its own. -/
  | unnamed {path path' : Path} {reason reason' : String}
      (recorded : g.errorOf k = some (.importPath path reason)) (text : k = path.text)
      (same : path'.components = path.components)
      (recorded' : g'.errorOf path'.text = some (.importPath path' reason'))

/-- **A graph is within another**, but for some import paths: the others are on record there, and
all edges are. -/
structure Within (g g' : Graph) (but : String → Prop) : Prop where
  /-- What is on record there. -/
  has : ∀ k, g.Has k → g'.Has k ∨ but k
  /-- All imports are. -/
  imports : ∀ k q, g.Imports k q → g'.Imports k q
  /-- All importers are. -/
  importedFrom : ∀ k q, g.ImportedFrom k q → g'.ImportedFrom k q

end Graph

namespace PackageImports

/-- **What is broken**: no import was found, and there is trouble that concerns a package. -/
theorem broken_iff {found : PackageImports} :
    found.Broken ↔ found.imports = [] ∧ found.error.map (·.isNoBuildable) = some false := by
  rw [Broken, Option.map_eq_some_iff]

namespace ExtendedBy

variable {less more : PackageImports}

theorem imports_eq_nil (h : less.ExtendedBy more) (none : more.imports = []) : less.imports = [] :=
  List.eq_nil_iff_forall_not_mem.2 fun i hi => absurd (h.imports i hi) (none ▸ List.not_mem_nil)

/-- What is broken with further imports was broken before. -/
theorem broken (h : less.ExtendedBy more) (broken : more.Broken) : less.Broken := by
  obtain ⟨none, trouble⟩ := broken_iff.1 broken
  exact broken_iff.2 ⟨h.imports_eq_nil none, h.error.trans trouble⟩

theorem usable (h : less.ExtendedBy more) (usable : less.Usable) : more.Usable :=
  usable.imp h.error_eq_none_iff.1 (mt h.imports_eq_nil)

/-- **What is broken without further imports** is usable with them, or broken all the same. -/
theorem usable_or_broken (h : less.ExtendedBy more) (broken : less.Broken) :
    more.Usable ∨ more.Broken := by
  by_cases none : more.imports = []
  · exact .inr (broken_iff.2 ⟨none, h.error.symm.trans (broken_iff.1 broken).2⟩)
  · exact .inl (.inr none)

end ExtendedBy

end PackageImports

/-- **Two texts of one directory list the same directories.** -/
theorem World.directories_respell {w : World} {p q : Path}
    (hp : files.kind p w = .ok .directory) (hq : files.kind q w = .ok .directory)
    (same : p.components = q.components) : files.directories p w = files.directories q w := by
  obtain ⟨l, found⟩ := kind_eq_directory_iff.1 hq
  have found' := Disk.resolve_respell found same (size_lt_of_kind hp)
  unfold files
  dsimp only
  rw [found, found']

namespace Survey

/-- A path that leads to a directory is not on record as refused. -/
theorem Apart.not_refused {σ : Type} {survey : Survey σ} {s : σ} {paths : List Path} {path : Path}
    {k : String} (h : survey.Apart paths) (hp : path ∈ paths)
    (named : survey.workspace.packageName path = .ok k)
    (there : survey.files.kind path s = .ok .directory) :
    ¬ (survey.snapshot s paths).RefusedForLength k := by
  rintro ⟨_, told⟩
  obtain ⟨other, ho, trouble⟩ := h.errorOf_snapshot.1 told
  cases trouble with
  | absent named' absent =>
    obtain rfl := h.eq_of_packageName ho hp named' named
    rw [(absence_eq_none other).2 there] at absent
    cases absent

/-- **A survey, and one of the same project that finds more**, each with what it covers; the second
one has come upon no text that is too long, unless the first one has. -/
structure Enlarging (survey : Survey World) (more : PackageReader World) (w : World)
    (paths paths' : List Path) (spell spell' : List Component → Path) : Prop where
  /-- They survey the disk of the world. -/
  files : survey.files = World.files
  /-- The second one finds more. -/
  extended : ∀ p q, p.components = q.components → World.files.kind p w = .ok .directory →
    World.files.kind q w = .ok .directory →
      (survey.found w p).ExtendedBy ((survey.rereading more).found w q)
  /-- What the first one covers. -/
  covering : survey.Covering w paths spell
  /-- What the second one covers. -/
  covering' : (survey.rereading more).Covering w paths' spell'
  /-- No further path was refused for its length. -/
  refused : ∀ k, ((survey.rereading more).snapshot w paths').RefusedForLength k →
    (survey.snapshot w paths).RefusedForLength k

namespace Enlarging

variable {survey : Survey World} {more : PackageReader World} {w : World}
  {paths paths' : List Path} {spell spell' : List Component → Path} {path path' : Path}
  {k q : String} (h : survey.Enlarging more w paths paths' spell spell')
include h

section Same

variable (hp : path ∈ paths) (hp' : path' ∈ paths') (same : path'.components = path.components)
include hp hp' same

/-- **A directory that the first survey read, the second one reads**, by whatever text. -/
theorem reads (reads : survey.Reads w path k) : (survey.rereading more).Reads w path' k := by
  have named' := (Workspace.packageName_congr same).2 reads.named
  have there := reads.directory
  rw [h.files] at there
  have directory : World.files.kind path' w = .ok .directory := by
    refine (World.kind_respell there same).resolve_right fun long => ?_
    -- the second survey would have told, and then the first one as well
    have trouble : (survey.rereading more).Trouble w path' k
        (.stat path' OsError.nameTooLong.message) := by
      refine .absent named' ?_
      show absence path' (survey.files.kind path' w) = _
      rw [h.files, long]
      rfl
    exact h.covering.apart.not_refused hp reads.named reads.directory
      (h.refused k ⟨path', h.covering'.apart.errorOf_snapshot.2 ⟨path', hp', trouble⟩⟩)
  exact ⟨named', h.files ▸ directory, (Workspace.isSrcDir_congr same).trans reads.proper⟩

theorem extendedBy (reads : survey.Reads w path k) :
    (survey.found w path).ExtendedBy ((survey.rereading more).found w path') := by
  have there := reads.directory
  have there' : survey.files.kind path' w = .ok .directory := (h.reads hp hp' same reads).directory
  rw [h.files] at there there'
  exact h.extended path path' same.symm there there'

end Same

/-- **What the first survey covers, the second one covers.** -/
theorem covered {l : List Component} (covered : survey.Covered w spell l) :
    (survey.rereading more).Covered w spell' l := by
  refine Covered.enlarge (fun l covered => (h.covering.mem covered).2)
    (fun l covered => (h.covering'.mem covered).2) (fun l covered covered' enters => ?_) covered
  obtain ⟨hp, same⟩ := h.covering.mem covered
  obtain ⟨hp', same'⟩ := h.covering'.mem covered'
  obtain ⟨⟨name, reads⟩, sound⟩ := enters
  have reads' := h.reads hp hp' (same'.trans same.symm) reads
  have extended := h.extendedBy hp hp' (same'.trans same.symm) reads
  refine ⟨⟨⟨name, reads'⟩, fun broken => sound (extended.broken broken)⟩, ?_, extended.imports⟩
  have there := reads.directory
  have there' : survey.files.kind (spell' l) w = .ok .directory := reads'.directory
  rw [h.files] at there there' ⊢
  exact World.directories_respell there' there (same'.trans same.symm)

/-- Each path of the first survey is one of the second, by whatever text. -/
theorem exists_mem (hp : path ∈ paths) :
    ∃ path' ∈ paths', path'.components = path.components :=
  ⟨_, h.covering'.mem (h.covered (h.covering.covered_of_mem hp))⟩

/-- **Each import on record is still on record.** -/
theorem imports (edge : (survey.snapshot w paths).Imports k q) :
    ((survey.rereading more).snapshot w paths').Imports k q := by
  obtain ⟨path, hp, reads, hq⟩ := imports_snapshot.1 edge
  obtain ⟨path', hp', same⟩ := h.exists_mem hp
  exact imports_snapshot.2 ⟨path', hp', h.reads hp hp' same reads,
    (h.extendedBy hp hp' same reads).imports q hq⟩

theorem importedFrom (edge : (survey.snapshot w paths).ImportedFrom k q) :
    ((survey.rereading more).snapshot w paths').ImportedFrom k q := by
  obtain ⟨path, hp, reads, hk⟩ := importedFrom_snapshot.1 edge
  obtain ⟨path', hp', same⟩ := h.exists_mem hp
  exact importedFrom_snapshot.2 ⟨path', hp', h.reads hp hp' same reads,
    (h.extendedBy hp hp' same reads).imports k hk⟩

/-- **Trouble stays on record**, unless it depends on how the path is written, or further imports
make up for it. -/
theorem has_of_trouble {e : DependencyError} (hp : path ∈ paths)
    (trouble : survey.Trouble w path k e) :
    ((survey.rereading more).snapshot w paths').Has k ∨
      (survey.snapshot w paths).WrittenOtherwise ((survey.rereading more).snapshot w paths') k := by
  obtain ⟨path', hp', same⟩ := h.exists_mem hp
  have recorded := h.covering.apart.errorOf_snapshot.2 ⟨path, hp, trouble⟩
  cases trouble with
  | @unnamed cause unnamed =>
    cases unnamed' : survey.workspace.packageName path' with
    | ok name => cases unnamed.symm.trans ((Workspace.packageName_congr same).1 unnamed')
    | error cause' =>
      exact .inr (.unnamed recorded rfl same
        (h.covering'.apart.errorOf_snapshot.2 ⟨path', hp', .unnamed unnamed'⟩))
  | @absent _ e named absent =>
    have named' := (Workspace.packageName_congr same).2 named
    cases absent' : Survey.absence path' (survey.files.kind path' w) with
    | some e' =>
      exact .inl (has_snapshot.2 ⟨path', hp', .inr ⟨e', .absent named' absent'⟩⟩)
    | none =>
      -- by the other text the directory is there, so it was refused for its length
      have there := (absence_eq_none path').1 absent'
      rw [h.files] at there absent
      rcases World.kind_respell there same.symm with directory | long
      · rw [directory] at absent
        cases absent
      · rw [long] at absent
        obtain rfl := Option.some.inj absent
        exact .inr (.refused ⟨path, recorded⟩)
  | unread reads none error broken =>
    have reads' := h.reads hp hp' same reads
    left
    rcases (h.extendedBy hp hp' same reads).usable_or_broken ⟨none, _, error, broken⟩ with
      usable | ⟨none', e', error', broken'⟩
    · exact has_snapshot.2 ⟨path', hp', .inl ⟨k, reads', usable, .inl rfl⟩⟩
    · exact has_snapshot.2 ⟨path', hp', .inr ⟨_, .unread reads' none' error' broken'⟩⟩

/-- **The graph of the first survey is within that of the second**, but for what is written
otherwise. -/
theorem within :
    (survey.snapshot w paths).Within ((survey.rereading more).snapshot w paths')
      ((survey.snapshot w paths).WrittenOtherwise ((survey.rereading more).snapshot w paths')) where
  imports _ _ := h.imports
  importedFrom _ _ := h.importedFrom
  has k onRecord := by
    obtain ⟨path, hp, ⟨name, reads, usable, here⟩ | ⟨e, trouble⟩⟩ := has_snapshot.1 onRecord
    · obtain ⟨path', hp', same⟩ := h.exists_mem hp
      have extended := h.extendedBy hp hp' same reads
      exact .inl (has_snapshot.2 ⟨path', hp', .inl ⟨name, h.reads hp hp' same reads,
        extended.usable usable, here.imp_right (extended.imports k)⟩⟩)
    · exact h.has_of_trouble hp trouble

end Enlarging

end Survey

end Depot
