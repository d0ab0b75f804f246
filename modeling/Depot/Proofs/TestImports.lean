import Depot.Proofs.Agreement
import Depot.Proofs.Get.Gathered
import Depot.Proofs.Survey.Enlarging
import Depot.Proofs.Workspace.Dotted

/-!
# What test imports add

Whether the imports of test files count is a setting. Where they do, getting a project reaches
whatever it reaches without them, as long as all of it is there (`Project.get_without_tests`). What
is saved grows as well, up to how directories are written (`Project.save_without_tests`).

The reservation is needed. The survey writes a directory as the first import path does that leads
there, and test imports may come first. A directory without import path is on record by its text,
which then is another one. And a text may be too long for the system: then the survey goes no
further, and even imports that were on record are lost (`Project.tests_may_take_away`).
-/

namespace Depot

/-- **Graphs of packages grow** with the packages, and with what these import. -/
theorem Graph.within_ofPackages {imports imports' : String → List String}
    {packages packages' : List String} (among : ∀ k ∈ packages, k ∈ packages')
    (more : ∀ k, ∀ i ∈ imports k, i ∈ imports' k) :
    (ofPackages imports packages).Within (ofPackages imports' packages') fun _ => False where
  has k h := by
    obtain ⟨q, hq, here⟩ := has_ofPackages.1 h
    exact .inl (has_ofPackages.2 ⟨q, among q hq, here.imp_right (more q k)⟩)
  imports k q h := by
    obtain ⟨hk, edge⟩ := imports_ofPackages.1 h
    exact imports_ofPackages.2 ⟨among k hk, more k q edge⟩
  importedFrom k q h := by
    obtain ⟨hq, edge⟩ := importedFrom_ofPackages.1 h
    exact importedFrom_ofPackages.2 ⟨among q hq, more q k edge⟩

namespace Project

/-- **With fewer imports, getting yields no more**, where all packages are there. -/
theorem get_within {σ : Type} (p : Project) (means means' : Means σ) (paths : List String) (s : σ)
    {answer answer' : Path → PackageImports} {got : Graph} (still : p.configuration.updates = false)
    (files : means'.files = means.files)
    (unchanging : (p.loadPlan means).Unchanging answer s)
    (unchanging' : (p.loadPlan means').Unchanging answer' s)
    (extended : ∀ dir, (answer' dir).ExtendedBy (answer dir))
    (get : (p.get means paths s).1 = .ok got)
    (there : ∀ k, got.Has k → (p.loadPlan means).kindOf k s = .ok .directory)
    (enough : got.size ≤ means'.budget) :
    ∃ less, (p.get means' paths s).1 = .ok less ∧ less.Within got fun _ => False := by
  obtain ⟨starts, packages, chosen, rfl, reached, sound⟩ :=
    p.get_present means paths s still unchanging get there
  have there' (k : String) (has : (Graph.ofPackages (LoadPlan.importsBy p.workspace answer)
      packages).Has k) : (p.loadPlan means').kindOf k s = .ok .directory := by
    have here := there k has
    rwa [LoadPlan.kindOf, show (p.loadPlan means').files = (p.loadPlan means).files from files]
  have more (k : String) : ∀ i ∈ LoadPlan.importsBy p.workspace answer' k,
      i ∈ LoadPlan.importsBy p.workspace answer k := (extended _).imports
  have kept (k : String) : k ∈ (Graph.ofPackages (LoadPlan.importsBy p.workspace answer)
      packages).importPaths ↔ k ∈ packages := by
    rw [Graph.mem_importPaths, Graph.has_ofPackages]
    refine ⟨?_, fun hk => ⟨k, hk, .inl rfl⟩⟩
    rintro ⟨q, hq, rfl | edge⟩
    · exact hq
    · exact (reached k).2 (((reached q).1 hq).tail edge)
  -- what is on record is gathered, whichever imports count
  have gathered : (p.loadPlan means').Gathered answer' s
      (Graph.ofPackages (LoadPlan.importsBy p.workspace answer) packages).importPaths :=
    { there := fun k hk => there' k (Graph.mem_importPaths.1 hk)
      sound := fun k hk => (extended _).error_eq_none_iff.2 (sound k ((kept k).1 hk))
      closed := fun k hk i edge => Graph.mem_importPaths.2
        (Graph.has_ofPackages.2 ⟨k, (kept k).1 hk, .inr (more k i edge)⟩) }
  have number : (Graph.ofPackages (LoadPlan.importsBy p.workspace answer)
      packages).importPaths.length ≤ means'.budget := by
    rwa [Graph.importPaths, List.length_map]
  obtain ⟨less, get', among⟩ := p.get_gathered means' s still unchanging' gathered number chosen
    fun k hk => (kept k).2 ((reached k).2 ⟨k, hk, .refl⟩)
  refine ⟨less, get', ?_⟩
  obtain ⟨_, packages', chosen', rfl, reached', -⟩ := p.get_present means' paths s still unchanging'
    get' fun k hk => there' k (Graph.mem_importPaths.1 (among k hk))
  obtain rfl := Except.ok.inj (chosen'.symm.trans chosen)
  exact Graph.within_ofPackages (fun k hk => (reached k).2 (((reached' k).1 hk).mono more)) more

section WithoutTests

variable (p : Project) {describe : Path → Attempt World ListedPackage}
  {resolver : RepoResolver World} {w : World}
  (undisturbed : ∀ tests, (PackageReader.describing describe tests).Undisturbed w)
include undisturbed

/-- **Getting without test imports yields no more than with them**, where all packages are there. -/
theorem get_without_tests (still : p.configuration.updates = false) (paths : List String)
    {budget budget' : Nat} {got : Graph}
    (get : (p.get (.describing describe resolver true budget) paths w).1 = .ok got)
    (there : ∀ k, got.Has k →
      World.files.kind (p.workspace.packageSource k) w = .ok .directory)
    (enough : got.size ≤ budget') :
    ∃ less, (p.get (.describing describe resolver false budget') paths w).1 = .ok less ∧
      less.Within got fun _ => False := by
  have files : (p.loadPlan (.describing describe resolver true budget)).files = World.files := rfl
  have workspace : (p.loadPlan (.describing describe resolver true budget)).workspace = p.workspace :=
    rfl
  have here (k : String) (has : got.Has k) :
      (p.loadPlan (.describing describe resolver true budget)).kindOf k w = .ok .directory := by
    rw [LoadPlan.kindOf, files, workspace]
    exact there k has
  exact p.get_within (.describing describe resolver true budget)
    (.describing describe resolver false budget') paths w still rfl
    (LoadPlan.unchanging_of_undisturbed rfl (undisturbed true))
    (LoadPlan.unchanging_of_undisturbed rfl (undisturbed false))
    (fun _ => PackageReader.extendedBy_describing rfl) get here enough

/-- **What is saved without test imports is on record in what is saved with them**, but for what is
written otherwise. -/
theorem save_without_tests
    (uniform : ∀ dir dir' : Path, dir.components = dir'.components →
      World.files.kind dir w = .ok .directory → World.files.kind dir' w = .ok .directory →
        (describe dir w).1.toOption = (describe dir' w).1.toOption)
    {budget budget' : Nat} {less more : Graph} {m m' : Manifest}
    (save : (p.save (.describing describe resolver false budget) w).1 = .ok (less, m))
    (save' : (p.save (.describing describe resolver true budget') w).1 = .ok (more, m'))
    (refused : ∀ k, more.RefusedForLength k → less.RefusedForLength k) :
    less.Within more (less.WrittenOtherwise more) := by
  obtain ⟨name, named, ended, surveyed⟩ := save_eq_ok save
  obtain ⟨_, -, ended', surveyed'⟩ := save_eq_ok save'
  have inside := packageName_root named
  obtain ⟨paths, spell, covering, recorded⟩ :=
    (p.survey (.describing describe resolver false budget)).exists_covering budget w inside
      (Survey.unchanging_of_undisturbed rfl (undisturbed false)) ended
  obtain ⟨paths', spell', covering', recorded'⟩ :=
    (p.survey (.describing describe resolver true budget')).exists_covering budget' w inside
      (Survey.unchanging_of_undisturbed rfl (undisturbed true)) ended'
  obtain rfl := surveyed.trans recorded
  obtain rfl := surveyed'.trans recorded'
  have enlarging : (p.survey (.describing describe resolver false budget)).Enlarging
      (.describing describe true) w paths paths' spell spell' :=
    { files := rfl
      extended := fun dir dir' same here here' =>
        PackageReader.extendedBy_describing (uniform dir dir' same here here')
      covering := covering
      covering' := covering'
      refused := refused }
  exact enlarging.within

/-- **Test imports only add to the graph.** Let reading packages change nothing.

* Where nothing is to be updated, getting a project with test imports succeeds and all packages on
  record are there, getting it without them succeeds as well, and its graph is within the other.
* Where the same is said of a directory however it is written, a project is saved both ways, and the
  graph with test imports has no further package on record as refused for its length, the graph
  without them is within that graph. Exempt are packages that were refused themselves, and
  directories that have no import path and are on record there by another text. -/
theorem tests_only_add :
    (p.configuration.updates = false → ∀ paths budget got,
      (p.get (.describing describe resolver true budget) paths w).1 = .ok got →
        (∀ k, got.Has k → World.files.kind (p.workspace.packageSource k) w = .ok .directory) →
          ∀ budget', got.size ≤ budget' →
            ∃ less, (p.get (.describing describe resolver false budget') paths w).1 = .ok less ∧
              less.Within got fun _ => False) ∧
    ((∀ dir dir' : Path, dir.components = dir'.components →
        World.files.kind dir w = .ok .directory → World.files.kind dir' w = .ok .directory →
          (describe dir w).1.toOption = (describe dir' w).1.toOption) →
      ∀ budget budget' less m more m',
        (p.save (.describing describe resolver false budget) w).1 = .ok (less, m) →
          (p.save (.describing describe resolver true budget') w).1 = .ok (more, m') →
            (∀ k, more.RefusedForLength k → less.RefusedForLength k) →
              less.Within more (less.WrittenOtherwise more)) :=
  ⟨fun still paths _ _ get there _ enough =>
      p.get_without_tests undisturbed still paths get there enough,
    fun uniform _ _ _ _ _ _ save save' refused =>
      p.save_without_tests undisturbed uniform save save' refused⟩

end WithoutTests

section Tool

variable (p : Project) {tool : PackageTool} {resolver : RepoResolver World} {w : World}
  (undisturbed : ∀ tests, ({ tool with tests } : PackageTool).reader.Undisturbed w)
include undisturbed

/-- **With the package tool**, getting without test imports yields no more either. -/
theorem get_tool_without_tests (still : p.configuration.updates = false) (paths : List String)
    {budget budget' : Nat} {got : Graph}
    (get : (p.get (.ofTool tool resolver true budget) paths w).1 = .ok got)
    (there : ∀ k, got.Has k →
      World.files.kind (p.workspace.packageSource k) w = .ok .directory)
    (enough : got.size ≤ budget') :
    ∃ less, (p.get (.ofTool tool resolver false budget') paths w).1 = .ok less ∧
      less.Within got fun _ => False := by
  simp only [PackageTool.reader_eq] at undisturbed
  rw [Means.ofTool_eq] at get ⊢
  exact p.get_without_tests undisturbed still paths get there enough

/-- **With the package tool**, what is saved without test imports is on record as well. -/
theorem save_tool_without_tests
    (uniform : ∀ dir dir' : Path, dir.components = dir'.components →
      World.files.kind dir w = .ok .directory → World.files.kind dir' w = .ok .directory →
        (tool.describe dir w).1.toOption = (tool.describe dir' w).1.toOption)
    {budget budget' : Nat} {less more : Graph} {m m' : Manifest}
    (save : (p.save (.ofTool tool resolver false budget) w).1 = .ok (less, m))
    (save' : (p.save (.ofTool tool resolver true budget') w).1 = .ok (more, m'))
    (refused : ∀ k, more.RefusedForLength k → less.RefusedForLength k) :
    less.Within more (less.WrittenOtherwise more) := by
  simp only [PackageTool.reader_eq] at undisturbed
  rw [Means.ofTool_eq] at save save'
  exact p.save_without_tests undisturbed uniform save save' refused

end Tool

/-! ## A package whose tests import it -/

/-- A project on a host. -/
def hosted : Project where
  cwd := ⟨"/w/src/h.org/p"⟩
  root := ⟨"/w/src/h.org/p"⟩
  configuration := {}
  usualWorkspace := ⟨"/w"⟩

/-- The world it is in. -/
def hostedWorld : World where
  disk := ⟨[(["w"], .directory), (["w", "src"], .directory), (["w", "src", "h.org"], .directory),
    (["w", "src", "h.org", "p"], .directory), (["w", "src", "h.org", "c"], .directory),
    (["w", "src", "h.org", "lib"], .directory)]⟩

/-- Descriptions that depend on the directory only. -/
def describedAs (listing : List Component → ListedPackage) (dir : Path) :
    Attempt World ListedPackage :=
  fun w => (.ok (listing dir.components), w)

/-- However a directory is written, it is described alike. -/
theorem toOption_describedAs (listing : List Component → ListedPackage) (w : World) {dir dir' : Path}
    (same : dir.components = dir'.components) :
    (describedAs listing dir w).1.toOption = (describedAs listing dir' w).1.toOption := by
  show some (listing dir.components) = some (listing dir'.components)
  rw [same]

/-- No repository is known. -/
def unresolved : RepoResolver World where
  resolve _ _ w := (.error .foreign, w)

/-- What the project is got and saved with. -/
def hostedMeans (listing : List Component → ListedPackage) (tests : Bool) (budget : Nat) :
    Means World :=
  .describing (describedAs listing) unresolved tests budget

/-- How it is surveyed. -/
def hostedSurvey (listing : List Component → ListedPackage) (tests : Bool) : Survey World :=
  hosted.survey (hostedMeans listing tests 0)

theorem undisturbed_describedAs (listing : List Component → ListedPackage) (tests : Bool)
    (w : World) : (PackageReader.describing (describedAs listing) tests).Undisturbed w :=
  PackageReader.undisturbed_of_still (fun _ _ => rfl) w

theorem packageName_hosted : hosted.workspace.packageName hosted.root = .ok "h.org/p" := by
  decide

theorem importPath_hosted : hosted.importPath = .ok "h.org/p" := by
  rw [importPath, packageName_hosted]

theorem reads_hosted (listing : List Component → ListedPackage) (tests : Bool) :
    (hostedSurvey listing tests).Reads hostedWorld hosted.root "h.org/p" where
  named := packageName_hosted
  directory := by
    show World.files.kind hosted.root hostedWorld = _
    decide
  proper := by
    show hosted.workspace.isSrcDir hosted.root = _
    decide

theorem listable_hosted (listing : List Component → ListedPackage) (tests : Bool) :
    (hostedSurvey listing tests).Listable hostedWorld :=
  fun _ _ there => World.directories_isOk there

/-- Once its survey has come to its end, it is saved. -/
theorem save_hosted {listing : List Component → ListedPackage} {tests : Bool} {budget : Nat}
    {visited : List (List Component)} {graph : Graph}
    (surveyed : Walk.traverse (hostedSurvey listing tests).visitor budget hosted.root []
      (Graph.empty, hostedWorld) = ⟨.ok (), visited, (graph, hostedWorld)⟩) :
    (hosted.save (hostedMeans listing tests budget) hostedWorld).1 = .ok (graph, []) :=
  save_of_unknown importPath_hosted (fun _ _ _ => ⟨.foreign, rfl⟩) rfl surveyed

/-- A package with no imports but that of itself, in its tests. -/
def selfTested (_ : List Component) : ListedPackage where
  testImports := ["h.org/p"]

/-- What is loaded when it is got. -/
def selfTestedLoader : Loader where
  graph := Graph.empty.record "h.org/p" ["h.org/p"]

theorem get_selfTested :
    hosted.get (hostedMeans selfTested true 1) [] hostedWorld =
      (.ok selfTestedLoader.graph, hostedWorld) := by
  let plan := hosted.loadPlan (hostedMeans selfTested true 1)
  have chosen : hosted.startsOf [] = .ok ["h.org/p"] := by
    rw [startsOf, importPath_hosted]
    rfl
  have read : plan.reader.read (plan.workspace.packageSource "h.org/p") hostedWorld =
      ({ imports := ["h.org/p"] }, hostedWorld) :=
    Prod.ext (by decide) rfl
  have handle : plan.visitor.handle "h.org/p" ({}, hostedWorld) =
      (.ok .descend, (selfTestedLoader, hostedWorld)) :=
    LoadPlan.handle_of_load (LoadPlan.load_of_there rfl (by decide) read rfl)
  have imports : LoadPlan.importsOf selfTestedLoader "h.org/p" = .ok ["h.org/p"] := by
    decide
  have known : Walk.pending [NodeId.key "h.org/p"] ["h.org/p"] = [] :=
    Walk.pending_of_old (by simp)
  have walk : Walk.traverse plan.visitor 1 "h.org/p" [] ({}, hostedWorld) =
      ⟨.ok (), ["h.org/p"], (selfTestedLoader, hostedWorld)⟩ := by
    rw [Walk.traverse, Walk.run_descend 0 (by decide) handle (congrArg (·, _) imports), known]
    rfl
  exact get_of_walk chosen (Walk.traverseAll_cons_of_ok [] walk)

/-- The survey of it reads its directory, and nothing else. -/
theorem survey_selfTested (tests : Bool) :
    Walk.traverse (hostedSurvey selfTested tests).visitor 1 hosted.root []
      (Graph.empty, hostedWorld) =
        ⟨.ok (), [hosted.root.components],
          ((hostedSurvey selfTested tests).snapshot hostedWorld [hosted.root], hostedWorld)⟩ := by
  refine Survey.run_snapshot (listable_hosted selfTested tests) [] le_rfl
    ⟨List.nodup_singleton _, List.forall_mem_singleton.2 (.of_packageName packageName_hosted)⟩
    (fun _ _ => rfl) ?_
  intro path hp child hc
  obtain rfl := List.mem_singleton.1 hp
  have known : ∀ child ∈ (hostedSurvey selfTested tests).children hostedWorld hosted.root,
      child.components = hosted.root.components := by
    cases tests <;> decide +kernel
  exact .inl (known child hc)

/-- The package is got and saved both ways. Its tests only add that it imports itself. -/
theorem tests_only_add_selfTested :
    let describe := describedAs selfTested
    let less := (hostedSurvey selfTested false).snapshot hostedWorld [hosted.root]
    let more := (hostedSurvey selfTested true).snapshot hostedWorld [hosted.root]
    (∀ tests, (PackageReader.describing describe tests).Undisturbed hostedWorld) ∧
      hosted.configuration.updates = false ∧
      (hosted.get (.describing describe unresolved true 1) [] hostedWorld).1
        = .ok selfTestedLoader.graph ∧
      (∀ k, selfTestedLoader.graph.Has k →
        World.files.kind (hosted.workspace.packageSource k) hostedWorld = .ok .directory) ∧
      selfTestedLoader.graph.size ≤ 1 ∧
      (∀ dir dir' : Path, dir.components = dir'.components →
        (describe dir hostedWorld).1.toOption = (describe dir' hostedWorld).1.toOption) ∧
      (hosted.save (.describing describe unresolved false 1) hostedWorld).1 = .ok (less, []) ∧
      (hosted.save (.describing describe unresolved true 1) hostedWorld).1 = .ok (more, []) ∧
      (∀ k, more.RefusedForLength k → less.RefusedForLength k) ∧
      (∃ less, (hosted.get (.describing describe unresolved false 1) [] hostedWorld).1 = .ok less ∧
        less.Within selfTestedLoader.graph fun _ => False) ∧
      less.Within more (less.WrittenOtherwise more) := by
  intro describe less more
  have undisturbed (tests : Bool) :
      (PackageReader.describing describe tests).Undisturbed hostedWorld :=
    undisturbed_describedAs selfTested tests hostedWorld
  have got : (hosted.get (.describing describe unresolved true 1) [] hostedWorld).1
      = .ok selfTestedLoader.graph :=
    congrArg Prod.fst get_selfTested
  have there (k : String) (has : selfTestedLoader.graph.Has k) :
      World.files.kind (hosted.workspace.packageSource k) hostedWorld = .ok .directory := by
    have all : ∀ k ∈ selfTestedLoader.graph.importPaths,
        World.files.kind (hosted.workspace.packageSource k) hostedWorld = .ok .directory := by
      decide
    exact all k (Graph.mem_importPaths.2 has)
  have uniform (dir dir' : Path) (same : dir.components = dir'.components) :
      (describe dir hostedWorld).1.toOption = (describe dir' hostedWorld).1.toOption :=
    toOption_describedAs selfTested hostedWorld same
  have saved : (hosted.save (.describing describe unresolved false 1) hostedWorld).1
      = .ok (less, []) := save_hosted (survey_selfTested false)
  have saved' : (hosted.save (.describing describe unresolved true 1) hostedWorld).1
      = .ok (more, []) := save_hosted (survey_selfTested true)
  have refused (k : String) (long : more.RefusedForLength k) : less.RefusedForLength k := by
    have none : ∀ dep ∈ more.records, dep.error = none := by decide
    obtain ⟨path, told⟩ := long
    cases (Graph.errorOf_eq_none none k).symm.trans told
  have small : selfTestedLoader.graph.size ≤ 1 := by decide
  exact ⟨undisturbed, rfl, got, there, small, uniform, saved, saved', refused,
    (hosted.tests_only_add undisturbed).1 rfl [] 1 _ got there 1 small,
    (hosted.tests_only_add undisturbed).2 (fun dir dir' same _ _ => uniform dir dir' same) 1 1 _ _ _ _
      saved saved' refused⟩

/-! ## A package whose tests make detours -/

section Detours

open ImportPath (dotted)

/-- As many dots as make any text too long. -/
@[irreducible] def dots : Nat := Disk.pathLimit

theorem pathLimit_le_dots : Disk.pathLimit ≤ dots := by
  unfold dots
  exact le_rfl

/-- What the package imports. -/
def usualImports : List String := ["h.org//./../b", dotted "h.org/c" dots, "h.org/lib"]

/-- What its tests import. The directories are the same, and so is their order. -/
def detourImports : List String := ["h.org/../b", "h.org/./c", dotted "h.org/./lib" dots]

/-- How the packages are described. One has no source files to build. -/
def roundabout (dir : List Component) : ListedPackage :=
  if dir = hosted.root.components then { imports := usualImports, testImports := detourImports }
  else if dir = (Path.mk "/w/src/h.org/c").components then
    { error := some (.ofMessage "no Go files in c") }
  else { imports := ["h.org/p"] }

/-- The directories of these imports. -/
def stops : List (List Component) :=
  [(Path.mk "/w/src/h.org/../b").components, (Path.mk "/w/src/h.org/c").components,
    (Path.mk "/w/src/h.org/lib").components]

/-- The imports of the tests come first in the order of import paths. -/
theorem sorted_detours_usual : Ordered.Sorted id (detourImports ++ usualImports) := by
  obtain ⟨_, lib⟩ := ImportPath.exists_toList_dotted "h.org/./lib" dots
  obtain ⟨_, c⟩ := ImportPath.exists_toList_dotted "h.org/c" dots
  refine Ordered.sorted_of_isChain
    (.cons_cons ?_ (.cons_cons ?_ (.cons_cons ?_ (.cons_cons ?_ (.cons_cons ?_ (.singleton _))))))
  · decide
  · exact ImportPath.compare_eq_lt "h.org/./".toList rfl lib (by decide)
  · exact ImportPath.compare_eq_lt "h.org/".toList lib rfl (by decide)
  · exact ImportPath.compare_eq_lt "h.org/".toList rfl c (by decide)
  · exact ImportPath.compare_eq_lt "h.org/".toList c rfl (by decide)

theorem remote_detours_usual :
    ∀ i ∈ detourImports ++ usualImports, ImportPath.isRemote i = true := by
  have remote (stem : String) (h : ImportPath.isRemote stem = true) :=
    ImportPath.isRemote_dotted h dots
  have lib := remote "h.org/./lib" (by decide)
  have c := remote "h.org/c" (by decide)
  have others : ∀ i ∈ ["h.org/../b", "h.org/./c", "h.org//./../b", "h.org/lib"],
      ImportPath.isRemote i = true := by
    decide
  simp only [List.forall_mem_cons, detourImports, usualImports, List.cons_append,
    List.nil_append] at others ⊢
  exact ⟨others.1, others.2.1, lib, others.2.2.1, c, others.2.2.2⟩

/-- The imports that count. -/
def countingImports (tests : Bool) : List String :=
  if tests then detourImports ++ usualImports else usualImports

theorem mem_of_mem_countingImports {tests : Bool} {i : String} (h : i ∈ countingImports tests) :
    i ∈ detourImports ++ usualImports := by
  cases tests
  · exact List.mem_append_right _ h
  · exact h

theorem sorted_countingImports (tests : Bool) : Ordered.Sorted id (countingImports tests) := by
  cases tests
  · exact sorted_detours_usual.sublist (List.sublist_append_right _ _)
  · exact sorted_detours_usual

/-- **What is found in the directory of the project**: the imports that count, in order. -/
theorem found_roundabout (tests : Bool) :
    (hostedSurvey roundabout tests).found hostedWorld hosted.root =
      { imports := countingImports tests } := by
  have described : roundabout hosted.root.components =
      { imports := usualImports, testImports := detourImports } := if_pos rfl
  show ({ imports := (roundabout hosted.root.components).remoteImports tests,
          error := (roundabout hosted.root.components).error.map .package } : PackageImports) = _
  rw [described]
  refine congrArg (PackageImports.mk · none)
    (StringSet.toList_ofList_eq (sorted_countingImports tests) ?_)
  intro i
  rw [List.mem_filter]
  refine ⟨fun ⟨h, _⟩ => ?_,
    fun h => ⟨?_, remote_detours_usual i (mem_of_mem_countingImports h)⟩⟩ <;>
    cases tests <;> simpa [countingImports, or_comm] using h

/-- How the directories of these imports are written when the project leads there. -/
def stopsAs (tests : Bool) : List Path :=
  (if tests then detourImports else usualImports).map hosted.workspace.packageSource

theorem components_stopsAs (tests : Bool) : (stopsAs tests).map Path.components = stops := by
  have lib := hosted.workspace.components_packageSource_dotted "h.org/./lib" dots
  have c := hosted.workspace.components_packageSource_dotted "h.org/c" dots
  cases tests
  · show [_, _, _] = stops
    rw [c]
    decide
  · show [_, _, _] = stops
    rw [lib]
    decide

theorem sorted_stopsAs (tests : Bool) : Ordered.Sorted Path.components (stopsAs tests) := by
  have sorted : stops.Pairwise fun k l => compare k l = .lt := by decide
  rw [← components_stopsAs tests] at sorted
  exact List.pairwise_map.1 sorted

/-- **Where the project leads**: to the directories of the imports that come first. -/
theorem children_roundabout (tests : Bool) :
    (hostedSurvey roundabout tests).children hostedWorld hosted.root = stopsAs tests := by
  have below : (hostedSurvey roundabout tests).below hosted.root hostedWorld = .ok [] := by
    cases tests <;> decide +kernel
  have sound : ¬ ((hostedSurvey roundabout tests).found hostedWorld hosted.root).Broken := by
    rw [found_roundabout]
    rintro ⟨-, _, e, -⟩
    cases e
  have sources : (countingImports tests).map hosted.workspace.packageSource =
      stopsAs tests ++ if tests then stopsAs false else [] := by
    cases tests <;> rfl
  unfold Survey.children
  rw [below]
  dsimp only
  rw [if_neg sound, found_roundabout,
    StringSet.toList_ofList_eq (sorted_countingImports tests) fun _ => .rfl, List.nil_append]
  refine (congrArg Survey.distinct sources).trans
    (Survey.distinct_append (sorted_stopsAs tests) fun p hp => ?_)
  rw [components_stopsAs]
  cases tests
  · cases hp
  · exact components_stopsAs false ▸ List.mem_map_of_mem hp

/-- The project and these directories are kept apart. -/
theorem apart_stopsAs (tests : Bool) :
    (hostedSurvey roundabout tests).Apart (hosted.root :: stopsAs tests) where
  once := by
    rw [List.map_cons, components_stopsAs]
    decide
  placed p hp := by
    rcases List.mem_cons.1 hp with rfl | hp
    · exact .of_packageName packageName_hosted
    · obtain ⟨i, -, rfl⟩ := List.mem_map.1 hp
      exact hosted.workspace.placed_packageSource i

/-- These directories lead back to the project at most. -/
theorem leads_back_stopsAs {tests : Bool} {path child : Path} (hp : path ∈ stopsAs tests)
    (hc : child ∈ (hostedSurvey roundabout tests).children hostedWorld path) :
    child.components = hosted.root.components := by
  have stop : path.components ∈ stops := components_stopsAs tests ▸ List.mem_map_of_mem hp
  have outside : ¬ path.startsWith hosted.root = true := by
    have all : ∀ k ∈ stops, ¬ hosted.root.components.isPrefixOf k = true := by decide
    exact all _ stop
  have below : (hostedSurvey roundabout tests).below path hostedWorld = .ok [] := if_neg outside
  obtain ⟨-, ⟨inside, -⟩ | ⟨i, hi, same⟩⟩ :=
    (Survey.mem_map_children below).1 (List.mem_map_of_mem hc)
  · exact absurd inside outside
  · have only : ∀ k ∈ stops, ∀ tests, ∀ i ∈ (roundabout k).remoteImports tests, i = "h.org/p" := by
      decide
    have back : (hosted.workspace.packageSource "h.org/p").components = hosted.root.components := by
      decide
    obtain rfl := only _ stop tests i hi
    exact same.symm.trans back

/-- **The survey goes to the project and to these directories.** -/
theorem survey_roundabout (tests : Bool) :
    ∃ visited, Walk.traverse (hostedSurvey roundabout tests).visitor 4 hosted.root []
      (Graph.empty, hostedWorld) = ⟨.ok (), visited,
        ((hostedSurvey roundabout tests).snapshot hostedWorld (hosted.root :: stopsAs tests),
          hostedWorld)⟩ := by
  have handle : (hostedSurvey roundabout tests).visitor.handle hosted.root
      ((hostedSurvey roundabout tests).snapshot hostedWorld [], hostedWorld) =
        (.ok .descend, ((hostedSurvey roundabout tests).snapshot hostedWorld [hosted.root],
          hostedWorld)) :=
    Survey.handle_of_reads (reads_hosted roundabout tests) []
  have next := ((apart_stopsAs tests).sublist (List.singleton_sublist.2 List.mem_cons_self)).next_eq
    (List.mem_singleton_self _) (reads_hosted roundabout tests) (listable_hosted roundabout tests)
  rw [children_roundabout] at next
  have queued : Walk.pending [NodeId.key hosted.root] (stopsAs tests) = stopsAs tests := by
    refine Walk.pending_of_new ((sorted_stopsAs tests).imp fun {p q} before => ?_) fun p hp => ?_
    · show (compare p.components q.components).isLE = true
      rw [before]
      rfl
    · intro same
      have again : p.components = hosted.root.components := List.mem_singleton.1 same
      exact (List.nodup_cons.1 (apart_stopsAs tests).once).1 (again ▸ List.mem_map_of_mem hp)
  have few : (stopsAs tests).length ≤ 3 := by
    rw [← List.length_map Path.components, components_stopsAs]
    decide
  have none : Graph.empty = (hostedSurvey roundabout tests).snapshot hostedWorld [] := rfl
  rw [Walk.traverse, none, Walk.run_descend 3 List.not_mem_nil handle (Survey.read_of_next next),
    queued]
  exact ⟨_, Survey.run_snapshot (listable_hosted roundabout tests) [hosted.root] few
    (apart_stopsAs tests) (fun _ _ => rfl)
    fun path hp child hc => .inr (List.mem_singleton.2 (leads_back_stopsAs hp hc))⟩

/-- What the survey records. -/
def roundaboutGraph (tests : Bool) : Graph :=
  (hostedSurvey roundabout tests).snapshot hostedWorld (hosted.root :: stopsAs tests)

/-- **Without test imports**, the survey reads the library. It comes upon the package without source
files by a text that is too long, and records its trouble with it. -/
theorem roundaboutGraph_false :
    (roundaboutGraph false).Has "/w/src/h.org/./../b" ∧ (roundaboutGraph false).Has "h.org/c" ∧
      (roundaboutGraph false).Imports "h.org/lib" "h.org/p" := by
  have unnamed : (hostedSurvey roundabout false).workspace.packageName
      (hosted.workspace.packageSource "h.org//./../b") =
        .error (.outsideSource ⟨"/w/src/h.org/./../b"⟩ ⟨"/w/src"⟩) := by
    decide
  have there : World.files.kind (hosted.workspace.packageSource "h.org/c") hostedWorld
      = .ok .directory := by
    decide
  have named : (hostedSurvey roundabout false).workspace.packageName
      (hosted.workspace.packageSource (dotted "h.org/c" dots)) = .ok "h.org/c" :=
    (Workspace.packageName_congr (hosted.workspace.components_packageSource_dotted _ _)).2
      (by decide)
  have long := hosted.workspace.kind_packageSource_dotted "h.org/c" _ there pathLimit_le_dots
  have reads : (hostedSurvey roundabout false).Reads hostedWorld
      (hosted.workspace.packageSource "h.org/lib") "h.org/lib" :=
    ⟨by decide, by decide, by decide⟩
  have absent : Survey.absence (hosted.workspace.packageSource (dotted "h.org/c" dots))
      ((hostedSurvey roundabout false).files.kind
        (hosted.workspace.packageSource (dotted "h.org/c" dots)) hostedWorld) = some _ :=
    congrArg (Survey.absence _) long
  exact ⟨Survey.has_snapshot.2 ⟨_, .tail _ (.head _), .inr ⟨_, .unnamed unnamed⟩⟩,
    Survey.has_snapshot.2 ⟨_, .tail _ (.tail _ (.head _)), .inr ⟨_, .absent named absent⟩⟩,
    Survey.imports_snapshot.2 ⟨_, .tail _ (.tail _ (.tail _ (.head _))), reads, by decide⟩⟩

/-- Where the tests lead. -/
theorem mem_stopsAs_true {path : Path} (hp : path ∈ hosted.root :: stopsAs true) :
    path = hosted.root ∨ path = hosted.workspace.packageSource "h.org/../b" ∨
      path = hosted.workspace.packageSource "h.org/./c" ∨
        path = hosted.workspace.packageSource (dotted "h.org/./lib" dots) := by
  simpa [stopsAs, detourImports] using hp

theorem packageName_up : hosted.workspace.packageName (hosted.workspace.packageSource "h.org/../b") =
    .error (.outsideSource ⟨"/w/src/h.org/../b"⟩ ⟨"/w/src"⟩) := by
  decide

theorem packageName_c :
    hosted.workspace.packageName (hosted.workspace.packageSource "h.org/./c") = .ok "h.org/c" := by
  decide

/-- **With test imports**, the survey comes upon the library by a text that is too long, and does
not read it. It comes upon the package without source files by a shorter one, so that there is
nothing to record. -/
theorem reads_roundabout_true {path : Path} {name : String}
    (hp : path ∈ hosted.root :: stopsAs true)
    (reads : (hostedSurvey roundabout true).Reads hostedWorld path name) :
    (path = hosted.root ∧ name = "h.org/p") ∨
      (path = hosted.workspace.packageSource "h.org/./c" ∧ name = "h.org/c") := by
  have there : World.files.kind (hosted.workspace.packageSource "h.org/./lib") hostedWorld
      = .ok .directory := by
    decide
  have long := hosted.workspace.kind_packageSource_dotted "h.org/./lib" _ there pathLimit_le_dots
  rcases mem_stopsAs_true hp with rfl | rfl | rfl | rfl
  · exact .inl ⟨rfl, (Except.ok.inj (packageName_hosted.symm.trans reads.named)).symm⟩
  · cases packageName_up.symm.trans reads.named
  · exact .inr ⟨rfl, (Except.ok.inj (packageName_c.symm.trans reads.named)).symm⟩
  · cases long.symm.trans reads.directory

/-- **What is on record then**: the project, what it imports, and trouble with two paths. -/
theorem has_roundaboutGraph_true {k : String} (h : (roundaboutGraph true).Has k) :
    k = "h.org/p" ∨ k ∈ detourImports ++ usualImports ∨ k = "/w/src/h.org/../b" ∨
      k = "h.org/lib" := by
  have reads_c : (hostedSurvey roundabout true).Reads hostedWorld
      (hosted.workspace.packageSource "h.org/./c") "h.org/c" :=
    ⟨packageName_c, by decide, by decide⟩
  have found_c : (hostedSurvey roundabout true).found hostedWorld
      (hosted.workspace.packageSource "h.org/./c") =
        { error := some (.package (.ofMessage "no Go files in c")) } := by
    decide
  have named_lib : (hostedSurvey roundabout true).workspace.packageName
      (hosted.workspace.packageSource (dotted "h.org/./lib" dots)) = .ok "h.org/lib" :=
    (Workspace.packageName_congr (hosted.workspace.components_packageSource_dotted _ _)).2
      (by decide)
  obtain ⟨path, hp, ⟨name, reads, usable, here⟩ | ⟨e, trouble⟩⟩ := Survey.has_snapshot.1 h
  · rcases reads_roundabout_true hp reads with ⟨rfl, rfl⟩ | ⟨rfl, rfl⟩
    · rw [found_roundabout] at here
      exact here.imp_right .inl
    · rw [found_c] at usable
      rcases usable with sound | some
      · cases sound
      · exact absurd rfl some
  · have text := trouble.recorded
    rcases mem_stopsAs_true hp with rfl | rfl | rfl | rfl
    · rcases text with named | ⟨-, none⟩
      · exact .inl (Except.ok.inj (named.symm.trans packageName_hosted))
      · exact absurd packageName_hosted (none _)
    · rcases text with named | ⟨rfl, -⟩
      · cases packageName_up.symm.trans named
      · exact .inr (.inr (.inl (by decide)))
    · cases trouble with
      | unnamed none => cases reads_c.named.symm.trans none
      | absent _ absent =>
        rw [(Survey.absence_eq_none _).2 reads_c.directory] at absent
        cases absent
      | unread _ _ error broken =>
        rw [found_c] at error
        cases error
        exact absurd broken (by decide)
    · rcases text with named | ⟨-, none⟩
      · exact .inr (.inr (.inr (Except.ok.inj (named.symm.trans named_lib))))
      · exact absurd named_lib (none _)

/-- **What is not on record then**: whatever else can be said in a short text. -/
theorem not_has_roundaboutGraph_true {k : String} (short : k.utf8ByteSize < Disk.pathLimit)
    (other : k ∉ ["h.org/p", "h.org/../b", "h.org/./c", "h.org//./../b", "h.org/lib",
      "/w/src/h.org/../b"]) : ¬ (roundaboutGraph true).Has k := by
  have far (stem : String) : k ≠ dotted stem dots := by
    rintro rfl
    have size := ImportPath.le_size_dotted stem dots
    have enough := pathLimit_le_dots
    omega
  intro has
  have among := has_roundaboutGraph_true has
  simp only [detourImports, usualImports, List.cons_append, List.nil_append, List.mem_cons,
    List.not_mem_nil, or_false, far, false_or] at among
  simp only [List.mem_cons, List.not_mem_nil, or_false, not_or] at other
  tauto

/-- **Test imports may take from the graph that is saved**: what is on record for a text only, and
even the imports of a package that the system refuses by a longer text. -/
theorem tests_may_take_away :
    let describe := describedAs roundabout
    let less := roundaboutGraph false
    let more := roundaboutGraph true
    (∀ tests, (PackageReader.describing describe tests).Undisturbed hostedWorld) ∧
      (∀ dir dir' : Path, dir.components = dir'.components →
        (describe dir hostedWorld).1.toOption = (describe dir' hostedWorld).1.toOption) ∧
      (hosted.save (.describing describe unresolved false 4) hostedWorld).1 = .ok (less, []) ∧
      (hosted.save (.describing describe unresolved true 4) hostedWorld).1 = .ok (more, []) ∧
      (less.Has "/w/src/h.org/./../b" ∧ ¬ more.Has "/w/src/h.org/./../b") ∧
      (less.Has "h.org/c" ∧ ¬ more.Has "h.org/c") ∧
      (less.Imports "h.org/lib" "h.org/p" ∧ ¬ more.Imports "h.org/lib" "h.org/p") := by
  intro describe less more
  obtain ⟨_, surveyed⟩ := survey_roundabout false
  obtain ⟨_, surveyed'⟩ := survey_roundabout true
  obtain ⟨unnamed, refused, read⟩ := roundaboutGraph_false
  refine ⟨fun tests => undisturbed_describedAs roundabout tests hostedWorld,
    fun _ _ same => toOption_describedAs roundabout hostedWorld same,
    save_hosted surveyed, save_hosted surveyed',
    ⟨unnamed, not_has_roundaboutGraph_true (by decide) (by decide)⟩,
    ⟨refused, not_has_roundaboutGraph_true (by decide) (by decide)⟩, read, fun edge => ?_⟩
  obtain ⟨path, hp, reads, -⟩ := Survey.imports_snapshot.1 edge
  rcases reads_roundabout_true hp reads with ⟨-, same⟩ | ⟨-, same⟩ <;>
    exact absurd same (by decide)

end Detours

end Project

end Depot
