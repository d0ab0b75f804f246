import Depot.Proofs.Disk.Spelling
import Depot.Proofs.Get.Resident
import Depot.Proofs.Save

/-!
# Getting and saving see the same graph

Getting follows imports from the import path of the project, and tells packages apart by the text of
their import paths. Saving follows imports and the directory tree from the directory of the project,
and tells packages apart by the components of paths. Where nothing changes and nothing has to be
fetched, what getting reaches is surveyed as well: along the imports, each package that getting
handled has a directory that the survey handled, and the package read there is the same one
(`Survey.Closed.exists_reads_of_reachable`).

The two write paths differently. Getting makes them up from import paths, the survey begins with the
text that the directory of the project was given by. The system takes both for the same directory,
unless it refuses a text for its length. So either all that getting saw is in the graph that is
saved, or that graph tells of such a refusal (`Project.save_confirms_get`,
`Project.save_refused_for_length`).
-/

namespace Depot

/-- **What a graph says, another says as well**: each package on record in it is on record in the
other with the same imports, without error, and with at least the same importers. -/
def Graph.Confirms (g' g : Graph) : Prop :=
  ∀ k dep, g.get? k = some dep → ∃ dep', g'.get? k = some dep' ∧ dep'.imports = dep.imports ∧
    dep'.error = none ∧ ∀ q ∈ dep.importedFrom, q ∈ dep'.importedFrom

/-! ## From import paths to directories -/

namespace Survey

variable {σ : Type} {survey : Survey σ} {s : σ} {path : Path} {paths : List Path} {name k : String}
  {answer : List Component → PackageImports}

/-- A package is what its directory is found to be, however that is written. -/
theorem Reads.found_eq (found : ∀ path, survey.found s path = answer path.components)
    (reads : survey.Reads s path k) :
    survey.found s path = answer (survey.workspace.packageSource k).components := by
  rw [found, Workspace.components_packageSource_of_packageName reads.named]

namespace Closed

variable (closed : survey.Closed s paths)
  (found : ∀ path, survey.found s path = answer path.components)
include closed found

/-- **Each package that can be reached along imports has a directory that was handled**, and is the
package read there, if it is there at all. -/
theorem exists_reads_of_reachable (named : survey.workspace.packageName survey.root = .ok name)
    (proper : survey.workspace.isSrcDir survey.root = false)
    (ordinary : ∀ dir, ∀ i ∈ (answer dir).imports, ImportPath.Ordinary i)
    (there : ∀ path ∈ paths, ∀ k,
      Reachable (LoadPlan.importsBy survey.workspace fun dir => answer dir.components) [name] k →
        survey.workspace.packageName path = .ok k → survey.files.kind path s = .ok .directory)
    (reached :
      Reachable (LoadPlan.importsBy survey.workspace fun dir => answer dir.components) [name] k) :
    ∃ path ∈ paths, survey.Reads s path k := by
  obtain ⟨start, hs, steps⟩ := reached
  obtain rfl := List.mem_singleton.1 hs
  induction steps with
  | refl =>
    obtain ⟨path, hp, same⟩ := closed.root
    have named' := (Workspace.packageName_congr same).2 named
    exact ⟨path, hp, named', there path hp _ ⟨_, hs, .refl⟩ named',
      (Workspace.isSrcDir_congr same).trans proper⟩
  | @tail a i before edge ih =>
    -- the directory that was handled is read as the package that getting read
    obtain ⟨path, hp, reads⟩ := ih
    have hi : i ∈ (survey.found s path).imports := by
      rw [reads.found_eq found]
      exact edge
    obtain ⟨next, hn, same⟩ := closed.imports path hp a reads i hi
    have plain := ordinary _ i edge
    have named' := (Workspace.packageName_congr same).2
      (survey.workspace.packageName_packageSource plain)
    exact ⟨next, hn, named', there next hn i ⟨_, hs, before.tail edge⟩ named',
      (Workspace.isSrcDir_congr same).trans (survey.workspace.isSrcDir_packageSource plain)⟩

/-- **The survey says what a graph of packages says** whose directories were handled, if they were
read without error and import only each other. -/
theorem confirms {packages : List String}
    (reads : ∀ k ∈ packages, ∃ path ∈ paths, survey.Reads s path k)
    (sound : ∀ k ∈ packages, (answer (survey.workspace.packageSource k).components).error = none)
    (among : ∀ q ∈ packages,
      ∀ i ∈ LoadPlan.importsBy survey.workspace (fun dir => answer dir.components) q,
        i ∈ packages) :
    (survey.snapshot s paths).Confirms
      (.ofPackages (LoadPlan.importsBy survey.workspace fun dir => answer dir.components)
        packages) := by
  intro k dep onRecord
  have hk : k ∈ packages := by
    obtain ⟨q, hq, rfl | edge⟩ := Graph.has_ofPackages.1 ⟨dep, onRecord⟩
    · exact hq
    · exact among q hq k edge
  obtain ⟨path, hp, here⟩ := reads k hk
  have faultless : (survey.found s path).error = none := by
    rw [here.found_eq found]
    exact sound k hk
  obtain ⟨dep', onRecord'⟩ :=
    has_snapshot.2 ⟨path, hp, .inl ⟨k, here, .inl faultless, .inl rfl⟩⟩
  refine ⟨dep', onRecord', StringSet.ext fun i => ?_, ?_, fun q hq => ?_⟩
  · rw [← Graph.imports_iff onRecord, ← Graph.imports_iff onRecord',
      closed.apart.imports_iff hp here, Graph.imports_ofPackages, here.found_eq found]
    exact (and_iff_right hk).symm
  · rw [← Graph.errorOf_eq onRecord', ← Option.not_isSome_iff_eq_none,
      closed.apart.errorOf_isSome hp here]
    rintro ⟨-, e, faulty, -⟩
    cases faultless.symm.trans faulty
  · obtain ⟨hq, edge⟩ := Graph.importedFrom_ofPackages.1 ⟨dep, onRecord, hq⟩
    obtain ⟨importer, hi, there⟩ := reads q hq
    refine (Graph.importedFrom_iff onRecord').1 (importedFrom_snapshot.2 ⟨importer, hi, there, ?_⟩)
    rw [there.found_eq found]
    exact edge

end Closed

end Survey

/-- **Nothing that loading asks for changes** with a reader that disturbs nothing. -/
theorem LoadPlan.unchanging_of_undisturbed {plan : LoadPlan World} {w : World}
    (files : plan.files = World.files) (undisturbed : plan.reader.Undisturbed w) :
    plan.Unchanging (fun dir => (plan.reader.read dir w).1) w where
  kind dirs dir := by
    rw [files]
    unfold World.files
    dsimp only
    rw [undisturbed.disk, undisturbed.cwd]
  found := undisturbed.found

/-- **Where no repository is known**, the manifest is empty. -/
theorem Consolidation.manifest_of_unknown {σ : Type} {c : Consolidation σ}
    (unknown : ∀ k pin s, ∃ cause, c.resolver.resolve k pin s = (.error cause, s))
    (unpinned : c.pins = []) (graph : Graph) (s : σ) : c.manifest graph s = (.ok [], s) := by
  have placed (deps : List Dependency) : c.placeAll [] deps s = (.ok [], s) := by
    induction deps with
    | nil => rfl
    | cons dep deps ih =>
      obtain ⟨cause, refused⟩ := unknown dep.importPath (Pin.firstFor c.pins dep.importPath) s
      have passed : c.place [] dep s = (.ok [], s) := by
        unfold place
        rw [refused]
        rfl
      rw [placeAll, passed]
      exact ih
  rw [manifest, placed, unpinned]
  rfl

namespace Project

/-- What it takes for saving to succeed: the project has an import path, and its survey comes to its
end. -/
theorem save_eq_ok {σ : Type} {p : Project} {means : Means σ} {s : σ} {graph : Graph}
    {m : Manifest} (saved : (p.save means s).1 = .ok (graph, m)) :
    ∃ name, p.importPath = .ok name ∧
      let surveyed := Walk.traverse (p.survey means).visitor means.budget p.root []
        (Graph.empty, s)
      surveyed.outcome = .ok () ∧ graph = surveyed.state.1 := by
  unfold save at saved
  rcases named : p.importPath with cause | name
  · rw [named] at saved
    cases saved
  · refine ⟨name, rfl, ?_⟩
    rw [named] at saved
    dsimp only at saved ⊢
    generalize Walk.traverse (p.survey means).visitor means.budget p.root []
      (Graph.empty, s) = surveyed at saved ⊢
    rcases ended : surveyed.outcome with cause | ⟨⟩
    · rw [ended] at saved
      cases saved
    · rw [ended] at saved
      dsimp only at saved
      refine ⟨rfl, ?_⟩
      split at saved
      · cases saved
      · exact (congrArg Prod.fst (Except.ok.inj saved)).symm

/-- Where no repository is known, a project is saved once its survey has come to its end. -/
theorem save_of_unknown {σ : Type} {p : Project} {means : Means σ} {s s' : σ} {name : String}
    {visited : List (List Component)} {graph : Graph} (named : p.importPath = .ok name)
    (unknown : ∀ k pin s, ∃ cause, means.resolver.resolve k pin s = (.error cause, s))
    (unpinned : p.configuration.pins = [])
    (surveyed : Walk.traverse (p.survey means).visitor means.budget p.root [] (Graph.empty, s) =
      ⟨.ok (), visited, (graph, s')⟩) :
    (p.save means s).1 = .ok (graph, []) := by
  have drawn := Consolidation.manifest_of_unknown (c := p.consolidation means) unknown unpinned
  rw [save_of_ended named (congrArg Walked.outcome surveyed), surveyed, drawn]
  rfl

/-- **A project in a workspace where nothing changes**, with a reader that looks at nothing but the
directory, whose imports are of ordinary segments. -/
structure Steady (p : Project) (means : Means World) (answer : List Component → PackageImports)
    (w : World) : Prop where
  /-- The disk is that of the world. -/
  files : means.files = World.files
  /-- Reading packages changes nothing. -/
  undisturbed : means.reader.Undisturbed w
  /-- The reader's answer depends on the directory only. -/
  answers : ∀ dir, (means.reader.read dir w).1 = answer dir.components
  /-- The imports are of ordinary segments. -/
  ordinary : ∀ dir, ∀ i ∈ (answer dir).imports, ImportPath.Ordinary i
  /-- The project is not the source directory itself. -/
  proper : p.workspace.isSrcDir p.root = false
  /-- Nothing is to be updated. -/
  still : p.configuration.updates = false

namespace Steady

variable {p : Project} {means : Means World} {answer : List Component → PackageImports} {w : World}

theorem unchanging_loadPlan (h : p.Steady means answer w) :
    (p.loadPlan means).Unchanging (fun dir => answer dir.components) w := by
  rw [← funext h.answers]
  exact LoadPlan.unchanging_of_undisturbed h.files h.undisturbed

end Steady

/-- **Getting and saving see the same graph.** Let nothing change in the workspace, and let both
getting the project and saving it succeed, getting without having fetched anything. Unless saving
recorded of one of the packages that getting has on record that the system refuses its path for its
length, each of them is on record in what is saved, with the same imports, without error, and with
at least the same importers. -/
theorem save_confirms_get (p : Project) (means : Means World) (w : World)
    {answer : List Component → PackageImports} {got saved : Graph} {m : Manifest}
    (steady : p.Steady means answer w) (get : (p.get means [] w).1 = .ok got)
    (fetchless : (p.get means.chronicling [] ⟨w, []⟩).2.Fetchless)
    (save : (p.save means w).1 = .ok (saved, m))
    (short : ∀ k path, got.Has k →
      saved.errorOf k ≠ some (.stat path OsError.nameTooLong.message)) :
    saved.Confirms got := by
  obtain ⟨name, named, ended, surveyed⟩ := save_eq_ok save
  obtain ⟨starts, packages, chosen, rfl, reached, there⟩ := p.get_resident means [] w steady.still
    steady.unchanging_loadPlan get fetchless
  obtain rfl : [name] = starts := by
    rw [startsOf, named] at chosen
    exact Except.ok.inj chosen
  have inside := packageName_root named
  obtain ⟨paths, closed, recorded⟩ := (p.survey means).exists_closed means.budget w inside
    (Survey.unchanging_of_undisturbed steady.files steady.undisturbed) ended
  obtain rfl := surveyed.trans recorded
  -- a directory that getting found under another text is one, or is refused for its length
  have present : ∀ path ∈ paths, ∀ k ∈ packages,
      p.workspace.packageName path = .ok k → means.files.kind path w = .ok .directory := by
    intro path hp k hk named'
    have resident := (there k hk).1
    rw [steady.files] at resident ⊢
    rcases World.kind_respell resident
      (Workspace.components_packageSource_of_packageName named').symm with directory | long
    · exact directory
    · refine absurd (closed.apart.errorOf_snapshot.2 ⟨path, hp, .absent named' ?_⟩)
        (short k path (Graph.has_ofPackages.2 ⟨k, hk, .inl rfl⟩))
      show Survey.absence path (means.files.kind path w) = _
      rw [steady.files, long]
      rfl
  refine closed.confirms steady.answers (fun k hk => ?_) (fun k hk => (there k hk).2)
    fun q hq i edge => (reached i).2 (((reached q).1 hq).tail edge)
  exact closed.exists_reads_of_reachable steady.answers inside steady.proper steady.ordinary
    (fun path hp k hk => present path hp k ((reached k).2 hk)) ((reached k).1 hk)

/-! ## A project and a library that import each other -/

/-- The project, in the directory with the given text. -/
def paired (root : Path) : Project where
  cwd := root
  root := root
  configuration := {}
  usualWorkspace := ⟨"/w"⟩

/-- The world it is in. -/
def pairedWorld : World where
  disk := ⟨[(["w"], .directory), (["w", "src"], .directory), (["w", "src", "p"], .directory),
    (["w", "src", "lib"], .directory)]⟩

/-- What the two import. -/
def pairedAnswer (dir : List Component) : PackageImports where
  imports := if dir = (Path.mk "/w/src/p").components then ["lib"] else ["p"]

/-- No repository is known. -/
def pairedMeans : Means World where
  files := World.files
  reader := { read := fun dir w => (pairedAnswer dir.components, w) }
  resolver := { resolve := fun _ _ w => (.error .foreign, w) }
  budget := 2

/-- How the packages are loaded, wherever the project is. -/
def pairedPlan : LoadPlan World := (paired ⟨"/w/src/p"⟩).loadPlan pairedMeans

/-- What has been loaded after some packages were handled. -/
def pairedLoader (packages : List String) : Loader where
  graph := .ofPackages
    (LoadPlan.importsBy pairedPlan.workspace fun dir => pairedAnswer dir.components) packages

theorem handle_paired {package : String} (packages : List String)
    (there : pairedPlan.kindOf package pairedWorld = .ok .directory) :
    pairedPlan.visitor.handle package (pairedLoader packages, pairedWorld) =
      (.ok .descend, (pairedLoader (packages ++ [package]), pairedWorld)) := by
  refine LoadPlan.handle_of_load ?_
  rw [LoadPlan.load_of_there rfl there rfl rfl]
  unfold pairedLoader
  rw [← Graph.record_ofPackages]
  rfl

theorem walk_paired :
    Walk.traverseAll pairedPlan.visitor 2 ["p"] [] (pairedLoader [], pairedWorld) =
      ⟨.ok (), ["lib", "p"], (pairedLoader ["p", "lib"], pairedWorld)⟩ := by
  have handle_p : pairedPlan.visitor.handle "p" (pairedLoader [], pairedWorld) =
      (.ok .descend, (pairedLoader ["p"], pairedWorld)) := handle_paired [] (by decide +kernel)
  have handle_lib : pairedPlan.visitor.handle "lib" (pairedLoader ["p"], pairedWorld) =
      (.ok .descend, (pairedLoader ["p", "lib"], pairedWorld)) :=
    handle_paired ["p"] (by decide +kernel)
  have imports_p : LoadPlan.importsOf (pairedLoader ["p"]) "p" = .ok ["lib"] := by decide +kernel
  have imports_lib : LoadPlan.importsOf (pairedLoader ["p", "lib"]) "lib" = .ok ["p"] := by
    decide +kernel
  have first : Walk.pending [NodeId.key "p"] ["lib"] = ["lib"] := by
    rw [Walk.pending_of_sorted (List.pairwise_singleton _ _)]
    decide +kernel
  have second : Walk.pending [NodeId.key "lib", NodeId.key "p"] ["p"] = [] := by
    rw [Walk.pending_of_sorted (List.pairwise_singleton _ _)]
    decide +kernel
  refine Walk.traverseAll_cons_of_ok [] ?_
  rw [Walk.traverse, Walk.run_descend 1 (by decide) handle_p (congrArg (·, _) imports_p), first,
    List.nil_append, Walk.run_descend 0 (by decide) handle_lib (congrArg (·, _) imports_lib),
    second]
  rfl

theorem fetchless_paired (root : Path) :
    ((paired root).get pairedMeans.chronicling [] ⟨pairedWorld, []⟩).2.Fetchless :=
  (paired root).get_fetchless (fun _ _ s => ⟨.foreign, s, rfl⟩) [] pairedWorld

section Paired

variable {root : Path} (same : root.components = (Path.mk "/w/src/p").components)
include same

theorem importPath_paired : (paired root).importPath = .ok "p" := by
  have named : (paired root).workspace.packageName (paired root).root = .ok "p" :=
    (Workspace.packageName_congr (w := ⟨⟨"/w"⟩⟩) same).2 (by decide +kernel)
  rw [importPath, named]

theorem steady_paired : (paired root).Steady pairedMeans pairedAnswer pairedWorld where
  files := rfl
  undisturbed := PackageReader.undisturbed_of_still (fun _ _ => rfl) pairedWorld
  answers _ := rfl
  ordinary dir i hi := by
    unfold pairedAnswer at hi
    dsimp only at hi
    split at hi <;> obtain rfl := List.mem_singleton.1 hi <;> decide
  proper := (Workspace.isSrcDir_congr (w := ⟨⟨"/w"⟩⟩) same).trans (by decide +kernel)
  still := rfl

/-- **However its directory is written, getting the project reaches both.** -/
theorem get_paired :
    (paired root).get pairedMeans [] pairedWorld =
      (.ok (pairedLoader ["p", "lib"]).graph, pairedWorld) := by
  have chosen : (paired root).startsOf [] = .ok ["p"] := by
    rw [startsOf, importPath_paired same]
    rfl
  exact get_of_walk chosen walk_paired

end Paired

/-- The survey of the project, as its directory is usually written. -/
def pairedSurvey : Survey World := (paired ⟨"/w/src/p"⟩).survey pairedMeans

/-- It goes from the project to the library and back. -/
theorem survey_paired :
    let p : Path := ⟨"/w/src/p"⟩
    let lib : Path := ⟨"/w/src/lib"⟩
    Walk.traverse pairedSurvey.visitor 2 p [] (Graph.empty, pairedWorld) =
      ⟨.ok (), [lib.components, p.components],
        (pairedSurvey.snapshot pairedWorld [p, lib], pairedWorld)⟩ := by
  intro p lib
  have reads_p : pairedSurvey.Reads pairedWorld p "p" :=
    ⟨by decide +kernel, by decide +kernel, by decide +kernel⟩
  have reads_lib : pairedSurvey.Reads pairedWorld lib "lib" :=
    ⟨by decide +kernel, by decide +kernel, by decide +kernel⟩
  have next_p : pairedSurvey.next p (pairedSurvey.snapshot pairedWorld [p]) pairedWorld =
      .ok [lib] := by
    decide +kernel
  have next_lib : pairedSurvey.next lib (pairedSurvey.snapshot pairedWorld [p, lib]) pairedWorld =
      .ok [p] := by
    decide +kernel
  have first : Walk.pending [NodeId.key p] [lib] = [lib] := by
    rw [Walk.pending_of_sorted (List.pairwise_singleton _ _)]
    decide +kernel
  have second : Walk.pending [NodeId.key lib, NodeId.key p] [p] = [] := by
    rw [Walk.pending_of_sorted (List.pairwise_singleton _ _)]
    decide +kernel
  have handle_p : pairedSurvey.visitor.handle p (Graph.empty, pairedWorld) =
      (.ok .descend, (pairedSurvey.snapshot pairedWorld [p], pairedWorld)) :=
    Survey.handle_of_reads reads_p []
  have handle_lib : pairedSurvey.visitor.handle lib
      (pairedSurvey.snapshot pairedWorld [p], pairedWorld) =
        (.ok .descend, (pairedSurvey.snapshot pairedWorld [p, lib], pairedWorld)) :=
    Survey.handle_of_reads reads_lib [p]
  rw [Walk.traverse, Walk.run_descend 1 (by decide +kernel) handle_p (congrArg (·, _) next_p),
    first, List.nil_append,
    Walk.run_descend 0 (by decide +kernel) handle_lib (congrArg (·, _) next_lib), second]
  rfl

/-- Once the survey has come to its end, the project is saved. -/
theorem save_paired {root : Path} (same : root.components = (Path.mk "/w/src/p").components)
    {visited : List (List Component)} {graph : Graph}
    (surveyed : Walk.traverse ((paired root).survey pairedMeans).visitor 2 root []
      (Graph.empty, pairedWorld) = ⟨.ok (), visited, (graph, pairedWorld)⟩) :
    ((paired root).save pairedMeans pairedWorld).1 = .ok (graph, []) :=
  save_of_unknown (importPath_paired same) (fun _ _ _ => ⟨.foreign, rfl⟩) rfl surveyed

/-- A project and the library it imports, which imports the project in turn: both are got without a
fetch, and saving confirms it. -/
theorem save_confirms_get_paired :
    let p := paired ⟨"/w/src/p"⟩
    let got := (pairedLoader ["p", "lib"]).graph
    let saved := pairedSurvey.snapshot pairedWorld [⟨"/w/src/p"⟩, ⟨"/w/src/lib"⟩]
    p.Steady pairedMeans pairedAnswer pairedWorld ∧
      (p.get pairedMeans [] pairedWorld).1 = .ok got ∧
      (p.get pairedMeans.chronicling [] ⟨pairedWorld, []⟩).2.Fetchless ∧
      (p.save pairedMeans pairedWorld).1 = .ok (saved, []) ∧
      (∀ k path, got.Has k → saved.errorOf k ≠ some (.stat path OsError.nameTooLong.message)) ∧
      saved.Confirms got := by
  intro p got saved
  have steady : p.Steady pairedMeans pairedAnswer pairedWorld := steady_paired rfl
  have reached : (p.get pairedMeans [] pairedWorld).1 = .ok got :=
    congrArg Prod.fst (get_paired rfl)
  have fetchless := fetchless_paired ⟨"/w/src/p"⟩
  have kept : (p.save pairedMeans pairedWorld).1 = .ok (saved, []) := save_paired rfl survey_paired
  have short (k : String) (path : Path) (_ : got.Has k) :
      saved.errorOf k ≠ some (.stat path OsError.nameTooLong.message) := by
    have none : ∀ dep ∈ saved.records, dep.error = none := by decide +kernel
    intro told
    obtain ⟨dep, found, faulty⟩ := Option.bind_eq_some_iff.1 told
    cases (none dep ((Ordered.lookup_eq_some_iff saved.sorted).1 found).1).symm.trans faulty
  exact ⟨steady, reached, fetchless, kept, short,
    save_confirms_get p pairedMeans pairedWorld steady reached fetchless kept short⟩

/-! ## A directory whose text is too long -/

/-- **A project whose directory the system refuses for its length** is saved as nothing but that
refusal. -/
theorem save_of_refused {root : Path} (same : root.components = (Path.mk "/w/src/p").components)
    (long : World.files.kind root pairedWorld = .error .nameTooLong) :
    let saved := ((paired root).survey pairedMeans).snapshot pairedWorld [root]
    ((paired root).save pairedMeans pairedWorld).1 = .ok (saved, []) ∧
      saved.errorOf "p" = some (.stat root OsError.nameTooLong.message) ∧ ¬ saved.Has "lib" := by
  intro saved
  have named : (paired root).workspace.packageName root = .ok "p" :=
    packageName_root (importPath_paired same)
  have none (name : String) : ¬ ((paired root).survey pairedMeans).Reads pairedWorld root name :=
    fun reads => by cases long.symm.trans reads.directory
  have walk : Walk.traverse ((paired root).survey pairedMeans).visitor 2 root []
      (Graph.empty, pairedWorld) = ⟨.ok (), [root.components], (saved, pairedWorld)⟩ := by
    rw [Walk.traverse]
    exact (Walk.run_skip 1 List.not_mem_nil (Survey.handle_of_not_reads none [])).trans
      (Walk.run_nil 1)
  have apart : ((paired root).survey pairedMeans).Apart [root] :=
    ⟨List.nodup_singleton _, List.forall_mem_singleton.2 (Workspace.Placed.of_packageName named)⟩
  have trouble : ((paired root).survey pairedMeans).Trouble pairedWorld root "p"
      (.stat root OsError.nameTooLong.message) :=
    .absent named (congrArg (Survey.absence root) long)
  refine ⟨save_paired same walk,
    apart.errorOf_snapshot.2 ⟨root, List.mem_singleton_self root, trouble⟩, fun has => ?_⟩
  obtain ⟨path, hp, ⟨name, reads, -⟩ | ⟨e, other⟩⟩ := Survey.has_snapshot.1 has
  · exact none name (List.mem_singleton.1 hp ▸ reads)
  · obtain rfl := List.mem_singleton.1 hp
    rcases other.recorded with named' | ⟨-, unnamed⟩
    · exact absurd (Except.ok.inj (named.symm.trans named')) (by decide)
    · exact unnamed "p" named

/-- The directory of the project, with more slashes at its end than the system takes. -/
def slashedRoot : Path := Path.slashed ⟨"/w/src/p"⟩ Disk.pathLimit

theorem components_slashedRoot : slashedRoot.components = (Path.mk "/w/src/p").components :=
  Path.components_slashed (by decide) Disk.pathLimit

theorem kind_slashedRoot : World.files.kind slashedRoot pairedWorld = .error .nameTooLong := by
  have usual : World.files.kind ⟨"/w/src/p"⟩ pairedWorld = .ok .directory := by decide +kernel
  refine (World.kind_respell usual components_slashedRoot).resolve_left fun directory => ?_
  have short := World.size_lt_of_kind directory
  rw [slashedRoot, Path.size_slashed] at short
  omega

/-- **The text of the project's directory may keep its graph from being saved**: getting takes the
directory for the package that it is, while the survey records that the system refuses the text, and
goes no further. -/
theorem save_refused_for_length :
    let p := paired slashedRoot
    let got := (pairedLoader ["p", "lib"]).graph
    let saved := (p.survey pairedMeans).snapshot pairedWorld [slashedRoot]
    p.Steady pairedMeans pairedAnswer pairedWorld ∧
      (p.get pairedMeans [] pairedWorld).1 = .ok got ∧
      (p.get pairedMeans.chronicling [] ⟨pairedWorld, []⟩).2.Fetchless ∧
      (p.save pairedMeans pairedWorld).1 = .ok (saved, []) ∧
      got.Has "lib" ∧ ¬ saved.Has "lib" ∧
      saved.errorOf "p" = some (.stat slashedRoot OsError.nameTooLong.message) ∧
      ¬ saved.Confirms got := by
  intro p got saved
  obtain ⟨kept, refused, absent⟩ := save_of_refused components_slashedRoot kind_slashedRoot
  have present : got.Has "lib" := Graph.has_ofPackages.2 ⟨"lib", by simp, .inl rfl⟩
  refine ⟨steady_paired components_slashedRoot,
    congrArg Prod.fst (get_paired components_slashedRoot), fetchless_paired slashedRoot, kept,
    present, absent, refused, fun confirms => ?_⟩
  obtain ⟨dep, found⟩ := present
  obtain ⟨dep', found', -⟩ := confirms "lib" dep found
  exact absent ⟨dep', found'⟩

end Project

end Depot
