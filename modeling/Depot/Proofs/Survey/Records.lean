import Depot.Proofs.Graph
import Depot.Proofs.Workspace
import Depot.Survey
import Mathlib.Data.List.Nodup

/-!
# What a survey records

A survey handles each directory once and records what it finds there: the package with its imports,
or why there is none. What it records for one directory depends on that directory alone (`records`),
so the graph is that of the records of all directories handled (`snapshot`), and its views can be
read off them. No two directories record under the same import path, except that a package names
those it imports; therefore no record brings an error into that of another directory.
-/

namespace Depot

/-- Nothing was found but an error, and the error is about the package. -/
def PackageImports.Broken (found : PackageImports) : Prop :=
  found.imports = [] ∧ ∃ e, found.error = some e ∧ e.isNoBuildable = false

instance (found : PackageImports) : Decidable found.Broken :=
  decidable_of_iff (found.imports = [] ∧ found.error.any (!·.isNoBuildable) = true) <| by
    unfold PackageImports.Broken
    cases found.error <;> simp

/-- The package was read without error, or its imports were found all the same. -/
def PackageImports.Usable (found : PackageImports) : Prop :=
  found.error = none ∨ found.imports ≠ []

namespace Survey

variable {σ : Type} (survey : Survey σ) (s : σ) (path : Path)

/-- **The directory is read as a package** of the given name: it has an import path, it exists, and
it is not the source directory itself. -/
structure Reads (name : String) : Prop where
  /-- It has the import path. -/
  named : survey.workspace.packageName path = .ok name
  /-- It is a directory. -/
  directory : survey.files.kind path s = .ok .directory
  /-- It is not the source directory. -/
  proper : survey.workspace.isSrcDir path = false

/-- What reading the directory yields. -/
def found : PackageImports := (survey.reader.read path s).1

/-- **The trouble with a path** that is put on record, and the import path it is recorded under. -/
inductive Trouble : String → DependencyError → Prop
  /-- The path has no import path; its text stands for one. -/
  | unnamed {e : WorkspaceError} (h : survey.workspace.packageName path = .error e) :
      Trouble path.text (.importPath path e.message)
  /-- There is no directory. -/
  | absent {name : String} {e : DependencyError}
      (named : survey.workspace.packageName path = .ok name)
      (h : absence path (survey.files.kind path s) = some e) : Trouble name e
  /-- The package could not be read. -/
  | unread {name : String} {e : ReadError} (reads : survey.Reads s path name)
      (none : (survey.found s path).imports = []) (h : (survey.found s path).error = some e)
      (broken : e.isNoBuildable = false) : Trouble name (.read name e.fault.render)

/-- A record that says only why there is nothing else to say. -/
def fault (name : String) (e : DependencyError) : Dependency :=
  { importPath := name, error := some e }

/-- The records of what reading a package yielded. -/
def recordsOfFound (name : String) (found : PackageImports) : List Dependency :=
  match found.error with
  | none => Graph.recordsOf name found.imports
  | some e =>
    if found.imports.isEmpty then
      if e.isNoBuildable then [] else [fault name (.read name e.fault.render)]
    else Graph.recordsOf name found.imports

/-- **What a survey records for one path.** -/
def records : List Dependency :=
  match survey.workspace.packageName path with
  | .error e => [fault path.text (.importPath path e.message)]
  | .ok name =>
    match absence path (survey.files.kind path s) with
    | some e => [fault name e]
    | none =>
      if survey.workspace.isSrcDir path then [] else recordsOfFound name (survey.found s path)

/-! ## Handling a path records it -/

theorem note_eq_addAll (graph : Graph) (name : String) (found : PackageImports) :
    note graph name found = graph.addAll (recordsOfFound name found) := by
  rcases found with ⟨imports, _ | e⟩
  · exact Graph.record_eq_addAll graph name imports
  · unfold note recordsOfFound
    dsimp only
    split
    · split <;> rfl
    · exact Graph.record_eq_addAll graph name imports

theorem absence_eq_none {kind : Except OsError FileKind} :
    absence path kind = none ↔ kind = .ok .directory := by
  rcases kind with cause | _ | _
  · cases cause <;> simp [absence]
  · simp [absence]
  · simp [absence]

variable {survey s path}

/-- A directory that is read is recorded with what was found. -/
theorem Reads.records {name : String} (h : survey.Reads s path name) :
    survey.records s path = recordsOfFound name (survey.found s path) := by
  unfold Survey.records
  rw [h.named]
  dsimp only
  rw [(absence_eq_none path).2 h.directory, h.proper]
  rfl

/-- **A directory that is read is entered.** -/
theorem examine_of_reads {name : String} (h : survey.Reads s path name) (graph : Graph) :
    survey.examine path graph s =
      (.descend, graph.addAll (survey.records s path), (survey.reader.read path s).2) := by
  rw [h.records, ← note_eq_addAll]
  unfold examine
  rw [h.named]
  dsimp only
  rw [(absence_eq_none path).2 h.directory, h.proper]
  rfl

/-- **Any other path is skipped.** -/
theorem examine_of_not_reads (h : ∀ name, ¬ survey.Reads s path name) (graph : Graph) :
    survey.examine path graph s = (.skip, graph.addAll (survey.records s path), s) := by
  unfold examine records
  rcases named : survey.workspace.packageName path with e | name
  · rfl
  · dsimp only
    rcases there : absence path (survey.files.kind path s) with _ | e
    · by_cases proper : survey.workspace.isSrcDir path = true
      · rw [proper]
        rfl
      · exact absurd ⟨named, (absence_eq_none path).1 there, by simpa using proper⟩ (h name)
    · rfl

/-! ## The records of one path -/

theorem mem_recordsOfFound {name : String} {found : PackageImports} {dep : Dependency} :
    dep ∈ recordsOfFound name found ↔
      (found.Usable ∧ dep ∈ Graph.recordsOf name found.imports) ∨
        ∃ e, found.imports = [] ∧ found.error = some e ∧ e.isNoBuildable = false ∧
          dep = fault name (.read name e.fault.render) := by
  unfold recordsOfFound PackageImports.Usable
  rcases found with ⟨imports, _ | e⟩
  · simp
  · rcases imports with _ | ⟨i, is⟩
    · cases h : e.isNoBuildable <;> simp [h]
    · simp

/-- **What is recorded for a path**: the package if it is usable, and any trouble with the path. -/
theorem mem_records {dep : Dependency} :
    dep ∈ survey.records s path ↔
      (∃ name, survey.Reads s path name ∧ (survey.found s path).Usable ∧
        dep ∈ Graph.recordsOf name (survey.found s path).imports) ∨
      ∃ k e, survey.Trouble s path k e ∧ dep = fault k e := by
  constructor
  · intro h
    unfold records at h
    rcases named : survey.workspace.packageName path with e | name
    · rw [named] at h
      exact .inr ⟨_, _, .unnamed named, List.mem_singleton.1 h⟩
    · rw [named] at h
      dsimp only at h
      rcases there : absence path (survey.files.kind path s) with _ | e
      · rw [there] at h
        by_cases proper : survey.workspace.isSrcDir path = true
        · rw [proper] at h
          cases h
        · rw [Bool.not_eq_true] at proper
          have reads : survey.Reads s path name := ⟨named, (absence_eq_none path).1 there, proper⟩
          rw [proper] at h
          rcases mem_recordsOfFound.1 h with ⟨usable, h⟩ | ⟨e, none, error, broken, rfl⟩
          · exact .inl ⟨name, reads, usable, h⟩
          · exact .inr ⟨_, _, .unread reads none error broken, rfl⟩
      · rw [there] at h
        exact .inr ⟨_, _, .absent named there, List.mem_singleton.1 h⟩
  · rintro (⟨name, reads, usable, h⟩ | ⟨k, e, trouble, rfl⟩)
    · rw [reads.records]
      exact mem_recordsOfFound.2 (.inl ⟨usable, h⟩)
    · cases trouble with
      | unnamed h =>
        rw [records, h]
        exact List.mem_singleton_self _
      | absent named h =>
        rw [records, named]
        dsimp only
        rw [h]
        exact List.mem_singleton_self _
      | unread reads none h broken =>
        rw [reads.records]
        exact mem_recordsOfFound.2 (.inr ⟨_, none, h, broken, rfl⟩)

theorem exists_mem_records {P : Dependency → Prop} :
    (∃ dep ∈ survey.records s path, P dep) ↔
      (∃ name, survey.Reads s path name ∧ (survey.found s path).Usable ∧
        ∃ dep ∈ Graph.recordsOf name (survey.found s path).imports, P dep) ∨
      ∃ k e, survey.Trouble s path k e ∧ P (fault k e) := by
  simp only [mem_records]
  constructor
  · rintro ⟨dep, ⟨name, reads, usable, hd⟩ | ⟨k, e, trouble, rfl⟩, h⟩
    · exact .inl ⟨name, reads, usable, dep, hd, h⟩
    · exact .inr ⟨k, e, trouble, h⟩
  · rintro (⟨name, reads, usable, dep, hd, h⟩ | ⟨k, e, trouble, h⟩)
    · exact ⟨dep, .inl ⟨name, reads, usable, hd⟩, h⟩
    · exact ⟨_, .inr ⟨k, e, trouble, rfl⟩, h⟩

/-! ## The graph of several paths -/

/-- **The graph of a survey** that has handled some paths. -/
def snapshot (survey : Survey σ) (s : σ) (paths : List Path) : Graph :=
  .ofList (paths.flatMap (survey.records s))

theorem addAll_snapshot (survey : Survey σ) (s : σ) (paths : List Path) (path : Path) :
    (survey.snapshot s paths).addAll (survey.records s path)
      = survey.snapshot s (paths ++ [path]) := by
  rw [snapshot, Graph.addAll_ofList, snapshot, List.flatMap_append, List.flatMap_singleton]

section Views

variable {paths : List Path} {k q : String}

/-- An import path is on record if it is that of a usable package, is imported by one, or is in
trouble. -/
theorem has_snapshot :
    (survey.snapshot s paths).Has k ↔
      ∃ p ∈ paths, (∃ name, survey.Reads s p name ∧ (survey.found s p).Usable ∧
          (k = name ∨ k ∈ (survey.found s p).imports)) ∨
        ∃ e, survey.Trouble s p k e := by
  rw [snapshot, Graph.has_ofList, Graph.exists_mem_flatMap]
  refine exists_congr fun p => and_congr_right fun _ => ?_
  rw [exists_mem_records]
  simp only [Graph.exists_recordsOf]
  refine or_congr .rfl ⟨?_, ?_⟩
  · rintro ⟨_, e, trouble, rfl⟩
    exact ⟨e, trouble⟩
  · rintro ⟨e, trouble⟩
    exact ⟨k, e, trouble, rfl⟩

/-- Imports are what a package that is read imports. -/
theorem imports_snapshot :
    (survey.snapshot s paths).Imports k q ↔
      ∃ p ∈ paths, survey.Reads s p k ∧ q ∈ (survey.found s p).imports := by
  rw [snapshot, Graph.imports_ofList, Graph.exists_mem_flatMap]
  refine exists_congr fun p => and_congr_right fun _ => ?_
  rw [exists_mem_records]
  simp only [Graph.exists_imports_recordsOf]
  constructor
  · rintro (⟨name, reads, -, rfl, hq⟩ | ⟨_, _, -, -, hq⟩)
    · exact ⟨reads, hq⟩
    · exact absurd hq (StringSet.not_mem_empty q)
  · rintro ⟨reads, hq⟩
    exact .inl ⟨k, reads, .inr (List.ne_nil_of_mem hq), rfl, hq⟩

theorem importedFrom_snapshot :
    (survey.snapshot s paths).ImportedFrom k q ↔
      ∃ p ∈ paths, survey.Reads s p q ∧ k ∈ (survey.found s p).imports := by
  rw [snapshot, Graph.importedFrom_ofList, Graph.exists_mem_flatMap]
  refine exists_congr fun p => and_congr_right fun _ => ?_
  rw [exists_mem_records]
  simp only [Graph.exists_importedFrom_recordsOf]
  constructor
  · rintro (⟨name, reads, -, rfl, hk⟩ | ⟨_, _, -, -, hq⟩)
    · exact ⟨reads, hk⟩
    · exact absurd hq (StringSet.not_mem_empty q)
  · rintro ⟨reads, hk⟩
    exact .inl ⟨q, reads, .inr (List.ne_nil_of_mem hk), rfl, hk⟩

end Views

/-! ## Paths that are kept apart -/

/-- **The paths of a walk**: no two of them are the same, and all are placed. -/
structure Apart (survey : Survey σ) (paths : List Path) : Prop where
  /-- No path occurs twice. -/
  once : (paths.map Path.components).Nodup
  /-- All lie below the source directory or are absolute. -/
  placed : ∀ p ∈ paths, survey.workspace.Placed p

/-- The import path that trouble is recorded under: the path's own, or its text if it has none. -/
theorem Trouble.recorded {k : String} {e : DependencyError} (h : survey.Trouble s path k e) :
    survey.workspace.packageName path = .ok k ∨
      (k = path.text ∧ ∀ name, survey.workspace.packageName path ≠ .ok name) := by
  cases h with
  | unnamed h => exact .inr ⟨rfl, fun name named => by cases h.symm.trans named⟩
  | absent named => exact .inl named
  | unread reads => exact .inl reads.named

theorem Trouble.unique {k : String} {e e' : DependencyError} (h : survey.Trouble s path k e)
    (h' : survey.Trouble s path k e') : e = e' := by
  cases h with
  | unnamed h =>
    cases h' with
    | unnamed h' => rw [Except.error.inj (h.symm.trans h')]
    | absent named' => cases h.symm.trans named'
    | unread reads' => cases h.symm.trans reads'.named
  | absent named h =>
    cases h' with
    | unnamed h' => cases named.symm.trans h'
    | absent _ h' => exact Option.some.inj (h.symm.trans h')
    | unread reads' =>
      rw [(absence_eq_none path).2 reads'.directory] at h
      cases h
  | unread reads _ h =>
    cases h' with
    | unnamed h' => cases reads.named.symm.trans h'
    | absent _ h' =>
      rw [(absence_eq_none path).2 reads.directory] at h'
      cases h'
    | unread _ _ h' => rw [Option.some.inj (h.symm.trans h')]

namespace Apart

variable {paths : List Path} {p q : Path} {k : String} {e e' : DependencyError}

/-- Of paths that are kept apart, two that are the same are written the same. -/
theorem eq_of_components (h : survey.Apart paths) (hp : p ∈ paths) (hq : q ∈ paths)
    (same : p.components = q.components) : p = q :=
  List.inj_on_of_nodup_map h.once hp hq same

theorem sublist {others : List Path} (h : survey.Apart paths) (some : others.Sublist paths) :
    survey.Apart others :=
  ⟨h.once.sublist (some.map _), fun p hp => h.placed p (some.subset hp)⟩

theorem eq_of_packageName (h : survey.Apart paths) (hp : p ∈ paths) (hq : q ∈ paths)
    (named : survey.workspace.packageName p = .ok k)
    (named' : survey.workspace.packageName q = .ok k) : p = q :=
  h.eq_of_components hp hq (Workspace.components_eq_of_packageName named named')

/-- **Trouble with one path is not recorded on another.** -/
theorem trouble_unique (h : survey.Apart paths) (hp : p ∈ paths) (hq : q ∈ paths)
    (trouble : survey.Trouble s p k e) (trouble' : survey.Trouble s q k e') : p = q ∧ e = e' := by
  -- the text of a path without an import path is never the import path of another
  obtain rfl : p = q := by
    rcases trouble.recorded with named | ⟨rfl, unnamed⟩ <;>
      rcases trouble'.recorded with named' | ⟨text, unnamed'⟩
    · exact h.eq_of_packageName hp hq named named'
    · obtain ⟨name, named'⟩ := Workspace.packageName_of_text (h.placed q hq) (text ▸ named)
      exact absurd named' (unnamed' name)
    · obtain ⟨name, named⟩ := Workspace.packageName_of_text (h.placed p hp) named'
      exact absurd named (unnamed name)
    · cases p
      cases q
      exact congrArg Path.mk text
  exact ⟨rfl, trouble.unique trouble'⟩

/-- **The errors on record are the troubles of the paths.** -/
theorem errorOf_snapshot (h : survey.Apart paths) :
    (survey.snapshot s paths).errorOf k = some e ↔ ∃ p ∈ paths, survey.Trouble s p k e := by
  have some_of {e : DependencyError} (found : (survey.snapshot s paths).errorOf k = some e) :
      ∃ p ∈ paths, survey.Trouble s p k e := by
    obtain ⟨p, hp, dep, hd, recorded, error⟩ :=
      Graph.exists_mem_flatMap.1 (Graph.exists_of_errorOf_ofList found)
    rcases mem_records.1 hd with ⟨name, -, -, hd⟩ | ⟨k', e', trouble, rfl⟩
    · rw [Graph.error_of_mem_recordsOf hd] at error
      cases error
    · obtain rfl : k' = k := recorded
      obtain rfl : e' = e := Option.some.inj error
      exact ⟨p, hp, trouble⟩
  refine ⟨some_of, ?_⟩
  rintro ⟨p, hp, trouble⟩
  rcases found : (survey.snapshot s paths).errorOf k with _ | e'
  · have none := Graph.errorOf_ofList_eq_none.1 found (fault k e)
      (List.mem_flatMap.2 ⟨p, hp, mem_records.2 (.inr ⟨k, e, trouble, rfl⟩)⟩) rfl
    cases none
  · obtain ⟨q, hq, trouble'⟩ := some_of found
    rw [(h.trouble_unique hp hq trouble trouble').2]

/-- Of the path itself, if it is read, an error is on record exactly if it is broken. -/
theorem errorOf_isSome (h : survey.Apart paths) (hp : p ∈ paths) (reads : survey.Reads s p k) :
    ((survey.snapshot s paths).errorOf k).isSome ↔ (survey.found s p).Broken := by
  rw [Option.isSome_iff_exists]
  simp only [h.errorOf_snapshot]
  constructor
  · rintro ⟨e, q, hq, trouble⟩
    obtain rfl : p = q := by
      rcases trouble.recorded with named | ⟨rfl, unnamed⟩
      · exact h.eq_of_packageName hp hq reads.named named
      · obtain ⟨name, named⟩ := Workspace.packageName_of_text (h.placed q hq) reads.named
        exact absurd named (unnamed name)
    cases trouble with
    | unnamed named => cases reads.named.symm.trans named
    | absent _ absent =>
      rw [(absence_eq_none p).2 reads.directory] at absent
      cases absent
    | unread _ none error broken => exact ⟨none, _, error, broken⟩
  · rintro ⟨none, e, error, broken⟩
    exact ⟨_, p, hp, .unread reads none error broken⟩

/-- The imports on record of a path that is read are those that were found. -/
theorem imports_iff (h : survey.Apart paths) (hp : p ∈ paths) (reads : survey.Reads s p k)
    {i : String} :
    (survey.snapshot s paths).Imports k i ↔ i ∈ (survey.found s p).imports := by
  rw [imports_snapshot]
  constructor
  · rintro ⟨q, hq, reads', hi⟩
    obtain rfl := h.eq_of_packageName hp hq reads.named reads'.named
    exact hi
  · exact fun hi => ⟨p, hp, reads, hi⟩

end Apart

/-! ## Where a survey goes next -/

/-- **What a directory leads to**: the visible directories below it, if it is inside the project,
and the directories of its imports; nothing if it is broken or cannot be listed. -/
def children (survey : Survey σ) (s : σ) (path : Path) : List Path :=
  match survey.below path s with
  | .error _ => []
  | .ok dirs =>
    if (survey.found s path).Broken then []
    else distinct (dirs ++
      (StringSet.ofList (survey.found s path).imports).toList.map survey.workspace.packageSource)

/-- What is put at the place of its key adds its key. -/
theorem mem_map_insertWith {α κ : Type} [Ord κ] [Std.LawfulEqOrd κ] {key : α → κ} {x : α}
    {entries : List α} {k : κ} :
    k ∈ (Ordered.insertWith key (fun old _ => old) x entries).map key ↔
      k = key x ∨ k ∈ entries.map key := by
  induction entries with
  | nil => simp
  | cons y ys ih =>
    unfold Ordered.insertWith
    split
    · simp
    · next same => simp [Std.LawfulEqOrd.eq_of_compare same]
    · rw [List.map_cons, List.mem_cons, ih, List.map_cons, List.mem_cons, or_left_comm]

theorem mem_map_distinct {paths : List Path} {k : List Component} :
    k ∈ (distinct paths).map Path.components ↔ k ∈ paths.map Path.components := by
  have grown (start : List Path) :
      k ∈ (paths.foldl (fun ps p => Ordered.insertWith Path.components (fun old _ => old) p ps)
        start).map Path.components ↔
        k ∈ paths.map Path.components ∨ k ∈ start.map Path.components := by
    induction paths generalizing start with
    | nil => simp
    | cons p ps ih =>
      rw [List.foldl_cons, ih, mem_map_insertWith, List.map_cons, List.mem_cons, or_left_comm,
        or_assoc]
  rw [distinct, grown []]
  simp

theorem mem_of_mem_distinct {paths : List Path} {p : Path} : p ∈ distinct paths → p ∈ paths := by
  have grown (start : List Path)
      (h : p ∈ paths.foldl (fun ps p => Ordered.insertWith Path.components (fun old _ => old) p ps)
        start) : p ∈ paths ∨ p ∈ start := by
    induction paths generalizing start with
    | nil => exact .inr h
    | cons q qs ih =>
      rcases ih _ h with h | h
      · exact .inl (List.mem_cons_of_mem _ h)
      · rcases Ordered.mem_insertWith h with rfl | h | ⟨old, hold, -, rfl⟩
        · exact .inl List.mem_cons_self
        · exact .inr h
        · exact .inr hold
  intro h
  simpa using grown [] h

/-- Paths in order stay as they are, and those that follow are left out if they are among them. -/
theorem distinct_append {paths more : List Path} (sorted : Ordered.Sorted Path.components paths)
    (known : ∀ p ∈ more, p.components ∈ paths.map Path.components) :
    distinct (paths ++ more) = paths := by
  have grown (paths start : List Path) (sorted : Ordered.Sorted Path.components (start ++ paths)) :
      paths.foldl (fun ps p => Ordered.insertWith Path.components (fun old _ => old) p ps) start
        = start ++ paths := by
    induction paths generalizing start with
    | nil => simp
    | cons p ps ih =>
      have last : ∀ q ∈ start, compare q.components p.components = .lt := fun q hq =>
        (List.pairwise_append.1 sorted).2.2 q hq p List.mem_cons_self
      rw [List.foldl_cons, Ordered.insertWith_of_last last, ih _ (by simpa using sorted),
        List.append_assoc, List.singleton_append]
  rw [distinct, List.foldl_append, grown paths [] sorted, List.nil_append]
  induction more with
  | nil => rfl
  | cons p more ih =>
    rw [List.forall_mem_cons] at known
    rw [List.foldl_cons, Ordered.insertWith_of_mem sorted known.1, ih known.2]

/-- **A directory below another that a survey visits**: it is real, visible, and not avoided. -/
def Subdirectory (survey : Survey σ) (s : σ) (path dir : Path) : Prop :=
  ∃ names, survey.files.directories path s = .ok names ∧
    ∃ name ∈ names, Files.isHidden name = false ∧ dir = path.join name ∧
      survey.isAvoided dir = false

/-- The directories below a path inside the project. -/
theorem mem_below {dirs : List Path} {dir : Path} (listed : survey.below path s = .ok dirs) :
    dir ∈ dirs ↔ path.startsWith survey.root = true ∧ survey.Subdirectory s path dir := by
  unfold below at listed
  by_cases inside : path.startsWith survey.root = true
  · rw [if_pos inside, Files.visibleSubdirectories] at listed
    unfold Subdirectory
    rcases held : survey.files.directories path s with e | names
    · rw [held] at listed
      cases listed
    · rw [held] at listed
      obtain rfl := Except.ok.inj listed
      simp only [List.mem_filter, List.mem_mergeSort, List.mem_map, inside, true_and]
      constructor
      · rintro ⟨⟨name, ⟨hn, visible⟩, rfl⟩, wanted⟩
        exact ⟨names, rfl, name, hn, by simpa using visible, rfl, by simpa using wanted⟩
      · rintro ⟨_, e, name, hn, visible, rfl, wanted⟩
        obtain rfl := Except.ok.inj e
        exact ⟨⟨name, ⟨hn, by simpa using visible⟩, rfl⟩, by simpa using wanted⟩
  · rw [if_neg inside] at listed
    obtain rfl := Except.ok.inj listed
    simp [inside]

/-- **What a directory leads to, as a set of paths.** -/
theorem mem_map_children {dirs : List Path} (listed : survey.below path s = .ok dirs)
    {k : List Component} :
    k ∈ (survey.children s path).map Path.components ↔
      ¬ (survey.found s path).Broken ∧
        ((path.startsWith survey.root = true ∧
            ∃ dir, survey.Subdirectory s path dir ∧ dir.components = k) ∨
          ∃ i ∈ (survey.found s path).imports,
            (survey.workspace.packageSource i).components = k) := by
  unfold children
  rw [listed]
  dsimp only
  split
  · next broken => simp [broken]
  · next sound =>
    rw [mem_map_distinct, List.map_append, List.mem_append]
    refine (or_congr ?_ ?_).trans (and_iff_right sound).symm
    · simp only [List.mem_map, mem_below listed, and_assoc, exists_and_left]
    · simp [List.mem_map]

theorem placed_children {name : String} (named : survey.workspace.packageName path = .ok name) :
    ∀ p ∈ survey.children s path, survey.workspace.Placed p := by
  intro p hp
  unfold children at hp
  rcases listed : survey.below path s with e | dirs
  · rw [listed] at hp
    cases hp
  · rw [listed] at hp
    dsimp only at hp
    split at hp
    · cases hp
    · rcases List.mem_append.1 (mem_of_mem_distinct hp) with hp | hp
      · obtain ⟨-, names, -, n, -, -, rfl, -⟩ := (mem_below listed).1 hp
        exact .join named n
      · obtain ⟨i, -, rfl⟩ := List.mem_map.1 hp
        exact survey.workspace.placed_packageSource i

/-- **What the graph says to visit next** is what the directory leads to. -/
theorem next_snapshot {paths nodes : List Path} {name : String} (h : survey.Apart paths)
    (hp : path ∈ paths) (reads : survey.Reads s path name)
    (ok : survey.next path (survey.snapshot s paths) s = .ok nodes) :
    (∃ dirs, survey.below path s = .ok dirs) ∧ nodes = survey.children s path := by
  unfold next at ok
  unfold children
  rcases listed : survey.below path s with e | dirs
  · rw [listed] at ok
    cases ok
  · rw [listed, reads.named] at ok
    refine ⟨⟨dirs, rfl⟩, ?_⟩
    dsimp only at ok ⊢
    have broken := h.errorOf_isSome hp reads
    rcases found : (survey.snapshot s paths).get? name with _ | dep
    · -- nothing is on record, so nothing was found
      rw [found] at ok
      have none : (survey.found s path).imports = [] := by
        refine List.eq_nil_iff_forall_not_mem.2 fun i hi => ?_
        obtain ⟨dep, there, -⟩ := (h.imports_iff hp reads).2 hi
        cases found.symm.trans there
      rw [Graph.errorOf, found] at broken
      rw [if_neg (fun b => by cases broken.2 b), none]
      obtain rfl := Except.ok.inj ok
      simp [StringSet.ofList, StringSet.insertAll]
    · rw [found] at ok
      dsimp only at ok
      rw [Graph.errorOf_eq found] at broken
      have same : dep.imports = .ofList (survey.found s path).imports := StringSet.ext fun i => by
        rw [← Graph.imports_iff found, h.imports_iff hp reads, StringSet.mem_ofList]
      by_cases faulty : dep.error.isSome = true
      · rw [if_pos (broken.1 faulty)]
        rw [if_pos faulty] at ok
        exact (Except.ok.inj ok).symm
      · rw [if_neg (fun b => faulty (broken.2 b)), ← same]
        rw [if_neg faulty] at ok
        exact (Except.ok.inj ok).symm

end Survey

end Depot
