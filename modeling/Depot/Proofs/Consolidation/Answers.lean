import Depot.Journal
import Depot.Proofs.Consolidation.Placing

/-!
# The answers of a resolver

What consolidation makes of a package depends on the repository the resolver finds for it, and on
what that repository tells of itself. `Answers` has all of this as plain data: `rootOf` is the
repository to record for a package, `report` what is put on record of it. A resolver with fixed
answers (`Fixed`) gives them whatever was asked before.

The queries that are made are part of the result. To have them at hand, states are taken together
with the queries that led to them (`Follows`).
-/

namespace Depot

/-- **The answers of a resolver** and of the repositories it finds. -/
structure Answers where
  /-- The repository of an import path, if it has one. -/
  root : String → Option String
  /-- The revision that is checked out in a repository. -/
  revision : String → Except Fault String
  /-- The branch that is checked out. -/
  branch : String → Except Fault String
  /-- The remote it was fetched from. -/
  remote : String → Except Fault String

/-- The checkout that gives the answers for a root, whatever happens. -/
def Answers.checkout {σ : Type} (a : Answers) (root : String) : Checkout σ where
  root := root
  create _ s := (.ok (), s)
  setRevision _ s := (.ok (), s)
  revision s := (a.revision root, s)
  branch s := (a.branch root, s)
  remote s := (a.remote root, s)

/-- The resolver that gives the answers, whatever happens. -/
def Answers.resolver {σ : Type} (a : Answers) : RepoResolver σ where
  resolve path _ s :=
    match a.root path with
    | some root => (.ok (a.checkout root), s)
    | none => (.error (.ofMessage ("no repository for " ++ path)), s)

/-- Whether a call asks a checkout for what is in it. -/
def Event.isQuery : Event → Bool
  | .revision _ => true
  | .branch _ => true
  | .remote _ => true
  | _ => false

/-- The queries in a journal, in the order in which they were made. -/
def Journal.queries {σ : Type} (j : Journal σ) : List Event :=
  (j.events.filter Event.isQuery).reverse

namespace Journal

variable {σ α : Type}

theorem noted_eq (event : Event) {call : Attempt σ α} {j : Journal σ} {answer : Except Fault α}
    {s' : σ} (h : call j.state = (answer, s')) :
    noted event call j = (answer, ⟨s', event :: j.events⟩) := by
  unfold noted
  rw [h]

/-- A query is the last one of a journal in which it was just noted. -/
theorem queries_cons {event : Event} {events : List Event} {s s' : σ} (query : event.isQuery) :
    queries ⟨s', event :: events⟩ = queries ⟨s, events⟩ ++ [event] := by
  simp [queries, query]

end Journal

/-- The record of a repository that was found, with what it told of itself. -/
def Repository.found (root : String) (told : String × String) (packages : Graph) : Repository where
  root := root
  revisions := StringSet.empty.insert told.1
  onDiskRevision := told.1
  remotes := StringSet.empty.insert told.2
  onDiskRemote := told.2
  packages := packages

namespace Consolidation

variable {σ : Type} (c : Consolidation σ) (a : Answers)

/-! ## What is put on record -/

/-- **The repository to record for a package**: the one it has, unless that is the project's own or
encloses the project. -/
def rootOf (dep : Dependency) : Option String :=
  (a.root dep.importPath).filter fun root => !c.enclosesProject root

/-- What is checked out in a repository. -/
def shown (root : String) : Except ResolveError String :=
  let exactly := (a.revision root).mapError (.revision root)
  if c.branches then
    match a.branch root with
    | .ok branch => .ok branch
    | .error _ => exactly
  else exactly

/-- **What a repository tells of itself**: what is checked out, and where it was fetched from. -/
def report (root : String) : Except ResolveError (String × String) := do
  let revision ← c.shown a root
  let remote ← (a.remote root).mapError (.source root)
  return (revision, remote)

/-- The queries that a report takes. -/
def queriesOf (root : String) : List Event :=
  (if c.branches then [.branch root] else []) ++
    (if c.branches && (a.branch root).isOk then [] else [.revision root]) ++
    (if (c.shown a root).isOk then [.remote root] else [])

/-! ## Fixed answers -/

/-- A checkout gives the answers. `Q queries s` says that the queries may lead to the state `s`. -/
structure Tells (Q : List Event → σ → Prop) (checkout : Checkout σ) : Prop where
  /-- It tells its revision. -/
  revision : ∀ es s, Q es s → ∃ s', checkout.revision s = (a.revision checkout.root, s') ∧
    Q (es ++ [.revision checkout.root]) s'
  /-- It tells its branch. -/
  branch : ∀ es s, Q es s → ∃ s', checkout.branch s = (a.branch checkout.root, s') ∧
    Q (es ++ [.branch checkout.root]) s'
  /-- It tells its remote. -/
  remote : ∀ es s, Q es s → ∃ s', checkout.remote s = (a.remote checkout.root, s') ∧
    Q (es ++ [.remote checkout.root]) s'

/-- The resolver gives the answers, and so do the checkouts it yields. -/
def Follows (Q : List Event → σ → Prop) : Prop :=
  ∀ path es s, Q es s → ∃ answer s', c.repositoryOf path s = (answer, s') ∧ Q es s' ∧
    answer.toOption.map (·.root) = a.root path ∧
    ∀ checkout, answer = .ok checkout → Tells a Q checkout

/-- **The answers are fixed** in states that satisfy `P`, which no call leads out of: what is asked
before makes no difference. -/
def Fixed (P : σ → Prop) : Prop := c.Follows a fun _ s => P s

/-- Drawing up a manifest with a journal of the calls. -/
def noted : Consolidation (Journal σ) where
  workspace := c.workspace
  project := c.project
  branches := c.branches
  pins := c.pins
  resolver := Journal.resolver c.resolver

variable {c a}

theorem rootOf_eq_some {dep : Dependency} {root : String} : c.rootOf a dep = some root ↔
    a.root dep.importPath = some root ∧ c.enclosesProject root = false := by
  simp [rootOf, Option.filter_eq_some_iff]

/-- A journal does not change the answers, and it has the queries. -/
theorem Tells.noted {P : σ → Prop} {checkout : Checkout σ}
    (tells : Tells a (fun _ s => P s) checkout) :
    Tells a (fun es j => P j.state ∧ j.queries = es) (Journal.checkout checkout) where
  revision := by
    rintro es j ⟨held, rfl⟩
    obtain ⟨s', told, held⟩ := tells.revision [] j.state held
    exact ⟨_, Journal.noted_eq _ told, held, Journal.queries_cons rfl⟩
  branch := by
    rintro es j ⟨held, rfl⟩
    obtain ⟨s', told, held⟩ := tells.branch [] j.state held
    exact ⟨_, Journal.noted_eq _ told, held, Journal.queries_cons rfl⟩
  remote := by
    rintro es j ⟨held, rfl⟩
    obtain ⟨s', told, held⟩ := tells.remote [] j.state held
    exact ⟨_, Journal.noted_eq _ told, held, Journal.queries_cons rfl⟩

theorem Fixed.follows_noted {P : σ → Prop} (fixed : c.Fixed a P) :
    c.noted.Follows a fun es j => P j.state ∧ j.queries = es := by
  rintro path es j ⟨held, rfl⟩
  obtain ⟨answer, s', asked, held, root, tells⟩ := fixed path [] j.state held
  have noted : c.noted.repositoryOf path j = (answer.map Journal.checkout,
      ⟨s', .resolve path (Pin.firstFor c.pins path) :: j.events⟩) := by
    have call := Journal.noted_eq (.resolve path (Pin.firstFor c.pins path)) asked
    exact congrArg (fun r => (Except.map Journal.checkout r.1, r.2)) call
  refine ⟨_, _, noted, ⟨held, rfl⟩, ?_, fun checkout yielded => ?_⟩
  · rw [← root]
    cases answer <;> rfl
  · cases answer with
    | error cause => cases yielded
    | ok inner =>
      cases yielded
      exact (tells inner rfl).noted

/-! ## One package and one repository -/

section Ask

variable {Q : List Event → σ → Prop} {dep : Dependency} {checkout : Checkout σ}
  {es : List Event} {s s' : σ}

/-- A package for which the resolver finds nothing has no repository to record. -/
theorem Follows.of_unresolved {cause : Fault} (follows : c.Follows a Q) (es : List Event)
    (start : Q es s) (asked : c.repositoryOf dep.importPath s = (.error cause, s')) :
    c.rootOf a dep = none ∧ Q es s' := by
  obtain ⟨answer, t, asked', kept, root, -⟩ := follows dep.importPath es s start
  rw [asked] at asked'
  cases asked'
  have root : a.root dep.importPath = none := root.symm
  exact ⟨by simp [rootOf, root], kept⟩

/-- Neither has one for which it finds what holds the project. -/
theorem Follows.of_own (follows : c.Follows a Q) (es : List Event) (start : Q es s)
    (asked : c.repositoryOf dep.importPath s = (.ok checkout, s'))
    (encloses : c.enclosesProject checkout.root = true) : c.rootOf a dep = none ∧ Q es s' := by
  obtain ⟨answer, t, asked', kept, root, -⟩ := follows dep.importPath es s start
  rw [asked] at asked'
  cases asked'
  have root : a.root dep.importPath = some checkout.root := root.symm
  exact ⟨by simp [rootOf, root, encloses], kept⟩

theorem Follows.of_apart (follows : c.Follows a Q) (es : List Event) (start : Q es s)
    (asked : c.repositoryOf dep.importPath s = (.ok checkout, s'))
    (apart : c.enclosesProject checkout.root = false) :
    c.rootOf a dep = some checkout.root ∧ Q es s' ∧ Tells a Q checkout := by
  obtain ⟨answer, t, asked', kept, root, tells⟩ := follows dep.importPath es s start
  rw [asked] at asked'
  cases asked'
  exact ⟨rootOf_eq_some.2 ⟨root.symm, apart⟩, kept, tells checkout rfl⟩

/-- What is checked out is found out by a branch query, a revision query, or one after the other. -/
theorem Tells.revisionOf_eq (tells : Tells a Q checkout) (start : Q es s) :
    ∃ s', c.revisionOf checkout s = (c.shown a checkout.root, s') ∧
      Q (es ++ (if c.branches then [.branch checkout.root] else []) ++
        (if c.branches && (a.branch checkout.root).isOk then []
          else [.revision checkout.root])) s' := by
  unfold revisionOf shown
  cases c.branches with
  | false =>
    obtain ⟨s', told, kept⟩ := tells.revision es s start
    refine ⟨s', ?_, by simpa using kept⟩
    simp only [told]
    cases a.revision checkout.root <;> rfl
  | true =>
    obtain ⟨s', told, kept⟩ := tells.branch es s start
    simp only [told]
    cases a.branch checkout.root with
    | ok branch => exact ⟨s', rfl, by simpa [Except.isOk, Except.toBool] using kept⟩
    | error cause =>
      obtain ⟨s'', told, kept⟩ := tells.revision _ s' kept
      refine ⟨s'', ?_, by simpa [Except.isOk, Except.toBool] using kept⟩
      simp only [told]
      cases a.revision checkout.root <;> rfl

/-- **A repository that is put on record** is asked for its report, and for nothing else. -/
theorem Tells.open?_eq (tells : Tells a Q checkout) (es : List Event) (start : Q es s)
    (dep : Dependency) :
    ∃ s', c.open? checkout dep s =
        ((c.report a checkout.root).map fun told =>
          .found checkout.root told (Graph.empty.add dep), s') ∧
      Q (es ++ c.queriesOf a checkout.root) s' := by
  obtain ⟨s', shown, kept⟩ := tells.revisionOf_eq (c := c) start
  unfold open? report queriesOf
  rw [shown]
  cases c.shown a checkout.root with
  | error e => exact ⟨s', rfl, by simpa [Except.isOk, Except.toBool] using kept⟩
  | ok revision =>
    obtain ⟨s'', told, kept⟩ := tells.remote _ s' kept
    simp only [told]
    refine ⟨s'', ?_, by simpa [Except.isOk, Except.toBool] using kept⟩
    cases a.remote checkout.root <;> rfl

end Ask

theorem fixed_of_resolver (given : c.resolver = a.resolver) : c.Fixed a fun _ => True := by
  intro path es s _
  have asked : c.repositoryOf path s =
      match a.root path with
      | some root => (.ok (a.checkout root), s)
      | none => (.error (.ofMessage ("no repository for " ++ path)), s) := by
    rw [repositoryOf, given]
    rfl
  rcases found : a.root path with _ | root
  · rw [found] at asked
    exact ⟨_, s, asked, trivial, rfl, nofun⟩
  · rw [found] at asked
    refine ⟨_, s, asked, trivial, rfl, ?_⟩
    rintro _ ⟨⟩
    exact ⟨fun _ s _ => ⟨s, rfl, trivial⟩, fun _ s _ => ⟨s, rfl, trivial⟩,
      fun _ s _ => ⟨s, rfl, trivial⟩⟩

end Consolidation

end Depot
