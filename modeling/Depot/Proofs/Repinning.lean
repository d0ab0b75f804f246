import Depot.Proofs.Chronicle
import Mathlib.Data.List.Induction

/-!
# Moving repositories to declared revisions

With updating on, a package on disk whose pin declares a revision has its repository moved there
before the package is read. The loader remembers what is done by the roots of pins, not of
repositories: a pin is settled with the first package it governs, whichever repository that package
is in (`Settled`). So a pin is carried out once, for the repository of one of its packages. This is
all that is needed where pins and repositories are one to one. Where one pin governs packages of
several repositories, the others stay as they are (`second_repository_stays`); where one repository
holds packages of several pins, it is moved once for each of them (`moved_for_each_pin`).
-/

namespace Depot

/-- Pins with one root that come first for some packages are one pin. -/
theorem Pin.firstFor_root_injective {pins : List Pin} {a b : Pin} {p q : String}
    (ha : firstFor pins p = some a) (hb : firstFor pins q = some b) (same : a.root = b.root) :
    a = b := by
  have alike {pin pin' : Pin} (h : pin.root = pin'.root) (path : String) :
      pin.governs path = pin'.governs path := by
    unfold governs
    rw [h]
  unfold firstFor at ha hb
  induction pins with
  | nil => cases ha
  | cons pin pins ih =>
    rw [List.find?_cons] at ha hb
    cases hp : pin.governs p <;> cases hq : pin.governs q <;> rw [hp] at ha <;> rw [hq] at hb
    · exact ih ha hb
    · -- the pin is `b`, so `a` has its root and does not govern `p` either
      obtain rfl := Option.some.inj hb
      have := List.find?_some ha
      rw [alike same, hp] at this
      cases this
    · obtain rfl := Option.some.inj ha
      have := List.find?_some hb
      rw [← alike same, hq] at this
      cases this
    · exact Option.some.inj (ha.symm.trans hb)

/-- **A resolver with fixed answers**: for a package and its pin it always tells the same root, or
none. -/
def RepoResolver.Tells {σ : Type} (resolver : RepoResolver σ)
    (rootOf : String → Option Pin → Option String) : Prop :=
  ∀ package pin s, (resolver.resolve package pin s).1.toOption.map Checkout.root =
    rootOf package pin

/-! ## Moves -/

/-- **A repository comes to a revision**: it is fetched there, or moved there. -/
structure Move where
  /-- The package that it was found for. -/
  package : String
  /-- The pin that governs the package. -/
  pin : Option Pin
  /-- The root of the repository. -/
  root : String
  /-- The revision. -/
  revision : String
  /-- Whether it was fetched. -/
  fresh : Bool
  deriving DecidableEq, Repr

variable {σ : Type}

/-- The move that an account tells of, if its deed was one and went well. -/
def Account.move? (a : Account σ) : Option Move :=
  match a.succeeded, a.deed with
  | true, .create package pin root (some revision) => some ⟨package, pin, root, revision, true⟩
  | true, .setRevision package pin root revision => some ⟨package, pin, root, revision, false⟩
  | _, _ => none

/-- **The moves that accounts tell of**, in order. -/
def movesOf (accounts : List (Account σ)) : List Move := accounts.filterMap Account.move?

section Concat

variable (accounts : List (Account σ)) (package : String) (pin : Option Pin) (root revision : String)
  (before after : σ)

theorem movesOf_concat (a : Account σ) :
    movesOf (accounts ++ [a]) = movesOf accounts ++ a.move?.toList := by
  unfold movesOf
  rw [List.filterMap_append]
  cases h : a.move? <;> simp [h]

theorem movesOf_concat_failed (deed : Deed) :
    movesOf (accounts ++ [⟨deed, false, before, after⟩]) = movesOf accounts := by
  rw [movesOf_concat]
  exact List.append_nil _

theorem movesOf_concat_read (dir : Path) (succeeded : Bool) :
    movesOf (accounts ++ [⟨.read dir, succeeded, before, after⟩]) = movesOf accounts := by
  rw [movesOf_concat]
  cases succeeded <;> exact List.append_nil _

theorem movesOf_concat_fetch :
    movesOf (accounts ++ [⟨.create package pin root none, true, before, after⟩]) =
      movesOf accounts := by
  rw [movesOf_concat]
  exact List.append_nil _

theorem movesOf_concat_create :
    movesOf (accounts ++ [⟨.create package pin root (some revision), true, before, after⟩]) =
      movesOf accounts ++ [⟨package, pin, root, revision, true⟩] :=
  movesOf_concat _ _

theorem movesOf_concat_setRevision :
    movesOf (accounts ++ [⟨.setRevision package pin root revision, true, before, after⟩]) =
      movesOf accounts ++ [⟨package, pin, root, revision, false⟩] :=
  movesOf_concat _ _

end Concat

namespace LoadPlan

variable {plan : LoadPlan σ} {package : String} {packages : List String} {pinned : StringSet}
  {moves : List Move} {c c' : Chronicle σ}

/-- **A move that a plan asks for**: to the revision that the first pin for the package declares, of
the repository that the resolver tells for it. -/
structure Asks (plan : LoadPlan σ) (packages : List String) (move : Move) : Prop where
  /-- The package is one of those loaded. -/
  loaded : move.package ∈ packages
  /-- The revision is that of the package's pin. -/
  declared : ∃ pin, move.pin = some pin ∧ Pin.firstFor plan.pins move.package = some pin ∧
    pin.revision = some move.revision
  /-- The repository is that of the package. -/
  told : ∃ s checkout s', plan.repositoryOf move.package s = (.ok checkout, s') ∧
    checkout.root = move.root

/-- **What the settled roots say of the moves so far**: they are the roots of the pins that a move
was asked for by, and no pin had a repository moved that was settled before. -/
structure Settled (plan : LoadPlan σ) (packages : List String) (pinned : StringSet)
    (moves : List Move) : Prop where
  /-- Every move is asked for. -/
  asked : ∀ move ∈ moves, plan.Asks packages move
  /-- The settled roots are those of the pins of the moves. -/
  mem_iff : ∀ root, root ∈ pinned ↔ ∃ move ∈ moves, ∃ pin, move.pin = some pin ∧ pin.root = root
  /-- Where a repository is moved that was there, its pin was not settled. -/
  once : moves.Pairwise fun earlier later => later.fresh = false → earlier.pin ≠ later.pin

theorem Settled.nil : plan.Settled [] .empty [] where
  asked := by simp
  mem_iff := by simp
  once := .nil

/-- What is loaded later changes nothing about earlier moves. -/
theorem Settled.more (h : plan.Settled packages pinned moves) (package : String) :
    plan.Settled (packages ++ [package]) pinned moves where
  asked move hm :=
    { h.asked move hm with loaded := List.mem_append_left _ (h.asked move hm).loaded }
  mem_iff := h.mem_iff
  once := h.once

/-- **One more move settles its pin**, which was not settled if the repository was there. -/
theorem Settled.move (h : plan.Settled packages pinned moves) {move : Move} {pin : Pin}
    (asks : plan.Asks packages move) (by_pin : move.pin = some pin)
    (unsettled : move.fresh = false → pin.root ∉ pinned) :
    plan.Settled packages (pinned.insert pin.root) (moves ++ [move]) where
  asked := List.forall_mem_append.2 ⟨h.asked, List.forall_mem_singleton.2 asks⟩
  mem_iff root := by
    simp only [StringSet.mem_insert, h.mem_iff, List.mem_append, List.mem_singleton, or_and_right,
      exists_or, exists_eq_left, by_pin, Option.some.injEq, exists_eq_left']
    rw [or_comm, eq_comm]
  once := by
    refine List.pairwise_append.2 ⟨h.once, List.pairwise_singleton _ _, ?_⟩
    intro earlier he later hl there same
    obtain rfl := List.mem_singleton.1 hl
    exact unsettled there ((h.mem_iff _).2 ⟨earlier, he, pin, same.trans by_pin, rfl⟩)

/-- **Having a package on disk keeps what is settled in step with the moves.** -/
theorem Settled.telling (h : plan.Settled packages pinned (movesOf c.accounts))
    (loaded : package ∈ packages) {outcome : Except LoadError StringSet}
    (telling : plan.Telling package pinned c (outcome, c')) :
    plan.Settled packages (outcome.toOption.getD pinned) (movesOf c'.accounts) := by
  cases telling with
  | idle _ well =>
    cases outcome with
    | error cause => exact h
    | ok pinned' =>
      obtain ⟨rfl, -, -⟩ := well pinned' rfl
      exact h
  | @fetch checkout s s' result missing asked done =>
    rcases result with cause | ⟨⟩
    · show plan.Settled packages pinned (movesOf (c.accounts ++ [⟨_, false, s, s'⟩]))
      rw [movesOf_concat_failed]
      exact h
    · show plan.Settled packages (settle pinned _) (movesOf (c.accounts ++ [⟨_, true, s, s'⟩]))
      rcases governed : Pin.firstFor plan.pins package with _ | ⟨root, _ | revision, source⟩
      · rw [Option.bind_none, movesOf_concat_fetch]
        exact h
      · rw [Option.bind_some, movesOf_concat_fetch]
        exact h
      · have asks : plan.Asks packages
            ⟨package, some ⟨root, some revision, source⟩, checkout.root, revision, true⟩ :=
          ⟨loaded, ⟨_, rfl, governed, rfl⟩, c.state, checkout, s, asked, rfl⟩
        rw [Option.bind_some, movesOf_concat_create]
        exact h.move asks rfl nofun
  | @move pin revision checkout s s' result there update governed declared unsettled asked done =>
    rcases result with cause | ⟨⟩
    · show plan.Settled packages pinned (movesOf (c.accounts ++ [⟨_, false, s, s'⟩]))
      rw [movesOf_concat_failed]
      exact h
    · have asks : plan.Asks packages ⟨package, some pin, checkout.root, revision, false⟩ :=
        ⟨loaded, ⟨pin, rfl, governed, declared⟩, c.state, checkout, s, asked, rfl⟩
      show plan.Settled packages (pinned.insert pin.root)
        (movesOf (c.accounts ++ [⟨_, true, s, s'⟩]))
      rw [movesOf_concat_setRevision]
      exact h.move asks rfl fun _ => unsettled

/-- **Loading keeps it**, whatever comes of it. -/
theorem Settled.load {loader : Loader}
    (h : plan.Settled packages loader.pinned (movesOf c.accounts)) (loaded : package ∈ packages) :
    plan.Settled packages (plan.chronicling.load package loader c).2.1.pinned
      (movesOf (plan.chronicling.load package loader c).2.2.accounts) := by
  have recounting := plan.recounting_load package loader c
  generalize plan.chronicling.load package loader c = told at recounting ⊢
  cases recounting with
  | refused telling => exact h.telling loaded telling
  | unread telling _ _ | recorded telling _ _ =>
    rw [movesOf_concat_read]
    exact h.telling loaded telling

/-- **A run keeps it.** -/
theorem settled_loadAll (plan : LoadPlan σ) (packages : List String) (s : σ) :
    plan.Settled packages (plan.chronicling.loadAll packages {} ⟨s, []⟩).1.pinned
      (movesOf (plan.chronicling.loadAll packages {} ⟨s, []⟩).2.accounts) := by
  induction packages using List.reverseRecOn with
  | nil => exact .nil
  | append_singleton packages package ih =>
    rw [loadAll_concat]
    exact (ih.more package).load (by simp)

/-! ## What is moved before a package is read -/

/-- With updating on, a package on disk is provided once its pin is settled. -/
theorem Telling.settles {pinned' : StringSet} {pin : Pin} {revision : String}
    (telling : plan.Telling package pinned c (.ok pinned', c')) (update : plan.update = true)
    (there : plan.kindOf package c.state = .ok .directory)
    (governed : Pin.firstFor plan.pins package = some pin)
    (declared : pin.revision = some revision) : pin.root ∈ pinned' := by
  generalize outcome : (Except.ok pinned' : Except LoadError StringSet) = result at telling
  cases telling with
  | idle _ well =>
    obtain ⟨rfl, -, settled⟩ := well pinned' outcome.symm
    exact settled update pin governed revision declared
  | fetch missing => cases missing.symm.trans there
  | @move pin' _ _ _ _ moved _ _ governed' =>
    obtain rfl := Option.some.inj (governed.symm.trans governed')
    rcases moved with cause | ⟨⟩
    · cases outcome
    · obtain rfl := Except.ok.inj outcome
      exact StringSet.mem_insert.2 (.inl rfl)

/-- **A settled pin has had a repository moved**: one of a package that it is the first pin for. -/
theorem Settled.exists_move (h : plan.Settled packages pinned moves)
    {rootOf : String → Option Pin → Option String} (fixed : plan.resolver.Tells rootOf) {pin : Pin}
    {revision : String} (governed : Pin.firstFor plan.pins package = some pin)
    (declared : pin.revision = some revision) (settled : pin.root ∈ pinned) :
    ∃ q ∈ packages, Pin.firstFor plan.pins q = some pin ∧
      ∃ move ∈ moves, move.revision = revision ∧ rootOf q (some pin) = some move.root := by
  obtain ⟨move, hm, pin', by_pin, same⟩ := (h.mem_iff pin.root).1 settled
  obtain ⟨loaded, ⟨pin'', by_pin', governed', declared'⟩, s, checkout, s', asked, root⟩ :=
    h.asked move hm
  obtain rfl : pin' = pin'' := Option.some.inj (by_pin.symm.trans by_pin')
  obtain rfl : pin' = pin := Pin.firstFor_root_injective governed' governed same
  refine ⟨move.package, loaded, governed', move, hm, ?_, ?_⟩
  · exact Option.some.inj (declared'.symm.trans declared)
  · have told := fixed move.package (some pin') s
    rw [repositoryOf, governed'] at asked
    rw [asked] at told
    rw [← told, ← root]
    rfl

/-- **What is moved before a package is read.** Let the resolver have fixed answers and updating be
on. Where a package that is on disk is loaded after any others, and its first pin declares a
revision, some package loaded so far with that pin – the package itself, or one before it – has had
its repository fetched or moved to that revision, before the directory of the package was read.

That is the package's own repository as long as the packages of the pin are all in one. -/
theorem moved_before_read (plan : LoadPlan σ) (packages : List String) (s : σ)
    {rootOf : String → Option Pin → Option String} (fixed : plan.resolver.Tells rootOf)
    (update : plan.update = true) {package : String} {pin : Pin} {revision : String}
    (governed : Pin.firstFor plan.pins package = some pin)
    (declared : pin.revision = some revision) {loader loader' : Loader} {c c' : Chronicle σ}
    (run : plan.chronicling.loadAll packages {} ⟨s, []⟩ = (loader, c))
    (there : plan.kindOf package c.state = .ok .directory)
    (loaded : plan.chronicling.load package loader c = (.ok (), loader', c')) :
    ∃ earlier last, c'.accounts = earlier ++ [last] ∧
      last.deed = .read (plan.workspace.packageSource package) ∧
      (∃ q ∈ packages ++ [package], Pin.firstFor plan.pins q = some pin ∧
        ∃ move ∈ movesOf earlier, move.revision = revision ∧
          rootOf q (some pin) = some move.root) ∧
      ((∀ q ∈ packages, Pin.firstFor plan.pins q = some pin →
          rootOf q (some pin) = rootOf package (some pin)) →
        ∃ move ∈ movesOf earlier, move.revision = revision ∧
          rootOf package (some pin) = some move.root) := by
  have settled := plan.settled_loadAll packages s
  have recounting := plan.recounting_load package loader c
  rw [run] at settled
  rw [loaded] at recounting
  cases recounting with
  | @recorded pinned c₁ found s₁ telling read sound =>
    have mine : package ∈ packages ++ [package] := by simp
    have after := (settled.more package).telling mine telling
    have settles := telling.settles update there governed declared
    obtain ⟨q, hq, governed', move, hm, revised, root⟩ :=
      after.exists_move fixed governed declared settles
    refine ⟨_, _, rfl, rfl, ⟨q, hq, governed', move, hm, revised, root⟩, fun one => ?_⟩
    refine ⟨move, hm, revised, ?_⟩
    rcases List.mem_append.1 hq with before | last
    · rw [← one q before governed', root]
    · obtain rfl := List.mem_singleton.1 last
      exact root

/-- A plan with updating on, where every package is on disk but for the missing ones, `rootOf` tells
the repository of a package, and everything goes well. -/
def sample (pins : List Pin) (rootOf : String → String) (missing : List String) :
    LoadPlan Unit where
  workspace := ⟨⟨"/w"⟩⟩
  pins
  update := true
  files :=
    { kind := fun dir _ =>
        if missing.any fun package => dir == Workspace.packageSource ⟨⟨"/w"⟩⟩ package then
          .error .notFound
        else .ok .directory
      directories := fun _ _ => .ok [] }
  resolver :=
    { resolve := fun package _ s =>
        (.ok
          { root := rootOf package
            create := fun _ s => (.ok (), s)
            setRevision := fun _ s => (.ok (), s)
            revision := fun s => (.ok "", s)
            branch := fun s => (.ok "", s)
            remote := fun s => (.ok "", s) }, s) }
  reader := { read := fun _ s => ({}, s) }

theorem sample_tells (pins : List Pin) (rootOf : String → String) (missing : List String) :
    (sample pins rootOf missing).resolver.Tells fun package _ => some (rootOf package) :=
  fun _ _ _ => rfl

/-- A pin for a whole host. -/
def wide : Pin := { root := "e.org", revision := some "v1" }

/-- The repository was moved when an earlier package of it was loaded. -/
theorem moved_before_read_sample :
    let plan := sample [wide] (fun _ => "e.org") []
    ∃ loader c loader' c', plan.chronicling.loadAll ["e.org/a"] {} ⟨(), []⟩ = (loader, c) ∧
      plan.kindOf "e.org/b" c.state = .ok .directory ∧
      plan.chronicling.load "e.org/b" loader c = (.ok (), loader', c') ∧
      ∃ earlier last, c'.accounts = earlier ++ [last] ∧
        last.deed = .read (plan.workspace.packageSource "e.org/b") ∧
        ∃ move ∈ movesOf earlier, move.revision = "v1" ∧ move.root = "e.org" := by
  intro plan
  let run := plan.chronicling.loadAll ["e.org/a"] {} ⟨(), []⟩
  have handled : (plan.chronicling.load "e.org/b" run.1 run.2).1 = .ok () := by decide +kernel
  have loaded : plan.chronicling.load "e.org/b" run.1 run.2 =
      (.ok (), (plan.chronicling.load "e.org/b" run.1 run.2).2) := by rw [← handled]
  refine ⟨run.1, run.2, _, _, rfl, rfl, loaded, ?_⟩
  have governed : Pin.firstFor plan.pins "e.org/b" = some wide := by decide +kernel
  have declared : wide.revision = some "v1" := rfl
  obtain ⟨earlier, last, added, read, -, own⟩ :=
    moved_before_read plan ["e.org/a"] () (sample_tells _ _ _) rfl governed declared rfl rfl loaded
  obtain ⟨move, hm, revised, root⟩ := own fun _ _ _ => rfl
  exact ⟨earlier, last, added, read, move, hm, revised, (Option.some.inj root).symm⟩

/-- **A pin settles with the first of its repositories.** Where one pin governs packages of two
repositories, only one of them is moved; the second package is read at whatever revision its
repository is at. -/
theorem second_repository_stays :
    let plan := sample [wide] id []
    let run := plan.chronicling.loadAll ["e.org/a"] {} ⟨(), []⟩
    let last := plan.chronicling.load "e.org/b" run.1 run.2
    plan.resolver.Tells (fun package _ => some package) ∧
      Pin.firstFor plan.pins "e.org/b" = some wide ∧
      plan.kindOf "e.org/b" run.2.state = .ok .directory ∧ last.1 = .ok () ∧
      movesOf last.2.2.accounts = [⟨"e.org/a", some wide, "e.org/a", "v1", false⟩] :=
  ⟨sample_tells _ _ _, by decide +kernel, rfl, by decide +kernel, by decide +kernel⟩

/-! ## How often a repository is moved -/

/-- **Every repository has packages of at most one pin**, among those that declare a revision. -/
def OnePinEach (plan : LoadPlan σ) (packages : List String) : Prop :=
  ∀ p ∈ packages, ∀ q ∈ packages, ∀ pin pin',
    Pin.firstFor plan.pins p = some pin → pin.revision.isSome →
    Pin.firstFor plan.pins q = some pin' → pin'.revision.isSome →
    ∀ s checkout s' t checkout' t', plan.repositoryOf p s = (.ok checkout, s') →
      plan.repositoryOf q t = (.ok checkout', t') → checkout.root = checkout'.root → pin = pin'

/-- **A repository that is there is moved at most once for each pin**, and not at all for a pin that
a repository was fetched by. So where every repository has packages of at most one pin, it is moved
at most once, and not at all once it was fetched at its declared revision. -/
theorem moved_once (plan : LoadPlan σ) (packages : List String) (s : σ) :
    let moves := movesOf (plan.chronicling.loadAll packages {} ⟨s, []⟩).2.accounts
    (moves.Pairwise fun earlier later => later.fresh = false → earlier.pin ≠ later.pin) ∧
      (plan.OnePinEach packages →
        moves.Pairwise fun earlier later => later.fresh = false → earlier.root ≠ later.root) := by
  intro moves
  have settled := plan.settled_loadAll packages s
  refine ⟨settled.once, fun one => ?_⟩
  refine settled.once.imp_of_mem fun {earlier later} he hl apart there same => apart there ?_
  obtain ⟨loaded, ⟨pin, by_pin, governed, declared⟩, s, checkout, s', asked, root⟩ :=
    settled.asked earlier he
  obtain ⟨loaded', ⟨pin', by_pin', governed', declared'⟩, t, checkout', t', asked', root'⟩ :=
    settled.asked later hl
  rw [by_pin, by_pin', one _ loaded _ loaded' pin pin' governed (by simp [declared]) governed'
    (by simp [declared']) s checkout s' t checkout' t' asked asked' (by rw [root, root', same])]

/-- The pins of two packages of one repository. -/
def narrow : List Pin :=
  [{ root := "e.org/lib/one", revision := some "v1" },
    { root := "e.org/lib/two", revision := some "v2" }]

/-- Two packages of one repository and with one pin: the repository is moved once. -/
theorem moved_once_sample :
    let plan := sample [wide] (fun _ => "e.org") []
    let moves := movesOf (plan.chronicling.loadAll ["e.org/a", "e.org/b"] {} ⟨(), []⟩).2.accounts
    plan.OnePinEach ["e.org/a", "e.org/b"] ∧ moves.length = 1 ∧
      moves.Pairwise fun earlier later => later.fresh = false → earlier.root ≠ later.root := by
  intro plan moves
  have only {path : String} {pin : Pin} (governed : Pin.firstFor plan.pins path = some pin) :
      pin = wide := List.mem_singleton.1 (List.mem_of_find?_eq_some governed)
  have one : plan.OnePinEach ["e.org/a", "e.org/b"] := by
    intro p _ q _ pin pin' governed _ governed' _ _ _ _ _ _ _ _ _ _
    rw [only governed, only governed']
  exact ⟨one, by decide +kernel, (moved_once plan ["e.org/a", "e.org/b"] ()).2 one⟩

/-- **A repository is moved for each of the pins of its packages**: twice if it is there, and also
once it was fetched at the revision that another pin declares. -/
theorem moved_for_each_pin :
    let moves (missing : List String) :=
      movesOf ((sample narrow (fun _ => "e.org/lib") missing).chronicling.loadAll
        ["e.org/lib/one", "e.org/lib/two"] {} ⟨(), []⟩).2.accounts
    ((moves []).map fun move => (move.root, move.revision, move.fresh)) =
        [("e.org/lib", "v1", false), ("e.org/lib", "v2", false)] ∧
      ((moves ["e.org/lib/one"]).map fun move => (move.root, move.revision, move.fresh)) =
        [("e.org/lib", "v1", true), ("e.org/lib", "v2", false)] := by
  decide +kernel

end LoadPlan

end Depot
