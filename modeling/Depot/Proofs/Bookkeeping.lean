import Depot.Proofs.Minutes
import Depot.Proofs.Provenance

/-!
# Keeping the books of pins

What a loader does to repositories follows from what is on disk and from its books, the roots of the
pins that are settled. A package that is missing has its repository fetched; one that is on disk may
be due to have it moved (`Due`); nothing else leads to a call on the resolver. `Course` says what is
put on the minutes in each case.

The books are exact (`mem_pinned_loadEach`): a root is on them if and only if a repository was
fetched or moved to a revision under a pin with that root, whatever came of all other calls. So no
repository is moved under a pin that was carried out before (`pairwise_minutesEach`).
-/

namespace Depot

/-- **Whether a call brings a checkout to a given revision**, if it goes well. -/
def Event.placesRevision : Event → Bool
  | .create _ (some _) => true
  | .setRevision _ _ => true
  | _ => false

/-- Whether a call moves a checkout that is there. -/
def Event.movesCheckout : Event → Bool
  | .setRevision _ _ => true
  | _ => false

namespace LoadPlan

variable {σ : Type} {plan : LoadPlan σ} {package root : String} {pinned : StringSet} {s : σ}
  {loader : Loader}

/-! ## One call -/

/-- **When a package is due to have its repository moved**: it is on disk, updating is on, and its
first pin declares a revision and is not settled. -/
structure Due (plan : LoadPlan σ) (package : String) (pinned : StringSet) (s : σ) (pin : Pin)
    (revision : String) : Prop where
  /-- The package is on disk. -/
  there : plan.kindOf package s = .ok .directory
  /-- Updating is on. -/
  update : plan.update = true
  /-- The pin is the first one that governs the package. -/
  governed : Pin.firstFor plan.pins package = some pin
  /-- It declares the revision. -/
  declared : pin.revision = some revision
  /-- It is not settled. -/
  unsettled : pin.root ∉ pinned

/-- **When the resolver is asked**: for a package that is missing, or due to have its repository
moved. -/
def Asked (plan : LoadPlan σ) (package : String) (pinned : StringSet) (s : σ) : Prop :=
  plan.kindOf package s = .error .notFound ∨ ∃ pin revision, plan.Due package pinned s pin revision

/-- **What having a package on disk puts on the minutes**, and the settled roots that it yields. -/
inductive Course (plan : LoadPlan σ) (package : String) (pinned : StringSet) (s : σ) :
    Except LoadError StringSet → List Minute → Prop
  /-- There is something else in its place, or the system does not say. -/
  | blocked {cause : LoadError} (other : plan.kindOf package s ≠ .error .notFound)
      (absent : plan.kindOf package s ≠ .ok .directory) :
      Course plan package pinned s (.error cause) []
  /-- It is on disk, and its repository is not due to be moved. -/
  | stays (there : plan.kindOf package s = .ok .directory)
      (idle : ∀ pin revision, ¬plan.Due package pinned s pin revision) :
      Course plan package pinned s (.ok pinned) []
  /-- Its repository is asked for, and not known. -/
  | unknown {cause : LoadError} (asked : plan.Asked package pinned s) :
      Course plan package pinned s (.error cause)
        [⟨.resolve package (Pin.firstFor plan.pins package), false⟩]
  /-- It is missing, and its repository is to be fetched. -/
  | fetch {root : String} (result : Except LoadError Unit)
      (missing : plan.kindOf package s = .error .notFound) :
      Course plan package pinned s
        (result.map fun () => settle pinned (Pin.firstFor plan.pins package))
        [⟨.resolve package (Pin.firstFor plan.pins package), true⟩,
          ⟨.create root ((Pin.firstFor plan.pins package).bind (·.revision)), result.toBool⟩]
  /-- Its repository is due to be moved. -/
  | move {root revision : String} {pin : Pin} (result : Except LoadError Unit)
      (due : plan.Due package pinned s pin revision) :
      Course plan package pinned s (result.map fun () => pinned.insert pin.root)
        [⟨.resolve package (Pin.firstFor plan.pins package), true⟩,
          ⟨.setRevision root revision, result.toBool⟩]

/-- **One of these is what having a package on disk comes to.** -/
theorem course_provide (plan : LoadPlan σ) (package : String) (pinned : StringSet) (m : Minutes σ) :
    ∃ entries, (plan.minuting.provide package pinned m).2.entries = m.entries ++ entries ∧
      plan.Course package pinned m.state (plan.minuting.provide package pinned m).1 entries := by
  have providing := plan.minuting.providing_provide package pinned m
  generalize plan.minuting.provide package pinned m = told at providing ⊢
  -- what the plan with minutes finds on disk and among the pins is what the plan finds
  have due {pin : Pin} {revision : String} (there : plan.minuting.kindOf package m = .ok .directory)
      (update : plan.minuting.update = true)
      (governed : Pin.firstFor plan.minuting.pins package = some pin)
      (declared : pin.revision = some revision) (unsettled : pin.root ∉ pinned) :
      plan.Due package pinned m.state pin revision :=
    ⟨there, update, governed, declared, unsettled⟩
  cases providing with
  | occupied kind =>
    have kind : plan.kindOf package m.state = .ok .file := kind
    exact ⟨[], (List.append_nil _).symm, .blocked (by simp [kind]) (by simp [kind])⟩
  | unreachable kind other =>
    have kind : plan.kindOf package m.state = .error _ := kind
    exact ⟨[], (List.append_nil _).symm, .blocked (by simpa [kind] using other) (by simp [kind])⟩
  | stays there settled =>
    refine ⟨[], (List.append_nil _).symm, .stays there fun pin revision due => ?_⟩
    exact due.unsettled (settled due.update pin due.governed revision due.declared)
  | unknown missing asked =>
    exact ⟨_, (Minutes.resolve_eq_error asked).2, .unknown (.inl missing)⟩
  | stray there update governed declared unsettled asked =>
    exact ⟨_, (Minutes.resolve_eq_error asked).2,
      .unknown (.inr ⟨_, _, due there update governed declared unsettled⟩)⟩
  | @notFetched checkout cause _ _ missing asked done =>
    exact ⟨_, Minutes.entries_of_create asked done,
      .fetch (.error (.notFetched package checkout.root cause)) missing⟩
  | fetched missing asked done =>
    exact ⟨_, Minutes.entries_of_create asked done, .fetch (.ok ()) missing⟩
  | @notMoved pin revision checkout cause _ _ there update governed declared unsettled asked done =>
    exact ⟨_, Minutes.entries_of_setRevision asked done,
      .move (.error (.notMoved package cause)) (due there update governed declared unsettled)⟩
  | moved there update governed declared unsettled asked done =>
    exact ⟨_, Minutes.entries_of_setRevision asked done,
      .move (.ok ()) (due there update governed declared unsettled)⟩

/-- **What a call is made for.** -/
def Grounds (plan : LoadPlan σ) (package : String) (pinned : StringSet) (s : σ) : Event → Prop
  | .resolve path pin =>
    path = package ∧ pin = Pin.firstFor plan.pins package ∧ plan.Asked package pinned s
  | .create _ revision =>
    plan.kindOf package s = .error .notFound ∧
      revision = (Pin.firstFor plan.pins package).bind (·.revision)
  | .setRevision _ revision => ∃ pin, plan.Due package pinned s pin revision
  | .read dir => dir = plan.workspace.packageSource package
  | .revision _ | .branch _ | .remote _ => False

namespace Course

variable {provided : Except LoadError StringSet} {entries : List Minute}
  (course : plan.Course package pinned s provided entries)
include course

theorem grounds : ∀ minute ∈ entries, plan.Grounds package pinned s minute.event := by
  cases course with
  | blocked | stays => simp
  | unknown asked => simpa [Grounds] using asked
  | fetch _ missing => simp [Grounds, Asked, missing]
  | move _ due => simpa [Grounds] using ⟨.inr ⟨_, _, due⟩, _, due⟩

theorem not_read : ∀ minute ∈ entries, ∀ dir, minute.event ≠ .read dir := by
  cases course <;> simp

/-- **The resolver is asked if it has to be**, before anything else. -/
theorem asked_iff :
    (∃ went, ⟨.resolve package (Pin.firstFor plan.pins package), went⟩ ∈ entries) ↔
      plan.Asked package pinned s := by
  cases course with
  | blocked other absent =>
    refine iff_of_false (by simp) ?_
    rintro (missing | ⟨pin, revision, due⟩)
    · exact other missing
    · exact absent due.there
  | stays there idle =>
    refine iff_of_false (by simp) ?_
    rintro (missing | ⟨pin, revision, due⟩)
    · cases there.symm.trans missing
    · exact idle pin revision due
  | unknown asked => exact iff_of_true ⟨false, by simp⟩ asked
  | fetch _ missing => exact iff_of_true ⟨true, by simp⟩ (.inl missing)
  | move _ due => exact iff_of_true ⟨true, by simp⟩ (.inr ⟨_, _, due⟩)

/-- Only the last call brings a checkout to a revision. -/
theorem pairwise : entries.Pairwise fun earlier _ => earlier.event.placesRevision = false := by
  cases course <;> simp [Event.placesRevision]

/-- **The package is provided** exactly if it was there or missing, and all calls went well. -/
theorem provided_iff :
    (∃ pinned', provided = .ok pinned') ↔
      (plan.kindOf package s = .error .notFound ∨ plan.kindOf package s = .ok .directory) ∧
        ∀ minute ∈ entries, minute.went = true := by
  cases course with
  | blocked other absent => simp [other, absent]
  | stays there => simp [there]
  | unknown => simp
  | fetch result missing => cases result <;> simp [missing, Except.map, Except.toBool]
  | move result due => cases result <;> simp [due.there, Except.map, Except.toBool]

end Course

/-- **The minutes of a call on the loader**: of one package, in the surroundings as they are by
then.
-/
def minutesOf (plan : LoadPlan σ) (package : String) (loader : Loader) (s : σ) : List Minute :=
  (plan.minuting.load package loader ⟨s, []⟩).2.2.entries

/-- The minute of the reading of a package, which comes last if the package is on disk. -/
def readingOf (plan : LoadPlan σ) (package : String) (provided : Except LoadError StringSet)
    (went : Bool) : List Minute :=
  match provided with
  | .ok _ => [⟨.read (plan.workspace.packageSource package), went⟩]
  | .error _ => []

/-- **What loading a package puts on the minutes and on the books.** -/
theorem course_load (plan : LoadPlan σ) (package : String) (loader : Loader) (s : σ) :
    ∃ provided entries went, plan.Course package loader.pinned s provided entries ∧
      plan.minutesOf package loader s = entries ++ plan.readingOf package provided went ∧
      (plan.load package loader s).2.1.pinned = provided.toOption.getD loader.pinned := by
  obtain ⟨entries, added, course⟩ := plan.course_provide package loader.pinned ⟨s, []⟩
  have same : (plan.load package loader s).2.1 =
      (plan.minuting.load package loader ⟨s, []⟩).2.1 :=
    congrArg (·.2.1) (plan.load_minuting package loader ⟨s, []⟩)
  unfold minutesOf
  rw [same]
  rcases provided : plan.minuting.provide package loader.pinned ⟨s, []⟩ with ⟨cause | pinned, m⟩ <;>
    rw [provided] at added course
  · obtain rfl : m.entries = entries := added
    rw [load_of_provide_error provided]
    exact ⟨_, m.entries, false, course, (List.append_nil _).symm, rfl⟩
  · obtain rfl : m.entries = entries := added
    rw [load_of_provide_ok provided]
    refine ⟨_, m.entries, (plan.reader.read (plan.workspace.packageSource package)
      m.state).1.error.isNone, course, ?_, ?_⟩ <;> dsimp only <;> split <;> rfl

/-- The reading of a package is all that comes after. -/
theorem of_mem_readingOf {provided : Except LoadError StringSet} {went : Bool} {minute : Minute}
    (h : minute ∈ plan.readingOf package provided went) :
    minute.event = .read (plan.workspace.packageSource package) := by
  cases provided with
  | error cause => cases h
  | ok pinned =>
    obtain rfl := List.mem_singleton.1 h
    rfl

/-- **A call on the loader makes no call without grounds.** -/
theorem grounds_minutesOf : ∀ minute ∈ plan.minutesOf package loader s,
    plan.Grounds package loader.pinned s minute.event := by
  obtain ⟨provided, entries, went, course, minutes, -⟩ := plan.course_load package loader s
  rw [minutes]
  refine List.forall_mem_append.2 ⟨course.grounds, fun minute hm => ?_⟩
  rw [of_mem_readingOf hm]
  rfl

/-- It moves nothing after it brought a checkout to a revision. -/
theorem pairwise_minutesOf : (plan.minutesOf package loader s).Pairwise fun earlier later =>
    earlier.event.placesRevision = false ∨ later.event.movesCheckout = false := by
  obtain ⟨provided, entries, went, course, minutes, -⟩ := plan.course_load package loader s
  rw [minutes]
  refine List.pairwise_append.2 ⟨course.pairwise.imp .inl, ?_, fun _ _ later hl => .inr ?_⟩
  · cases provided <;> simp [readingOf]
  · rw [of_mem_readingOf hl]
    rfl

/-- **The reading comes last**, exactly if the package was there or missing and all other calls went
well. -/
theorem minutesOf_reading (plan : LoadPlan σ) (package : String) (loader : Loader) (s : σ) :
    ∃ calls went, (∀ call ∈ calls, ∀ dir, call.event ≠ .read dir) ∧
      let provided := (plan.kindOf package s = .error .notFound ∨
        plan.kindOf package s = .ok .directory) ∧ ∀ call ∈ calls, call.went = true
      (provided ∧ plan.minutesOf package loader s =
          calls ++ [⟨.read (plan.workspace.packageSource package), went⟩]) ∨
        (¬provided ∧ plan.minutesOf package loader s = calls) := by
  obtain ⟨provided, calls, went, course, minutes, -⟩ := plan.course_load package loader s
  refine ⟨calls, went, course.not_read, ?_⟩
  rw [← course.provided_iff, minutes]
  cases provided with
  | ok pinned => exact .inl ⟨⟨pinned, rfl⟩, rfl⟩
  | error cause => exact .inr ⟨by simp, List.append_nil _⟩

/-- **The resolver is asked if it has to be.** -/
theorem asked_minutesOf :
    (∃ went, ⟨.resolve package (Pin.firstFor plan.pins package), went⟩ ∈
      plan.minutesOf package loader s) ↔ plan.Asked package loader.pinned s := by
  obtain ⟨provided, calls, went, course, minutes, -⟩ := plan.course_load package loader s
  rw [← course.asked_iff, minutes]
  refine exists_congr fun went => ⟨fun h => ?_, List.mem_append_left _⟩
  refine (List.mem_append.1 h).resolve_right fun h => ?_
  cases of_mem_readingOf h

theorem grounds_of_not_update (off : plan.update = false) {event : Event}
    (grounds : plan.Grounds package pinned s event) : event.movesCheckout = false ∧
      (plan.kindOf package s ≠ .error .notFound →
        event = .read (plan.workspace.packageSource package)) := by
  have idle (pin : Pin) (revision : String) : ¬plan.Due package pinned s pin revision :=
    fun due => by cases off.symm.trans due.update
  cases event with
  | resolve path pin =>
    refine ⟨rfl, fun there => ?_⟩
    obtain ⟨-, -, missing | ⟨pin, revision, due⟩⟩ := grounds
    · exact absurd missing there
    · exact absurd due (idle pin revision)
  | create root revision => exact ⟨rfl, fun there => absurd grounds.1 there⟩
  | setRevision root revision =>
    obtain ⟨pin, due⟩ := grounds
    exact absurd due (idle pin revision)
  | read dir => exact ⟨rfl, fun _ => by rw [show dir = _ from grounds]⟩
  | revision | branch | remote => exact grounds.elim

/-! ## The books -/

/-- **A call settles a root**: it goes well and brings a checkout to a revision, and the first pin
for the package that it is made for has the root. -/
structure Settles (plan : LoadPlan σ) (root : String) (entry : String × Minute) : Prop where
  /-- It brings a checkout to a revision. -/
  places : entry.2.event.placesRevision = true
  /-- It goes well. -/
  went : entry.2.went = true
  /-- The pin of the package has the root. -/
  governed : ∃ pin, Pin.firstFor plan.pins entry.1 = some pin ∧ pin.root = root

/-- **A call moves a checkout under a root**, the one of the first pin for its package. -/
structure Moves (plan : LoadPlan σ) (root : String) (entry : String × Minute) : Prop where
  /-- It moves a checkout. -/
  moves : entry.2.event.movesCheckout = true
  /-- The pin of the package has the root. -/
  governed : ∃ pin, Pin.firstFor plan.pins entry.1 = some pin ∧ pin.root = root

/-- What is settled by a fetch is the pin, if it declares a revision. -/
theorem mem_settle {pin : Option Pin} :
    root ∈ settle pinned pin ↔
      root ∈ pinned ∨ ∃ own revision, pin = some own ∧ own.revision = some revision ∧
        own.root = root := by
  rcases pin with _ | ⟨own, _ | revision, source⟩
  · simp [settle]
  · simp [settle]
  · simp [settle, StringSet.mem_insert, or_comm, eq_comm]

/-- **Providing a package puts on the books what its calls settle.** -/
theorem Course.mem_iff {provided : Except LoadError StringSet} {entries : List Minute}
    (course : plan.Course package pinned s provided entries) :
    root ∈ provided.toOption.getD pinned ↔
      root ∈ pinned ∨ ∃ minute ∈ entries, plan.Settles root (package, minute) := by
  have failed {event : Event} : ¬plan.Settles root (package, ⟨event, false⟩) :=
    fun h => nomatch h.went
  have asking {pin : Option Pin} {went : Bool} :
      ¬plan.Settles root (package, ⟨.resolve package pin, went⟩) := fun h => nomatch h.places
  cases course with
  | blocked | stays => simp [Except.toOption]
  | unknown => simp [Except.toOption, failed]
  | @fetch checkout result missing =>
    rcases result with cause | ⟨⟩
    · simp [Except.map, Except.toOption, Except.toBool, asking, failed]
    · simp only [Except.map, Except.toOption, Except.toBool, Option.getD_some, mem_settle,
        List.mem_cons, List.not_mem_nil, or_false, exists_eq_or_imp, exists_eq_left, asking,
        false_or]
      refine or_congr_right ⟨?_, fun h => ?_⟩
      · rintro ⟨own, revision, governed, declared, same⟩
        exact ⟨by rw [governed, Option.bind_some, declared]; rfl, rfl, own, governed, same⟩
      · obtain ⟨own, governed, same⟩ := h.governed
        have places := h.places
        rw [governed, Option.bind_some] at places
        rcases declared : own.revision with _ | revision
        · rw [declared] at places
          cases places
        · exact ⟨own, revision, governed, declared, same⟩
  | @move checkout revision pin result due =>
    rcases result with cause | ⟨⟩
    · simp [Except.map, Except.toOption, Except.toBool, asking, failed]
    · simp only [Except.map, Except.toOption, Except.toBool, Option.getD_some, StringSet.mem_insert,
        List.mem_cons, List.not_mem_nil, or_false, exists_eq_or_imp, exists_eq_left, asking,
        false_or]
      rw [or_comm]
      refine or_congr_right ⟨?_, fun h => ?_⟩
      · rintro rfl
        exact ⟨rfl, rfl, pin, due.governed, rfl⟩
      · obtain ⟨own, governed, same⟩ := h.governed
        obtain rfl := Option.some.inj (governed.symm.trans due.governed)
        exact same.symm

/-- **A call on the loader keeps the books**: what it settles is put on them, and nothing else. -/
theorem mem_pinned_load :
    root ∈ (plan.load package loader s).2.1.pinned ↔
      root ∈ loader.pinned ∨
        ∃ minute ∈ plan.minutesOf package loader s, plan.Settles root (package, minute) := by
  obtain ⟨provided, entries, went, course, minutes, books⟩ := plan.course_load package loader s
  have reading : ¬∃ minute ∈ plan.readingOf package provided went,
      plan.Settles root (package, minute) := by
    rintro ⟨minute, hm, h⟩
    have places := h.places
    rw [of_mem_readingOf hm] at places
    cases places
  rw [books, minutes, course.mem_iff]
  simp only [List.mem_append, or_and_right, exists_or, reading, or_false]

/-! ## Many calls -/

/-- **The minutes of many calls on a loader**, each with the package that the loader was asked for.
Each call meets the surroundings as they are by then, and may fail. -/
def minutesEach (plan : LoadPlan σ) (loader : Loader) :
    List (String × σ) → List (String × Minute)
  | [] => []
  | (package, s) :: calls =>
    (plan.minutesOf package loader s).map (package, ·) ++
      plan.minutesEach (plan.load package loader s).2.1 calls

/-- **The books are exact**, whatever came of the calls. -/
theorem mem_pinned_loadEach (calls : List (String × σ)) :
    root ∈ (plan.loadEach loader calls).pinned ↔
      root ∈ loader.pinned ∨ ∃ entry ∈ plan.minutesEach loader calls, plan.Settles root entry := by
  induction calls generalizing loader with
  | nil => simp [loadEach, minutesEach]
  | cons call calls ih =>
    obtain ⟨package, s⟩ := call
    have next : plan.loadEach loader ((package, s) :: calls) =
        plan.loadEach (plan.load package loader s).2.1 calls := rfl
    rw [next, ih, mem_pinned_load, minutesEach, or_assoc]
    simp [or_and_right, exists_or]

theorem mem_pinned_of_load (settled : root ∈ loader.pinned) :
    root ∈ (plan.load package loader s).2.1.pinned := mem_pinned_load.2 (.inl settled)

/-- What a call moves is under a root that was not on the books. -/
theorem not_mem_of_moves {minute : Minute} (hm : minute ∈ plan.minutesOf package loader s)
    (moves : plan.Moves root (package, minute)) : root ∉ loader.pinned := by
  obtain ⟨pin, governed, rfl⟩ := moves.governed
  have grounds := grounds_minutesOf minute hm
  have moves := moves.moves
  cases event : minute.event <;> rw [event] at moves grounds <;> cases moves
  obtain ⟨own, due⟩ := grounds
  obtain rfl := Option.some.inj (governed.symm.trans due.governed)
  exact due.unsettled

/-- **Nothing is moved under a root on the books.** -/
theorem not_moves_of_mem (settled : root ∈ loader.pinned) (calls : List (String × σ)) :
    ∀ entry ∈ plan.minutesEach loader calls, ¬plan.Moves root entry := by
  induction calls generalizing loader with
  | nil => simp [minutesEach]
  | cons call calls ih =>
    obtain ⟨package, s⟩ := call
    refine List.forall_mem_append.2 ⟨?_, ih (mem_pinned_of_load settled)⟩
    intro entry he moves
    obtain ⟨minute, hm, rfl⟩ := List.mem_map.1 he
    exact not_mem_of_moves hm moves settled

/-- **Nothing is moved under a root that was settled before.** -/
theorem pairwise_minutesEach (calls : List (String × σ)) :
    (plan.minutesEach loader calls).Pairwise fun earlier later =>
      ∀ root, plan.Settles root earlier → ¬plan.Moves root later := by
  induction calls generalizing loader with
  | nil => exact .nil
  | cons call calls ih =>
    obtain ⟨package, s⟩ := call
    refine List.pairwise_append.2 ⟨?_, ih, ?_⟩
    · refine List.pairwise_map.2 (pairwise_minutesOf.imp ?_)
      rintro earlier later (idle | idle) root settles moves
      · cases idle.symm.trans settles.places
      · cases idle.symm.trans moves.moves
    · intro entry he later hl root settles
      obtain ⟨minute, hm, rfl⟩ := List.mem_map.1 he
      exact not_moves_of_mem (mem_pinned_load.2 (.inr ⟨minute, hm, settles⟩)) calls later hl

/-- What is on the minutes of many calls is on those of one. -/
theorem grounds_minutesEach (calls : List (String × σ)) :
    ∀ entry ∈ plan.minutesEach loader calls, ∃ pinned s,
      plan.Grounds entry.1 pinned s entry.2.event := by
  induction calls generalizing loader with
  | nil => simp [minutesEach]
  | cons call calls ih =>
    obtain ⟨package, s⟩ := call
    refine List.forall_mem_append.2 ⟨fun entry he => ?_, ih⟩
    obtain ⟨minute, hm, rfl⟩ := List.mem_map.1 he
    exact ⟨_, s, grounds_minutesOf minute hm⟩

/-- **Calls follow the books.** With minutes, a call on a loader has the same result. The minutes
say:

* the resolver is asked exactly for a package that is missing, or that is on disk and due to have
  its repository moved, and then under the package's first pin;
* a repository is fetched only for a package that is missing, at the revision of that pin or at
  none, and moved only for a package that is due, to the revision that makes it so; no other call is
  made on a checkout;
* the package is read at most once, after these calls, exactly if there were grounds to have it and
  they all went well;
* with updating off, a package that is not missing is read, and nothing else.

Over many calls, each of which meets any surroundings and may fail,

* a root is on the books exactly if a call settled it, by fetching or moving a repository to a
  revision under a pin with that root;
* with updating off, no repository is moved;
* once a root is settled, no repository is moved under it. -/
theorem calls_follow_books (plan : LoadPlan σ) :
    (∀ package loader s,
      let told := plan.minuting.load package loader ⟨s, []⟩
      let minutes := told.2.2.entries
      let dir := plan.workspace.packageSource package
      let there := plan.kindOf package s = .ok .directory
      let missing := plan.kindOf package s = .error .notFound
      plan.load package loader s = (told.1, told.2.1, told.2.2.state) ∧
      ((∃ went, ⟨.resolve package (Pin.firstFor plan.pins package), went⟩ ∈ minutes) ↔
        missing ∨ ∃ pin revision, plan.Due package loader.pinned s pin revision) ∧
      (∀ minute ∈ minutes, plan.Grounds package loader.pinned s minute.event) ∧
      (∃ calls went, (∀ call ∈ calls, ∀ dir, call.event ≠ .read dir) ∧
        let provided := (missing ∨ there) ∧ ∀ call ∈ calls, call.went = true
        (provided ∧ minutes = calls ++ [⟨.read dir, went⟩]) ∨ (¬provided ∧ minutes = calls)) ∧
      (plan.update = false → ¬missing → ∀ minute ∈ minutes, minute.event = .read dir)) ∧
    ∀ calls, let log := plan.minutesEach {} calls
      (∀ root, root ∈ (plan.loadEach {} calls).pinned ↔ ∃ entry ∈ log, plan.Settles root entry) ∧
      (plan.update = false → ∀ entry ∈ log, entry.2.event.movesCheckout = false) ∧
      log.Pairwise fun earlier later =>
        ∀ root, plan.Settles root earlier → ¬plan.Moves root later := by
  refine ⟨fun package loader s => ?_, fun calls => ?_⟩
  · refine ⟨plan.load_minuting package loader ⟨s, []⟩, asked_minutesOf, grounds_minutesOf,
      plan.minutesOf_reading package loader s, fun off there minute hm => ?_⟩
    exact (grounds_of_not_update off (grounds_minutesOf minute hm)).2 there
  · refine ⟨fun root => ?_, fun off entry he => ?_, pairwise_minutesEach calls⟩
    · rw [mem_pinned_loadEach]
      simp
    · obtain ⟨pinned, s, grounds⟩ := grounds_minutesEach calls entry he
      exact (grounds_of_not_update off grounds).1

end LoadPlan

end Depot
