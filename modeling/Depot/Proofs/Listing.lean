import Depot.Proofs.Get
import Depot.Proofs.Survey.Reach
import Depot.Proofs.Walk.Alike
import Depot.Proofs.Walk.Discipline

/-!
# The order in which children are listed

What a walk does depends on which children a node has, not on how they are listed: visitors that
differ in that walk alike, call by call, also where a call fails. For the loader and the survey even
more is true. They record imports as a set, so two package readers that list the same imports make
them one and the same visitor (`LoadPlan.visitor_eq`, `Survey.visitor_eq`).

One thing does show the order. Where a list names one node in two spellings, the first one in the
list is the one that is handled, and an error names the node as it was handled
(`order_shows_in_spelling`). Import paths have one spelling, and a survey names every path once.
-/

namespace Depot

open Walk

variable {σ : Type}

/-- **Two package readers list the same imports**, each in its own order and any number of times. -/
structure PackageReader.ListsAlike (reader other : PackageReader σ) : Prop where
  /-- The imports are the same. -/
  imports : ∀ dir s i, i ∈ (reader.read dir s).1.imports ↔ i ∈ (other.read dir s).1.imports
  /-- So are the errors. -/
  error : ∀ dir s, (reader.read dir s).1.error = (other.read dir s).1.error
  /-- Reading leaves the same state. -/
  state : ∀ dir s, (reader.read dir s).2 = (other.read dir s).2

variable {reader : PackageReader σ}

/-- **A loader does not see how imports are listed.** -/
theorem LoadPlan.visitor_eq {plan : LoadPlan σ} (h : plan.reader.ListsAlike reader) :
    ({ plan with reader } : LoadPlan σ).visitor = plan.visitor := by
  have load (package : String) (loader : Loader) (s : σ) :
      ({ plan with reader } : LoadPlan σ).load package loader s = plan.load package loader s := by
    have provide : ({ plan with reader } : LoadPlan σ).provide package loader.pinned s
        = plan.provide package loader.pinned s := rfl
    unfold LoadPlan.load
    rw [provide]
    rcases plan.provide package loader.pinned s with ⟨cause | pinned, s⟩
    · rfl
    · have imports := h.imports (plan.workspace.packageSource package) s
      have error := h.error (plan.workspace.packageSource package) s
      have state := h.state (plan.workspace.packageSource package) s
      simp only [PackageImports.toExcept, ← error, ← state]
      cases (plan.reader.read (plan.workspace.packageSource package) s).1.error with
      | some cause => rfl
      | none => simp only [Graph.record_congr loader.graph imports]
  unfold LoadPlan.visitor
  simp only [load]

/-- What a package adds to the graph of a survey does not show how its imports are listed. -/
theorem Survey.note_congr {found other : PackageImports}
    (imports : ∀ i, i ∈ found.imports ↔ i ∈ other.imports) (error : found.error = other.error)
    (graph : Graph) (name : String) :
    Survey.note graph name found = Survey.note graph name other := by
  have empty : found.imports.isEmpty = other.imports.isEmpty := by
    rw [Bool.eq_iff_iff, List.isEmpty_iff, List.isEmpty_iff, List.eq_nil_iff_forall_not_mem,
      List.eq_nil_iff_forall_not_mem]
    exact forall_congr' fun i => not_congr (imports i)
  unfold Survey.note
  rw [error, empty, Graph.record_congr graph imports]

/-- **Nor does a survey.** -/
theorem Survey.visitor_eq {survey : Survey σ} (h : survey.reader.ListsAlike reader) :
    ({ survey with reader } : Survey σ).visitor = survey.visitor := by
  have examine (path : Path) (graph : Graph) (s : σ) :
      ({ survey with reader } : Survey σ).examine path graph s = survey.examine path graph s := by
    unfold Survey.examine
    simp only [← h.state]
    simp only [Survey.note_congr (fun i => h.imports path s i) (h.error path s)]
  have next : ({ survey with reader } : Survey σ).next = survey.next := rfl
  unfold Survey.visitor
  simp only [examine, next]

/-- **How children are listed does not matter.** Let two visitors behave alike, except that the
children named by one are those named by the other in any order and any number of times, in
spellings that are taken for one another. From one start, and past the same nodes visited before,
they then make the same calls with the same answers, have the same outcome, leave the same nodes
visited and states that correspond: up to what is taken for one another, and identically where that
is nothing but identity.

So it does not matter how a package reader lists imports: whatever a loader or a survey is asked
for, after whatever has been done before, both readers have it do the same and build the same graph.
-/
theorem traverse_any_order {ν σ τ ε ρ : Type} [NodeId ν] {equal : ν → ν → Prop}
    {same : σ → τ → Prop} {v : Visitor ν σ ε} {w : Visitor ν τ ε} (alike : Alike equal same v w)
    (budget : Nat) {start other : ν} (begun : equal start other) (visited : List (NodeId.Key ν))
    {s : σ} {t : τ} (st : same s t) :
    (let walked := Walk.traverse v.logged budget start visited ⟨s, []⟩
      let again := Walk.traverse w.logged budget other visited ⟨t, []⟩
      List.Forall₂ (SameCall equal) walked.state.calls again.state.calls ∧
        SameOutcome equal walked.outcome again.outcome ∧
        ((∀ m n, equal m n → m = n) → walked.outcome = again.outcome) ∧
        walked.visited = again.visited ∧ same walked.state.state again.state.state) ∧
    (∀ (plan : LoadPlan ρ) reader, plan.reader.ListsAlike reader →
      ∀ (request : Request String) visited l,
        request.run ({ plan with reader } : LoadPlan ρ).visitor.logged visited l
          = request.run plan.visitor.logged visited l) ∧
    ∀ (survey : Survey ρ) reader, survey.reader.ListsAlike reader →
      ∀ (request : Request Path) visited l,
        request.run ({ survey with reader } : Survey ρ).visitor.logged visited l
          = request.run survey.visitor.logged visited l := by
  refine ⟨?_, fun plan reader h request visited l => ?_,
    fun survey reader h request visited l => ?_⟩
  · have walks := traverse_alike alike budget visited begun st
    exact ⟨walks.state.calls, walks.outcome, walks.outcome.eq, walks.visited, walks.state.state⟩
  · rw [LoadPlan.visitor_eq h]
  · rw [Survey.visitor_eq h]

/-- A package reader that lists imports backwards, and then once more. -/
def PackageReader.stuttering (reader : PackageReader σ) : PackageReader σ where
  read dir s :=
    let (found, s) := reader.read dir s
    ({ found with imports := found.imports.reverse ++ found.imports }, s)

theorem PackageReader.listsAlike_stuttering (reader : PackageReader σ) :
    reader.ListsAlike reader.stuttering where
  imports dir s i := by simp [stuttering]
  error _ _ := rfl
  state _ _ := rfl

/-- The diamond with its children in another order, and some named twice. -/
def jumbled : String → List String
  | "a" => ["c", "b", "c"]
  | "b" => ["d", "b", "b"]
  | "c" => ["a", "x", "d"]
  | "d" => ["e", "e"]
  | _ => []

/-- The diamond is walked alike however its children are listed. So are the projects of a loader and
of a survey, by a reader that lists imports backwards and twice. -/
theorem traverse_any_order_jumbled :
    let v := ofGraph diamond ["d"]
    let w := ofGraph jumbled ["d"]
    let walked := Walk.traverse v.logged 4 "a" ["x"] ⟨(), []⟩
    let again := Walk.traverse w.logged 4 "a" ["x"] ⟨(), []⟩
    let plan := Project.sample.loadPlan Project.sampleMeans
    let again_plan : LoadPlan Unit := { plan with reader := plan.reader.stuttering }
    let again_survey : Survey Unit :=
      { Survey.sample with reader := Survey.sample.reader.stuttering }
    Alike Eq Eq v w ∧ walked.outcome = again.outcome ∧ walked.visited = again.visited ∧
      Walk.traverse again_plan.visitor.logged 3 "a" [] ⟨({}, ()), []⟩
        = Walk.traverse plan.visitor.logged 3 "a" [] ⟨({}, ()), []⟩ ∧
      Walk.traverse again_survey.visitor.logged 4 ⟨"/w/src/p"⟩ [] ⟨(Graph.empty, ()), []⟩
        = Walk.traverse Survey.sample.visitor.logged 4 ⟨"/w/src/p"⟩ [] ⟨(Graph.empty, ()), []⟩ := by
  intro v w walked again plan again_plan again_survey
  have members (a n : String) : n ∈ diamond a ↔ n ∈ jumbled a := by
    unfold diamond jumbled
    split <;> simp only [List.mem_cons, List.not_mem_nil, or_false] <;> grind
  have alike : Alike Eq Eq v w :=
    { key := fun e => congrArg NodeId.key e
      handle := by rintro m _ s _ rfl rfl; rfl
      handle_state := by rintro m _ s _ rfl rfl; rfl
      read := by
        rintro m _ s _ rfl rfl
        exact .ok (nameAlike_eq (members m) fun a _ b _ e => e)
      read_state := by rintro m _ s _ rfl rfl; rfl }
  obtain ⟨⟨-, -, outcome, visited, -⟩, load, survey⟩ :=
    traverse_any_order alike 4 rfl ["x"] (s := ()) (t := ()) rfl
  exact ⟨alike, outcome fun _ _ => id, visited,
    load plan _ plan.reader.listsAlike_stuttering (.traverse 3 "a") [] _,
    survey Survey.sample _ Survey.sample.reader.listsAlike_stuttering (.traverse 4 ⟨"/w/src/p"⟩) []
      _⟩

/-! ## Where the order shows -/

section Refusing

/-- A visitor of paths, of which `a` has children and some are refused. -/
def refusing (children : List Path) (refused : Path → Bool) : Visitor Path Unit Fault where
  handle path s := (if refused path then .error (.ofMessage "boom") else .ok .descend, s)
  read path s := (.ok (if path.components = (Path.mk "a").components then children else []), s)

variable {children : List Path} {refused : Path → Bool} {path first second : Path}

theorem handle_refusing_of_false (enters : refused path = false) :
    (refusing children refused).handle path () = (.ok .descend, ()) := by
  simp [refusing, enters]

theorem handle_refusing_of_true (stops : refused path = true) :
    (refusing children refused).handle path () = (.error (.ofMessage "boom"), ()) := by
  simp [refusing, stops]

/-- Two spellings of one node are in order, whichever comes first. -/
theorem pending_pair (same : NodeId.key first = NodeId.key second)
    (new : NodeId.key first ∉ [NodeId.key (Path.mk "a")]) :
    pending [NodeId.key (Path.mk "a")] [first, second] = [first, second] := by
  have tie : (compare (NodeId.key first) (NodeId.key second)).isLE = true := by simp [same]
  rw [pending_of_sorted (by simpa using tie)]
  refine List.filter_eq_self.2 fun path hp => ?_
  rcases List.mem_pair.1 hp with rfl | rfl
  · simpa [isVisited] using new
  · simpa [isVisited, ← same] using new

/-- If the spelling that comes first is refused, the walk fails there. -/
theorem traverse_refusing (same : NodeId.key first = NodeId.key second)
    (new : NodeId.key first ∉ [NodeId.key (Path.mk "a")]) (entered : refused ⟨"a"⟩ = false)
    (stops : refused first = true) :
    (Walk.traverse (refusing [first, second] refused) 2 ⟨"a"⟩ [] ()).outcome
      = .error (.handle first (.ofMessage "boom")) := by
  have read : (refusing [first, second] refused).read ⟨"a"⟩ () = (.ok [first, second], ()) := by
    simp [refusing]
  rw [Walk.traverse, run_descend 1 List.not_mem_nil (handle_refusing_of_false entered) read,
    pending_pair same new, List.nil_append, run_handle_error 0 new (handle_refusing_of_true stops)]

theorem traverse_refusing_ok (same : NodeId.key first = NodeId.key second)
    (new : NodeId.key first ∉ [NodeId.key (Path.mk "a")]) (entered : refused ⟨"a"⟩ = false)
    (enters : refused first = false) :
    (Walk.traverse (refusing [first, second] refused) 2 ⟨"a"⟩ [] ()).outcome = .ok () := by
  have read : (refusing [first, second] refused).read ⟨"a"⟩ () = (.ok [first, second], ()) := by
    simp [refusing]
  have leaf : (refusing [first, second] refused).read first () = (.ok [], ()) := by
    have other : ¬ first.components = (Path.mk "a").components := fun e =>
      new (List.mem_singleton.2 e)
    simp [refusing, other]
  have none (visited : List (List Component)) : pending visited ([] : List Path) = [] := by
    simp [pending, inOrder]
  have old : NodeId.key second ∈ [NodeId.key first, NodeId.key (Path.mk "a")] :=
    List.mem_cons.2 (.inl same.symm)
  rw [Walk.traverse, run_descend 1 List.not_mem_nil (handle_refusing_of_false entered) read,
    pending_pair same new, List.nil_append,
    run_descend 0 new (handle_refusing_of_false enters) leaf, none, List.append_nil,
    run_pass 0 old, run_nil]

end Refusing

/-- **The first spelling of a node in a list is the one that is handled.** Two visitors handle paths
in one way, and name the children of `a`, two spellings of one node, in another order. Where they go
by the identity of nodes, the error of each walk names the node in the spelling that came first;
where they tell spellings apart, one walk fails and the other does not. -/
theorem order_shows_in_spelling :
    let there : List Path := [⟨"x//y"⟩, ⟨"x/y"⟩]
    let back : List Path := [⟨"x/y"⟩, ⟨"x//y"⟩]
    let either (path : Path) : Bool := path.components = (Path.mk "x/y").components
    let one (path : Path) : Bool := path.text = "x//y"
    let outcome children refused :=
      (Walk.traverse (refusing children refused) 2 ⟨"a"⟩ [] ()).outcome
    there.Perm back ∧ (∀ refused, (refusing there refused).handle = (refusing back refused).handle) ∧
      Alike SameNode Eq (refusing there either) (refusing back either) ∧
      outcome there either = .error (.handle ⟨"x//y"⟩ (.ofMessage "boom")) ∧
      outcome back either = .error (.handle ⟨"x/y"⟩ (.ofMessage "boom")) ∧
      outcome there one = .error (.handle ⟨"x//y"⟩ (.ofMessage "boom")) ∧
      outcome back one = .ok () := by
  intro there back either one outcome
  have swapped : there.Perm back := .swap _ _ _
  have same : NodeId.key (Path.mk "x//y") = NodeId.key (Path.mk "x/y") := by decide +kernel
  have new : NodeId.key (Path.mk "x//y") ∉ [NodeId.key (Path.mk "a")] := by decide +kernel
  have alike : Alike SameNode Eq (refusing there either) (refusing back either) :=
    { key := id
      handle := by
        rintro m n s _ (e : m.components = n.components) rfl
        simp [refusing, either, e]
      handle_state := fun _ st => st
      read := by
        rintro m n s _ (e : m.components = n.components) rfl
        refine .ok (nameAlike_sameNode fun k => ?_)
        rw [e]
        split
        · exact (swapped.map _).mem_iff
        · rfl
      read_state := fun _ st => st }
  exact ⟨swapped, fun _ => rfl, alike,
    traverse_refusing same new (by decide +kernel) (by decide +kernel),
    traverse_refusing same.symm (same ▸ new) (by decide +kernel) (by decide +kernel),
    traverse_refusing same new (by decide +kernel) (by decide +kernel),
    traverse_refusing_ok same.symm (same ▸ new) (by decide +kernel) (by decide +kernel)⟩

end Depot
