import Depot.Proofs.Walk.Steps
import Mathlib.Data.List.Nodup

/-!
# The order of calls over a walker's life

A walker serves one request after another. Its visited set and its visitor stay, also when a request
was cut short by an error, and the visitor may answer differently every time. What is promised all
the same is said of the log of the whole life: no node is handled twice, a node is read only right
after it was handled with the answer to descend, and a failing call is the last one of its traversal
(`serve_disciplined`).
-/

namespace Depot.Walk

open VisitorCall

variable {ν σ ε : Type} [NodeId ν]

/-- **What a walker is asked for.** -/
inductive Request (ν : Type) where
  /-- Traverse from one node. -/
  | traverse (budget : Nat) (start : ν)
  /-- Traverse from each of several nodes in turn. -/
  | traverseAll (budget : Nat) (roots : List ν)

/-- Serve one request. -/
def Request.run (v : Visitor ν σ ε) (visited : List (NodeId.Key ν)) (s : σ) :
    Request ν → Walked ν σ ε
  | traverse budget start => Walk.traverse v budget start visited s
  | traverseAll budget roots => Walk.traverseAll v budget roots visited s

/-- **The life of one walker**: requests are served one after another, whatever comes of them.
Yields the nodes visited and the visitor's state. -/
def serve (v : Visitor ν σ ε) : List (Request ν) → List (NodeId.Key ν) → σ →
    List (NodeId.Key ν) × σ
  | [], visited, s => (visited, s)
  | request :: requests, visited, s =>
    let walked := request.run v visited s
    serve v requests walked.visited walked.state

section Serve

variable {v : Visitor ν σ ε} {visited : List (NodeId.Key ν)} {s : σ}

/-- **What every walk keeps**, however it ends, a walker keeps for life. -/
theorem serve_of_run {P : List (NodeId.Key ν) → σ → Prop}
    (kept : ∀ budget queue visited s, P visited s →
      P (run v budget queue visited s).visited (run v budget queue visited s).state)
    (requests : List (Request ν)) (h : P visited s) :
    P (serve v requests visited s).1 (serve v requests visited s).2 := by
  induction requests generalizing visited s with
  | nil => exact h
  | cons request requests ih =>
    refine ih ?_
    cases request with
    | traverse budget start => exact kept budget [start] visited s h
    | traverseAll budget roots => exact traverseAll_of_run budget (kept budget) roots h

/-- **What every call keeps**, whatever its answer, a walker keeps for life. -/
theorem serve_keeps {P : σ → Prop} (handle : ∀ node s, P s → P (v.handle node s).2)
    (read : ∀ node s, P s → P (v.read node s).2) (requests : List (Request ν)) (h : P s) :
    P (serve v requests visited s).2 :=
  serve_of_run (P := fun _ => P) (fun budget _ _ _ => run_keeps budget handle read) requests h

end Serve

/-- A walker lives the same way whatever is kept beside its visitor's state. -/
theorem serve_project {τ : Type} {v : Visitor ν σ ε} {w : Visitor ν τ ε} {part : σ → τ}
    (h : Projects part v w) (requests : List (Request ν)) (visited : List (NodeId.Key ν)) (s : σ) :
    serve w requests visited (part s)
      = ((serve v requests visited s).1, part (serve v requests visited s).2) := by
  induction requests generalizing visited s with
  | nil => rfl
  | cons request requests ih =>
    have same : request.run w visited (part s) = project part (request.run v visited s) := by
      cases request with
      | traverse budget start => exact traverse_project h budget start visited s
      | traverseAll budget roots => exact traverseAll_project h budget roots visited s
    rw [serve, same]
    exact ih _ _

/-- **How the calls of one traversal end**, by its outcome. Only its last call may fail, and then
the outcome is the error of that call. -/
def EndsAs (budget : Nat) (made : List (VisitorCall ν ε)) : Except (WalkError ν ε) Unit → Prop
  | .ok () => ∀ call ∈ made, ¬ Failed call
  | .error (.handle node cause) =>
    ∃ earlier, made = earlier ++ [.handle node (.error cause)] ∧
      ∀ call ∈ earlier, ¬ Failed call
  | .error (.read node cause) =>
    ∃ earlier, made = earlier ++ [.read node (.error cause)] ∧
      ∀ call ∈ earlier, ¬ Failed call
  | .error (.exhausted _) =>
    (handledNodes made).length = budget ∧ ∀ call ∈ made, ¬ Failed call

/-- **Reading follows handling**: the call before a reading handled the same node, and its answer
was to descend. -/
def ReadsFollow (calls : List (VisitorCall ν ε)) : Prop :=
  ∀ before node answer after, calls = before ++ VisitorCall.read node answer :: after →
    ∃ earlier, before = earlier ++ [VisitorCall.handle node (.ok .descend)]

omit [NodeId ν] in
theorem readsFollow_concat_handle {calls : List (VisitorCall ν ε)} (h : ReadsFollow calls)
    (node : ν) (answer : Except ε Visit) : ReadsFollow (calls ++ [.handle node answer]) := by
  intro before n a after e
  rcases after.eq_nil_or_concat' with rfl | ⟨after, last, rfl⟩
  · exact absurd (List.append_inj_right' e rfl) (by simp)
  · rw [← List.cons_append, ← List.append_assoc] at e
    exact h before n a after (List.append_inj_left' e rfl)

omit [NodeId ν] in
theorem readsFollow_concat_read {calls : List (VisitorCall ν ε)} {node : ν}
    (h : ReadsFollow (calls ++ [.handle node (.ok .descend)])) (answer : Except ε (List ν)) :
    ReadsFollow (calls ++ [.handle node (.ok .descend)] ++ [.read node answer]) := by
  intro before n a after e
  -- the reading in question is the new one, or it was in the log before
  rcases after.eq_nil_or_concat' with rfl | ⟨after, last, rfl⟩
  · obtain ⟨rfl, rfl⟩ : node = n ∧ answer = a := by
      simpa using List.append_inj_right' e rfl
    exact ⟨calls, (List.append_inj_left' e rfl).symm⟩
  · rw [← List.cons_append, ← List.append_assoc] at e
    exact h before n a after (List.append_inj_left' e rfl)

/-- **What a walk keeps over its whole life**, of the visited nodes and the log. -/
structure Disciplined (visited : List (NodeId.Key ν)) (calls : List (VisitorCall ν ε)) :
    Prop where
  /-- What was handled is visited. -/
  visited : ∀ k ∈ handledKeys calls, k ∈ visited
  /-- No node is handled twice. -/
  once : (handledKeys calls).Nodup
  /-- A node is read right after it was entered. -/
  follow : ReadsFollow calls

namespace Disciplined

variable {visited : List (NodeId.Key ν)} {calls : List (VisitorCall ν ε)} {node : ν}

theorem nil : Disciplined ([] : List (NodeId.Key ν)) ([] : List (VisitorCall ν ε)) where
  visited := fun _ h => by cases h
  once := List.nodup_nil
  follow := fun before _ _ _ e => by simp at e

theorem handle (h : Disciplined visited calls) (new : NodeId.key node ∉ visited)
    (answer : Except ε Visit) :
    Disciplined (NodeId.key node :: visited) (calls ++ [.handle node answer]) where
  visited := by
    intro k hk
    rw [handledKeys_append, List.mem_append] at hk
    rcases hk with hk | hk
    · exact List.mem_cons_of_mem _ (h.visited k hk)
    · obtain rfl : k = NodeId.key node := by simpa using hk
      exact List.mem_cons_self
  once := by
    rw [handledKeys_append, List.nodup_append]
    refine ⟨h.once, by simp, ?_⟩
    rintro a ha b hb rfl
    obtain rfl : a = NodeId.key node := by simpa using hb
    exact new (h.visited _ ha)
  follow := readsFollow_concat_handle h.follow node answer

theorem read (h : Disciplined visited (calls ++ [.handle node (.ok .descend)]))
    (answer : Except ε (List ν)) :
    Disciplined visited (calls ++ [.handle node (.ok .descend)] ++ [.read node answer]) where
  visited := by simpa using h.visited
  once := by simpa using h.once
  follow := readsFollow_concat_read h.follow answer

theorem step {v : Visitor ν σ ε} {c c' : Standing ν σ ε} (step : Step v c c')
    (h : Disciplined c.visited c.calls) : Disciplined c'.visited c'.calls := by
  cases step with
  | pass seen => exact h
  | skip new handled => exact h.handle new _
  | descend new handled read => exact (h.handle new _).read _

/-- The end of a walk keeps the discipline, also where a call fails. -/
theorem stop {v : Visitor ν σ ε} {c : Standing ν σ ε} {walked : Walked ν (Logged ν σ ε) ε}
    (stop : Stop v c walked) (h : Disciplined c.visited c.calls) :
    Disciplined walked.visited walked.state.calls := by
  cases stop with
  | finished => exact h
  | handle new failed => exact h.handle new _
  | read new handled failed => exact (h.handle new _).read _
  | exhausted new => exact h

/-- A node that was skipped is never read: it is not handled again, and only what is handled with
the answer to descend is read. -/
theorem not_read_of_skip (h : Disciplined visited calls)
    (skip : VisitorCall.handle node (.ok .skip) ∈ calls) : NodeId.key node ∉ readKeys calls := by
  intro read
  obtain ⟨other, hr, same⟩ := List.mem_map.1 read
  obtain ⟨answer, hr⟩ := mem_readNodes.1 hr
  obtain ⟨before, after, e⟩ := List.append_of_mem hr
  obtain ⟨earlier, rfl⟩ := h.follow before other answer after e
  have entered : VisitorCall.handle other (.ok .descend) ∈ calls := by simp [e]
  exact absurd (answer_unique h.once skip entered same.symm) (by simp)

end Disciplined

/-! ## One request -/

/-- What a traversal has done between two moments: calls that succeeded, and as many nodes visited
as were handled. -/
def Progress (visited : List (NodeId.Key ν)) (calls : List (VisitorCall ν ε))
    (c : Standing ν σ ε) : Prop :=
  ∃ made, c.calls = calls ++ made ∧ (∀ call ∈ made, ¬ Failed call) ∧
    c.visited.length = visited.length + (handledNodes made).length

theorem Progress.step {v : Visitor ν σ ε} {visited : List (NodeId.Key ν)}
    {calls : List (VisitorCall ν ε)} {c c' : Standing ν σ ε} (step : Step v c c')
    (h : Progress visited calls c) : Progress visited calls c' := by
  obtain ⟨made, e, fine, count⟩ := h
  cases step with
  | pass seen => exact ⟨made, e, fine, count⟩
  | @skip node _ _ _ _ _ new handled =>
    dsimp only at e count
    refine ⟨made ++ [.handle node (.ok .skip)], by rw [e, List.append_assoc],
      List.forall_mem_append.2 ⟨fine, by simp [Failed]⟩, ?_⟩
    simp [count, Nat.add_assoc]
  | @descend node _ children _ _ _ _ _ new handled read =>
    dsimp only at e count
    refine ⟨made ++ [.handle node (.ok .descend)] ++ [.read node (.ok children)],
      by rw [e, ← List.append_assoc, ← List.append_assoc],
      List.forall_mem_append.2 ⟨List.forall_mem_append.2 ⟨fine, by simp [Failed]⟩,
        by simp [Failed]⟩, ?_⟩
    simp [count, Nat.add_assoc]

/-- A walk keeps the discipline, whatever calls have been made before it. -/
theorem run_disciplined (v : Visitor ν σ ε) (budget : Nat) (queue : List ν)
    {visited : List (NodeId.Key ν)} {l : Logged ν σ ε} (h : Disciplined visited l.calls) :
    Disciplined (run v.logged budget queue visited l).visited
      (run v.logged budget queue visited l).state.calls := by
  obtain ⟨c, hc, stop, -⟩ := run_induction (v := v)
    (motive := fun c => Disciplined c.visited c.calls) (fun _ _ => Disciplined.step) budget queue
    visited l.state l.calls h
  exact hc.stop stop

section Traverse

variable (v : Visitor ν σ ε) (budget : Nat) (start : ν) (visited : List (NodeId.Key ν)) (s : σ)
  (calls : List (VisitorCall ν ε))

/-- **The calls of a traversal end as its outcome says.** -/
theorem traverse_endsAs :
    ∃ made, (traverse v.logged budget start visited ⟨s, calls⟩).state.calls = calls ++ made ∧
      EndsAs budget made (traverse v.logged budget start visited ⟨s, calls⟩).outcome := by
  have begun : Progress visited calls (⟨[start], visited, s, calls⟩ : Standing ν σ ε) :=
    ⟨[], by simp, by simp, by simp⟩
  obtain ⟨c, ⟨made, e, fine, length⟩, stop, count⟩ :=
    run_induction (v := v) (fun _ _ => Progress.step) budget [start] visited s calls begun
  unfold traverse
  generalize run v.logged budget [start] visited ⟨s, calls⟩ = walked at stop count ⊢
  cases stop with
  | finished => exact ⟨made, e, fine⟩
  | @handle node _ _ _ _ _ cause new failed =>
    dsimp only at e
    exact ⟨made ++ [.handle node (.error cause)], by rw [e, List.append_assoc], made, rfl, fine⟩
  | @read node _ _ _ _ _ _ cause new handled failed =>
    dsimp only at e
    exact ⟨made ++ [.handle node (.ok .descend)] ++ [.read node (.error cause)],
      by rw [e, ← List.append_assoc, ← List.append_assoc], _, rfl,
      List.forall_mem_append.2 ⟨fine, by simp [Failed]⟩⟩
  | exhausted new =>
    have used := count _ rfl
    exact ⟨made, e, by omega, fine⟩

end Traverse

/-- **Where one of several traversals fails, the ones after it are not begun**: what is left behind
is what the failing one left behind. -/
theorem traverseAll_error (v : Visitor ν σ ε) (budget : Nat) (roots : List ν)
    (visited : List (NodeId.Key ν)) (s : σ) (e : WalkError ν ε)
    (h : (traverseAll v budget roots visited s).outcome = .error e) :
    ∃ done root left, roots = done ++ root :: left ∧
      (traverseAll v budget done visited s).outcome = .ok () ∧
      traverseAll v budget roots visited s
        = traverse v budget root (traverseAll v budget done visited s).visited
            (traverseAll v budget done visited s).state := by
  induction roots generalizing visited s with
  | nil => cases h
  | cons root roots ih =>
    rcases first : traverse v budget root visited s with ⟨cause | _, visited', s'⟩
    · exact ⟨[], root, roots, rfl, rfl, (traverseAll_cons_of_error roots first).trans first.symm⟩
    · rw [traverseAll_cons_of_ok roots first] at h ⊢
      obtain ⟨done, failing, left, rfl, fine, same⟩ := ih visited' s' h
      refine ⟨root :: done, failing, left, rfl, ?_⟩
      rw [traverseAll_cons_of_ok done first]
      exact ⟨fine, same⟩

/-- **Every walk keeps the discipline, so a walker keeps it for life.** -/
theorem disciplined_serve (v : Visitor ν σ ε) (requests : List (Request ν))
    {visited : List (NodeId.Key ν)} {l : Logged ν σ ε} (h : Disciplined visited l.calls) :
    Disciplined (serve v.logged requests visited l).1
      (serve v.logged requests visited l).2.calls :=
  serve_of_run (P := fun visited (l : Logged ν σ ε) => Disciplined visited l.calls)
    (fun budget queue _ _ => run_disciplined v budget queue) requests h

/-- **A walker's calls over its whole life.** Let it have served any requests, some of which may
have failed. Then no node has been handled twice, every reading followed the handling that entered
the node, and no node that was skipped has been read. Whatever it is asked for next, a traversal
that fails makes the failing call last and names its node, and where one of several traversals
fails, no further one is begun. -/
theorem serve_disciplined (v : Visitor ν σ ε) (requests : List (Request ν)) (s : σ) :
    let walker := serve v.logged requests [] ⟨s, []⟩
    (handledKeys walker.2.calls).Nodup ∧
      ReadsFollow walker.2.calls ∧
      (∀ node, VisitorCall.handle node (.ok .skip) ∈ walker.2.calls →
        NodeId.key node ∉ readKeys walker.2.calls) ∧
      (∀ budget start, ∃ made,
        (traverse v.logged budget start walker.1 walker.2).state.calls
            = walker.2.calls ++ made ∧
          EndsAs budget made (traverse v.logged budget start walker.1 walker.2).outcome) ∧
      ∀ budget roots e, (traverseAll v.logged budget roots walker.1 walker.2).outcome = .error e →
        ∃ done root left, roots = done ++ root :: left ∧
          let before := traverseAll v.logged budget done walker.1 walker.2
          before.outcome = .ok () ∧
            traverseAll v.logged budget roots walker.1 walker.2
              = traverse v.logged budget root before.visited before.state := by
  intro walker
  have h : Disciplined walker.1 walker.2.calls := disciplined_serve v requests .nil
  refine ⟨h.once, h.follow, fun node skip => h.not_read_of_skip skip, ?_, ?_⟩
  · intro budget start
    exact traverse_endsAs v budget start walker.1 walker.2.state walker.2.calls
  · intro budget roots e failed
    exact traverseAll_error v.logged budget roots walker.1 walker.2 e failed

end Depot.Walk
