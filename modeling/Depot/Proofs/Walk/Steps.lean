import Depot.Proofs.Walk.Calls
import Mathlib.Logic.Relation

/-!
# A walk, step by step

`Walk.run` works off its queue under a budget. Here the same walk, with the calls it makes, is a
relation between what is queued, what is visited, what the visitor remembers and what it was asked:
a step takes one node off the queue, and a walk stops when the queue is empty, when a call of the
visitor fails, or when the budget does not allow the next node to be handled.

`run_steps` says that running is stepping and then stopping. What every step keeps therefore holds
where a walk stops (`run_induction`), and nothing after this module unfolds `run` again.
-/

namespace Depot.Walk

variable {ν σ ε : Type} [NodeId ν]

/-- **Where a walk stands**: the nodes to come, those visited, the visitor's state, and the calls
made so far. -/
structure Standing (ν σ ε : Type) [NodeId ν] where
  /-- The nodes to come. -/
  queue : List ν
  /-- The identities of the nodes visited, latest first. -/
  visited : List (NodeId.Key ν)
  /-- The visitor's state. -/
  state : σ
  /-- The calls, earliest first. -/
  calls : List (VisitorCall ν ε)

/-- **One node is taken off the queue.** -/
inductive Step (v : Visitor ν σ ε) : Standing ν σ ε → Standing ν σ ε → Prop
  /-- It has been visited before. -/
  | pass {node : ν} {queue : List ν} {visited : List (NodeId.Key ν)} {s : σ}
      {calls : List (VisitorCall ν ε)} (old : NodeId.key node ∈ visited) :
      Step v ⟨node :: queue, visited, s, calls⟩ ⟨queue, visited, s, calls⟩
  /-- It is handled, and its children are left alone. -/
  | skip {node : ν} {queue : List ν} {visited : List (NodeId.Key ν)} {s s' : σ}
      {calls : List (VisitorCall ν ε)} (new : NodeId.key node ∉ visited)
      (handled : v.handle node s = (.ok .skip, s')) :
      Step v ⟨node :: queue, visited, s, calls⟩
        ⟨queue, NodeId.key node :: visited, s', calls ++ [.handle node (.ok .skip)]⟩
  /-- It is handled, and its children are read and queued. -/
  | descend {node : ν} {queue children : List ν} {visited : List (NodeId.Key ν)} {s s₁ s₂ : σ}
      {calls : List (VisitorCall ν ε)} (new : NodeId.key node ∉ visited)
      (handled : v.handle node s = (.ok .descend, s₁))
      (read : v.read node s₁ = (.ok children, s₂)) :
      Step v ⟨node :: queue, visited, s, calls⟩
        ⟨queue ++ pending (NodeId.key node :: visited) children, NodeId.key node :: visited, s₂,
          calls ++ [.handle node (.ok .descend)] ++ [.read node (.ok children)]⟩

/-- **A walk comes to its end**, with what it leaves behind. -/
inductive Stop (v : Visitor ν σ ε) : Standing ν σ ε → Walked ν (Logged ν σ ε) ε → Prop
  /-- Nothing is queued. -/
  | finished {visited : List (NodeId.Key ν)} {s : σ} {calls : List (VisitorCall ν ε)} :
      Stop v ⟨[], visited, s, calls⟩ ⟨.ok (), visited, ⟨s, calls⟩⟩
  /-- The next node cannot be handled. -/
  | handle {node : ν} {queue : List ν} {visited : List (NodeId.Key ν)} {s s' : σ}
      {calls : List (VisitorCall ν ε)} {cause : ε} (new : NodeId.key node ∉ visited)
      (failed : v.handle node s = (.error cause, s')) :
      Stop v ⟨node :: queue, visited, s, calls⟩
        ⟨.error (.handle node cause), NodeId.key node :: visited,
          ⟨s', calls ++ [.handle node (.error cause)]⟩⟩
  /-- The children of the next node cannot be read. -/
  | read {node : ν} {queue : List ν} {visited : List (NodeId.Key ν)} {s s₁ s₂ : σ}
      {calls : List (VisitorCall ν ε)} {cause : ε} (new : NodeId.key node ∉ visited)
      (handled : v.handle node s = (.ok .descend, s₁))
      (failed : v.read node s₁ = (.error cause, s₂)) :
      Stop v ⟨node :: queue, visited, s, calls⟩
        ⟨.error (.read node cause), NodeId.key node :: visited,
          ⟨s₂, calls ++ [.handle node (.ok .descend)] ++ [.read node (.error cause)]⟩⟩
  /-- The budget does not allow the next node to be handled. -/
  | exhausted {node : ν} {queue : List ν} {visited : List (NodeId.Key ν)} {s : σ}
      {calls : List (VisitorCall ν ε)} (new : NodeId.key node ∉ visited) :
      Stop v ⟨node :: queue, visited, s, calls⟩ ⟨.error (.exhausted node), visited, ⟨s, calls⟩⟩

@[simp] theorem isVisited_iff {visited : List (NodeId.Key ν)} {node : ν} :
    isVisited visited node = true ↔ NodeId.key node ∈ visited := by
  simp [isVisited]

/-- The children to queue are the ones not yet visited. -/
@[simp] theorem mem_pending {visited : List (NodeId.Key ν)} {children : List ν} {child : ν} :
    child ∈ pending visited children ↔ child ∈ children ∧ NodeId.key child ∉ visited := by
  simp [pending, inOrder, isVisited]

/-- Children that are in order already are queued as they are. -/
theorem pending_of_sorted {visited : List (NodeId.Key ν)} {children : List ν}
    (h : children.Pairwise fun a b => (compare (NodeId.key a) (NodeId.key b)).isLE = true) :
    pending visited children = children.filter (!isVisited visited ·) := by
  rw [pending, inOrder, List.mergeSort_of_pairwise h]

theorem pending_of_new {visited : List (NodeId.Key ν)} {children : List ν}
    (h : children.Pairwise fun a b => (compare (NodeId.key a) (NodeId.key b)).isLE = true)
    (new : ∀ child ∈ children, NodeId.key child ∉ visited) :
    pending visited children = children := by
  rw [pending_of_sorted h, List.filter_eq_self]
  intro child hc
  simpa [isVisited] using new child hc

theorem pending_of_old {visited : List (NodeId.Key ν)} {children : List ν}
    (old : ∀ child ∈ children, NodeId.key child ∈ visited) : pending visited children = [] :=
  List.eq_nil_iff_forall_not_mem.2 fun child hc =>
    (mem_pending.1 hc).2 (old child (mem_pending.1 hc).1)

/-- Nodes that were visited before are passed by, up to the next new one. -/
theorem steps_dropWhile (v : Visitor ν σ ε) (queue : List ν) (visited : List (NodeId.Key ν))
    (s : σ) (calls : List (VisitorCall ν ε)) :
    Relation.ReflTransGen (Step v) ⟨queue, visited, s, calls⟩
      ⟨queue.dropWhile (isVisited visited), visited, s, calls⟩ := by
  induction queue with
  | nil => exact .refl
  | cons node queue ih =>
    by_cases h : NodeId.key node ∈ visited
    · rw [List.dropWhile_cons_of_pos (by simpa using h)]
      exact .head (.pass h) ih
    · rw [List.dropWhile_cons_of_neg (by simpa using h)]

/-- The next new node of a queue has not been visited. -/
theorem new_of_dropWhile {queue rest : List ν} {visited : List (NodeId.Key ν)} {node : ν}
    (h : queue.dropWhile (isVisited visited) = node :: rest) : NodeId.key node ∉ visited := by
  have := List.head?_dropWhile_not (isVisited visited) queue
  simpa [h, isVisited] using this

section Run

variable {v : Visitor ν σ ε} {node : ν} {queue : List ν} {visited : List (NodeId.Key ν)}
  {s s₁ s₂ : σ}
  (budget : Nat)

theorem run_nil : run v budget [] visited s = ⟨.ok (), visited, s⟩ := by
  cases budget <;> rfl

theorem run_pass (old : NodeId.key node ∈ visited) :
    run v budget (node :: queue) visited s = run v budget queue visited s := by
  have pass : (node :: queue).dropWhile (isVisited visited) = queue.dropWhile (isVisited visited) :=
    List.dropWhile_cons_of_pos (isVisited_iff.2 old)
  cases budget <;> (unfold run; rw [pass])

theorem run_dropWhile :
    run v budget (queue.dropWhile (isVisited visited)) visited s
      = run v budget queue visited s := by
  induction queue with
  | nil => rfl
  | cons node queue ih =>
    by_cases old : NodeId.key node ∈ visited
    · rw [List.dropWhile_cons_of_pos (isVisited_iff.2 old), run_pass budget old, ih]
    · rw [List.dropWhile_cons_of_neg (by simpa using old)]

theorem run_skip (new : NodeId.key node ∉ visited)
    (handled : v.handle node s = (.ok .skip, s₁)) :
    run v (budget + 1) (node :: queue) visited s
      = run v budget queue (NodeId.key node :: visited) s₁ := by
  rw [run, List.dropWhile_cons_of_neg (by simpa using new)]
  simp only [handled]

/-- A new node is handled, and its children may be read and queued. -/
theorem run_descend {children : List ν} (new : NodeId.key node ∉ visited)
    (handled : v.handle node s = (.ok .descend, s₁))
    (read : v.read node s₁ = (.ok children, s₂)) :
    run v (budget + 1) (node :: queue) visited s
      = run v budget (queue ++ pending (NodeId.key node :: visited) children)
          (NodeId.key node :: visited) s₂ := by
  rw [run, List.dropWhile_cons_of_neg (by simpa using new)]
  simp only [handled, read]

theorem run_handle_error {cause : ε} (new : NodeId.key node ∉ visited)
    (failed : v.handle node s = (.error cause, s₁)) :
    run v (budget + 1) (node :: queue) visited s
      = ⟨.error (.handle node cause), NodeId.key node :: visited, s₁⟩ := by
  rw [run, List.dropWhile_cons_of_neg (by simpa using new)]
  simp only [failed]

theorem run_read_error {cause : ε} (new : NodeId.key node ∉ visited)
    (handled : v.handle node s = (.ok .descend, s₁))
    (failed : v.read node s₁ = (.error cause, s₂)) :
    run v (budget + 1) (node :: queue) visited s
      = ⟨.error (.read node cause), NodeId.key node :: visited, s₂⟩ := by
  rw [run, List.dropWhile_cons_of_neg (by simpa using new)]
  simp only [handled, failed]

/-- Where the budget is used up, a new node ends the walk. -/
theorem run_exhausted (new : NodeId.key node ∉ visited) :
    run v 0 (node :: queue) visited s = ⟨.error (.exhausted node), visited, s⟩ := by
  rw [run, List.dropWhile_cons_of_neg (by simpa using new)]

/-- **What every call keeps**, whatever its answer, holds where a walk stops. -/
theorem run_keeps {P : σ → Prop} (handle : ∀ node s, P s → P (v.handle node s).2)
    (read : ∀ node s, P s → P (v.read node s).2) (h : P s) :
    P (run v budget queue visited s).state := by
  induction budget generalizing queue visited s with
  | zero =>
    unfold run
    cases queue.dropWhile (isVisited visited) <;> exact h
  | succ budget ih =>
    unfold run
    cases queue.dropWhile (isVisited visited) with
    | nil => exact h
    | cons node rest =>
      have h₁ := handle node s h
      rcases handled : v.handle node s with ⟨cause | visit, s₁⟩ <;> rw [handled] at h₁
      · simp only [handled]
        exact h₁
      · cases visit with
        | skip =>
          simp only [handled]
          exact ih h₁
        | descend =>
          have h₂ := read node s₁ h₁
          rcases named : v.read node s₁ with ⟨cause | children, s₂⟩ <;> rw [named] at h₂
          · simp only [handled, named]
            exact h₂
          · simp only [handled, named]
            exact ih h₂

/-- **What every walk keeps**, however it ends, several traversals in turn keep. -/
theorem traverseAll_of_run {P : List (NodeId.Key ν) → σ → Prop}
    (kept : ∀ queue visited s, P visited s →
      P (run v budget queue visited s).visited (run v budget queue visited s).state)
    (roots : List ν) (h : P visited s) :
    P (traverseAll v budget roots visited s).visited
      (traverseAll v budget roots visited s).state := by
  induction roots generalizing visited s with
  | nil => exact h
  | cons root roots ih =>
    have one : P (traverse v budget root visited s).visited
      (traverse v budget root visited s).state := kept [root] visited s h
    rcases first : traverse v budget root visited s with ⟨cause | _, visited', s'⟩ <;>
      rw [first] at one
    · rwa [traverseAll_cons_of_error roots first]
    · rw [traverseAll_cons_of_ok roots first]
      exact ih one

/-- What every call keeps also holds where several traversals stop. -/
theorem traverseAll_keeps {P : σ → Prop} (handle : ∀ node s, P s → P (v.handle node s).2)
    (read : ∀ node s, P s → P (v.read node s).2) (roots : List ν) (h : P s) :
    P (traverseAll v budget roots visited s).state :=
  traverseAll_of_run (P := fun _ => P) budget (fun _ _ _ => run_keeps budget handle read) roots h

end Run

/-- **Running is stepping, then stopping.** When the budget is used up, as many nodes were handled
as it allows. -/
theorem run_steps (v : Visitor ν σ ε) (budget : Nat) (queue : List ν)
    (visited : List (NodeId.Key ν)) (s : σ) (calls : List (VisitorCall ν ε)) :
    ∃ c, Relation.ReflTransGen (Step v) ⟨queue, visited, s, calls⟩ c ∧
      Stop v c (run v.logged budget queue visited ⟨s, calls⟩) ∧
      ∀ node, (run v.logged budget queue visited ⟨s, calls⟩).outcome = .error (.exhausted node) →
        c.visited.length = visited.length + budget := by
  -- passing by old nodes costs nothing, so the induction is on the nodes still to be handled
  induction budget generalizing queue visited s calls with
  | zero =>
    have pass := steps_dropWhile v queue visited s calls
    unfold run
    cases h : queue.dropWhile (isVisited visited) with
    | nil => exact ⟨_, h ▸ pass, .finished, fun _ h => by cases h⟩
    | cons node rest => exact ⟨_, h ▸ pass, .exhausted (new_of_dropWhile h), fun _ _ => rfl⟩
  | succ budget ih =>
    have pass := steps_dropWhile v queue visited s calls
    unfold run
    cases h : queue.dropWhile (isVisited visited) with
    | nil => exact ⟨_, h ▸ pass, .finished, fun _ h => by cases h⟩
    | cons node rest =>
      rw [h] at pass
      have new := new_of_dropWhile h
      rcases handled : v.handle node s with ⟨answer | visit, s₁⟩
      · simp only [Visitor.logged, handled]
        exact ⟨_, pass, .handle new handled, fun _ h => by cases h⟩
      · cases visit with
        | skip =>
          obtain ⟨c, steps, stop, count⟩ := ih rest (NodeId.key node :: visited) s₁
            (calls ++ [.handle node (.ok .skip)])
          simp only [Visitor.logged, handled] at stop count ⊢
          refine ⟨c, pass.trans (.head (.skip new handled) steps), stop, fun n hn => ?_⟩
          rw [count n hn, List.length_cons]
          omega
        | descend =>
          rcases read : v.read node s₁ with ⟨answer | children, s₂⟩
          · simp only [Visitor.logged, handled, read]
            exact ⟨_, pass, .read new handled read, fun _ h => by cases h⟩
          · obtain ⟨c, steps, stop, count⟩ :=
              ih (rest ++ pending (NodeId.key node :: visited) children)
                (NodeId.key node :: visited) s₂
                (calls ++ [.handle node (.ok .descend)] ++ [.read node (.ok children)])
            simp only [Visitor.logged, handled, read] at stop count ⊢
            refine ⟨c, pass.trans (.head (.descend new handled read) steps), stop, fun n hn => ?_⟩
            rw [count n hn, List.length_cons]
            omega

/-- **What every step keeps holds where the walk stops.** -/
theorem run_induction {v : Visitor ν σ ε} {motive : Standing ν σ ε → Prop}
    (step : ∀ c c', Step v c c' → motive c → motive c') (budget : Nat) (queue : List ν)
    (visited : List (NodeId.Key ν)) (s : σ) (calls : List (VisitorCall ν ε))
    (start : motive ⟨queue, visited, s, calls⟩) :
    ∃ c, motive c ∧ Stop v c (run v.logged budget queue visited ⟨s, calls⟩) ∧
      ∀ node, (run v.logged budget queue visited ⟨s, calls⟩).outcome = .error (.exhausted node) →
        c.visited.length = visited.length + budget := by
  obtain ⟨c, steps, stop, count⟩ := run_steps v budget queue visited s calls
  refine ⟨c, ?_, stop, count⟩
  clear stop count
  induction steps with
  | refl => exact start
  | tail _ last ih => exact step _ _ last ih

/-- **Every call of a walk is one that the visitor answers so in some state**: what holds of all
answers of a visitor holds of the calls of its walks. -/
theorem run_forall_call {v : Visitor ν σ ε} {P : VisitorCall ν ε → Prop}
    (handle : ∀ node s, P (.handle node (v.handle node s).1))
    (read : ∀ node s, P (.read node (v.read node s).1)) (budget : Nat) (queue : List ν)
    (visited : List (NodeId.Key ν)) (s : σ) :
    ∀ call ∈ (run v.logged budget queue visited ⟨s, []⟩).state.calls, P call := by
  obtain ⟨c, hc, stop, -⟩ := run_induction (v := v) (motive := fun c => ∀ call ∈ c.calls, P call)
    (fun c c' step hc => by
      cases step with
      | pass seen => exact hc
      | @skip node _ _ s _ _ new handled =>
        have := handle node s
        rw [handled] at this
        exact List.forall_mem_append.2 ⟨hc, by simpa using this⟩
      | @descend node _ _ _ s s₁ _ _ new handled children =>
        have entered := handle node s
        have named := read node s₁
        rw [handled] at entered
        rw [children] at named
        exact List.forall_mem_append.2
          ⟨List.forall_mem_append.2 ⟨hc, by simpa using entered⟩, by simpa using named⟩)
    budget queue visited s [] (by simp)
  generalize run v.logged budget queue visited ⟨s, []⟩ = walked at stop ⊢
  cases stop with
  | finished => exact hc
  | exhausted new => exact hc
  | @handle node _ _ s _ _ _ new failed =>
    have := handle node s
    rw [failed] at this
    exact List.forall_mem_append.2 ⟨hc, by simpa using this⟩
  | @read node _ _ s s₁ _ _ _ new handled failed =>
    have entered := handle node s
    have named := read node s₁
    rw [handled] at entered
    rw [failed] at named
    exact List.forall_mem_append.2
      ⟨List.forall_mem_append.2 ⟨hc, by simpa using entered⟩, by simpa using named⟩

theorem readNodes_eq_of_step {v : Visitor ν σ ε} {c c' : Standing ν σ ε} (step : Step v c c')
    (h : VisitorCall.readNodes c.calls = VisitorCall.enteredNodes c.calls) :
    VisitorCall.readNodes c'.calls = VisitorCall.enteredNodes c'.calls := by
  cases step <;> simp_all

/-- **Whatever is entered is read**, and nothing else. -/
theorem run_readNodes (v : Visitor ν σ ε) (budget : Nat) (queue : List ν)
    (visited : List (NodeId.Key ν)) (s : σ) (calls : List (VisitorCall ν ε))
    (h : VisitorCall.readNodes calls = VisitorCall.enteredNodes calls) :
    VisitorCall.readNodes (run v.logged budget queue visited ⟨s, calls⟩).state.calls
      = VisitorCall.enteredNodes (run v.logged budget queue visited ⟨s, calls⟩).state.calls := by
  obtain ⟨c, hc, stop, -⟩ := run_induction (v := v)
    (motive := fun c => VisitorCall.readNodes c.calls = VisitorCall.enteredNodes c.calls)
    (fun _ _ => readNodes_eq_of_step) budget queue visited s calls h
  generalize run v.logged budget queue visited ⟨s, calls⟩ = walked at stop ⊢
  cases stop <;> simp_all

/-- **What every step keeps holds where several traversals come to their end.** -/
theorem traverseAll_induction {v : Visitor ν σ ε}
    {motive : List (NodeId.Key ν) → σ → List (VisitorCall ν ε) → Prop}
    (step : ∀ c c', Step v c c' → motive c.visited c.state c.calls →
      motive c'.visited c'.state c'.calls)
    (budget : Nat) (roots : List ν) {visited : List (NodeId.Key ν)} {l : Logged ν σ ε}
    (start : motive visited l.state l.calls)
    (ended : (traverseAll v.logged budget roots visited l).outcome = .ok ()) :
    motive (traverseAll v.logged budget roots visited l).visited
      (traverseAll v.logged budget roots visited l).state.state
      (traverseAll v.logged budget roots visited l).state.calls := by
  induction roots generalizing visited l with
  | nil => exact start
  | cons root roots ih =>
    obtain ⟨c, hc, stop, -⟩ := run_induction (v := v)
      (motive := fun c => motive c.visited c.state c.calls) step budget [root] visited l.state
      l.calls start
    rcases first : traverse v.logged budget root visited l with ⟨cause | _, visited', l'⟩
    · rw [traverseAll_cons_of_error roots first] at ended
      cases ended
    · rw [traverseAll_cons_of_ok roots first] at ended ⊢
      refine ih ?_ ended
      change Stop v c (traverse v.logged budget root visited l) at stop
      rw [first] at stop
      cases stop with
      | finished => exact hc

end Depot.Walk
