import Depot.Proofs.Walk.Reach
import Depot.Proofs.Walk.Textbook

/-!
# The order of distances

Where the edges that a visitor names do not change, a walk handles nodes in the order of their
distance from the start: first the start, then what is one edge away, and so on. The queue always
holds nodes of at most two levels, those at some distance `n` and behind them others that are one
edge beyond, while everything nearer has been visited (`Level`). A node that is queued again at the
further level does no harm: by the time it leaves the queue it has been visited at the nearer one.

Together with the agreement of a walk with the search of textbooks, this is what is meant by a walk
being breadth first (`traverse_breadth_first`).
-/

namespace Depot.Walk

open VisitorCall

/-! ## Distances and levels -/

section Levels

variable {κ : Type} {next : κ → κ → Prop} {start : κ}

/-- **The distance of a node from `start`**: the number of edges on a shortest path. -/
structure Distance (next : κ → κ → Prop) (start k : κ) (n : Nat) : Prop where
  /-- There is such a path. -/
  path : LeadsIn next start n k
  /-- There is no shorter one. -/
  shortest : ∀ m, LeadsIn next start m k → n ≤ m

/-- **A walk at a level.** What waits in the queue is `near` at level `n`, then `far` one edge
beyond; all that is nearer is visited. The nodes handled so far have the distances listed, which do
not decrease. -/
structure Level (next : κ → κ → Prop) (start : κ) (visited handled near far : List κ) (n : Nat)
    (distances : List Nat) : Prop where
  /-- What is next is `n` edges away. -/
  near_path : ∀ k ∈ near, LeadsIn next start n k
  /-- What comes after is one edge further away. -/
  far_path : ∀ k ∈ far, LeadsIn next start (n + 1) k
  /-- What can be reached by fewer edges has been visited. -/
  nearer : ∀ m < n, ∀ k, LeadsIn next start m k → k ∈ visited
  /-- What can be reached by `n` edges has been visited or is next. -/
  due : ∀ k, LeadsIn next start n k → k ∈ visited ∨ k ∈ near
  /-- Every edge from a node that was visited on the way leads to a node that is visited or
  waits. -/
  closed : ∀ m a b, LeadsIn next start m a → a ∈ visited → next a b →
    b ∈ visited ∨ b ∈ near ∨ b ∈ far
  /-- The distances are those of the nodes handled. -/
  measured : List.Forall₂ (Distance next start) handled distances
  /-- They do not decrease. -/
  ascending : distances.Pairwise (· ≤ ·)
  /-- None is beyond the level. -/
  within : ∀ m ∈ distances, m ≤ n

namespace Level

variable {visited handled near far children : List κ} {k : κ} {n : Nat} {distances : List Nat}

theorem init (fresh : ∀ m k, LeadsIn next start m k → k ∉ visited) :
    Level next start visited [] [start] [] 0 [] where
  near_path := by
    intro k hk
    obtain rfl := List.mem_singleton.1 hk
    exact .refl
  far_path := fun _ h => by cases h
  nearer := fun _ h => by cases h
  due := by
    rintro k ⟨⟩
    exact .inr (List.mem_singleton.2 rfl)
  closed := fun m a _ path seen => absurd seen (fresh m a path)
  measured := .nil
  ascending := .nil
  within := fun _ h => by cases h

/-- Where nothing is left at a level, the next one begins. -/
theorem shift (h : Level next start visited handled [] far n distances) :
    Level next start visited handled far [] (n + 1) distances where
  near_path := h.far_path
  far_path := fun _ h => by cases h
  nearer := by
    intro m hm k path
    rcases Nat.lt_or_eq_of_le (Nat.le_of_lt_succ hm) with less | rfl
    · exact h.nearer m less k path
    · exact (h.due k path).resolve_right List.not_mem_nil
  due := by
    rintro k (_ | ⟨path, edge⟩)
    -- the node before is visited, as nothing is left at its level
    have seen := (h.due _ path).resolve_right List.not_mem_nil
    exact (h.closed _ _ _ path seen edge).imp_right fun waits =>
      waits.resolve_left List.not_mem_nil
  closed := fun m a b path seen edge => (h.closed m a b path seen edge).imp_right fun waits =>
    .inl (waits.resolve_left List.not_mem_nil)
  measured := h.measured
  ascending := h.ascending
  within := fun m hm => Nat.le_succ_of_le (h.within m hm)

/-- Passing by a visited node leaves the nodes that are visited or wait. -/
theorem mem_visited_or_cons {queued : List κ} {next : κ} (old : next ∈ visited) :
    (k ∈ visited ∨ k ∈ next :: queued) ↔ (k ∈ visited ∨ k ∈ queued) := by
  rw [List.mem_cons, or_left_comm, or_iff_right_of_imp]
  rintro rfl
  exact .inl old

/-- Passing by a node that has been visited leaves the level. -/
theorem pass (h : Level next start visited handled (k :: near) far n distances)
    (old : k ∈ visited) : Level next start visited handled near far n distances where
  near_path := fun _ hk => h.near_path _ (List.mem_cons_of_mem _ hk)
  far_path := h.far_path
  nearer := h.nearer
  due := fun other path => (mem_visited_or_cons old).1 (h.due other path)
  closed := by
    intro m a b path seen edge
    have waits := h.closed m a b path seen edge
    rwa [← or_assoc, mem_visited_or_cons old, or_assoc] at waits
  measured := h.measured
  ascending := h.ascending
  within := h.within

/-- **A new node that is next is at the distance of the level**: by a shorter path it would have
been visited. -/
theorem distance (h : Level next start visited handled (k :: near) far n distances)
    (new : k ∉ visited) : Distance next start k n where
  path := h.near_path k List.mem_cons_self
  shortest := fun m path => Nat.le_of_not_lt fun less => new (h.nearer m less k path)

/-- The distances of the nodes handled, with that of a new one, do not decrease. -/
theorem ascending_concat (h : Level next start visited handled (k :: near) far n distances)
    (new : k ∉ visited) :
    List.Forall₂ (Distance next start) (handled ++ [k]) (distances ++ [n]) ∧
      (distances ++ [n]).Pairwise (· ≤ ·) := by
  refine ⟨List.rel_append h.measured (.cons (h.distance new) .nil), ?_⟩
  refine List.pairwise_append.2 ⟨h.ascending, List.pairwise_singleton _ _, fun m hm l hl => ?_⟩
  obtain rfl := List.mem_singleton.1 hl
  exact h.within m hm

/-- **Handling a new node keeps the level**, if the children that are queued are among those it
leads to, and all others have been visited. -/
theorem handle (h : Level next start visited handled (k :: near) far n distances)
    (new : k ∉ visited) (edges : ∀ b ∈ children, next k b)
    (complete : ∀ b, next k b → b ∈ k :: visited ∨ b ∈ children) :
    Level next start (k :: visited) (handled ++ [k]) near (far ++ children) n
      (distances ++ [n]) where
  near_path := fun _ hk => h.near_path _ (List.mem_cons_of_mem _ hk)
  far_path := List.forall_mem_append.2
    ⟨h.far_path, fun b hb => (h.near_path k List.mem_cons_self).tail (edges b hb)⟩
  nearer := fun m less other path => List.mem_cons_of_mem _ (h.nearer m less other path)
  due := by
    intro other path
    rcases h.due other path with seen | waits
    · exact .inl (List.mem_cons_of_mem _ seen)
    · exact (List.mem_cons.1 waits).imp_left fun e => List.mem_cons.2 (.inl e)
  closed := by
    intro m a b path seen edge
    rw [List.mem_append]
    rcases List.mem_cons.1 seen with rfl | seen
    · exact (complete b edge).imp_right fun waits => .inr (.inr waits)
    · have waits := h.closed m a b path seen edge
      rw [List.mem_cons] at waits ⊢
      tauto
  measured := (h.ascending_concat new).1
  ascending := (h.ascending_concat new).2
  within := by
    refine List.forall_mem_append.2 ⟨h.within, fun m hm => ?_⟩
    obtain rfl := List.mem_singleton.1 hm
    exact Nat.le_refl m

end Level

end Levels

/-! ## Walks by levels -/

variable {ν σ ε : Type} [NodeId ν]

/-- **The call agrees with a fixed graph**, unless it fails: only skipped nodes are skipped, and the
children named are those of the graph, in any order and any number of times. -/
def AgreesWith (children : NodeId.Key ν → List (NodeId.Key ν)) (skipped : Set (NodeId.Key ν)) :
    VisitorCall ν ε → Prop
  | .handle node (.ok .skip) => NodeId.key node ∈ skipped
  | .handle node (.ok .descend) => NodeId.key node ∉ skipped
  | .read node (.ok nodes) =>
    ∀ k, k ∈ nodes.map NodeId.key ↔ k ∈ children (NodeId.key node)
  | _ => True

/-- A call that is answered by a fixed graph agrees with it. -/
theorem agreesWith_of_answeredBy {children : NodeId.Key ν → List (NodeId.Key ν)}
    {skipped : Set (NodeId.Key ν)} {call : VisitorCall ν ε}
    (answered : AnsweredBy children skipped call) : AgreesWith children skipped call := by
  cases call with
  | handle node answer =>
    rcases answered with ⟨skip, rfl⟩ | ⟨enter, rfl⟩
    · exact skip
    · exact enter
  | read node answer =>
    obtain ⟨nodes, rfl, same⟩ := answered
    exact fun k => by rw [same]

/-- **The edges that a walk may follow** in a fixed graph, past the nodes visited before. -/
def Follows {κ : Type} (children : κ → List κ) (skipped : Set κ) (old : List κ) (a b : κ) : Prop :=
  Leads children skipped a b ∧ b ∉ old

section Walks

variable {children : NodeId.Key ν → List (NodeId.Key ν)} {skipped : Set (NodeId.Key ν)}
  {old visited : List (NodeId.Key ν)} {start : NodeId.Key ν} {node : ν} {queue : List ν}
  {calls : List (VisitorCall ν ε)}

/-- **A walk stands at some level.** -/
def Levelled (children : NodeId.Key ν → List (NodeId.Key ν)) (skipped : Set (NodeId.Key ν))
    (old : List (NodeId.Key ν)) (start : NodeId.Key ν) (queue : List ν)
    (visited : List (NodeId.Key ν)) (calls : List (VisitorCall ν ε)) : Prop :=
  (∀ k ∈ old, k ∈ visited) ∧ ∃ near far n distances,
    queue.map NodeId.key = near ++ far ∧
      Level (Follows children skipped old) start visited (handledKeys calls) near far n distances

/-- The next node in the queue is at the level, if need be at the next one. -/
theorem Levelled.head
    (h : Levelled children skipped old start (node :: queue) visited calls) :
    ∃ near far n distances, queue.map NodeId.key = near ++ far ∧
      Level (Follows children skipped old) start visited (handledKeys calls)
        (NodeId.key node :: near) far n distances := by
  obtain ⟨-, near, far, n, distances, split, level⟩ := h
  rw [List.map_cons] at split
  cases near with
  | nil =>
    obtain rfl : _ = far := split
    exact ⟨_, [], n + 1, distances, (List.append_nil _).symm, level.shift⟩
  | cons k near =>
    obtain ⟨rfl, rest⟩ := List.cons.inj split
    exact ⟨near, far, n, distances, rest, level⟩

/-- **A step stays at a level or goes on to the next.** -/
theorem Levelled.step {v : Visitor ν σ ε} {c c' : Standing ν σ ε} (step : Step v c c')
    (h : (∀ call ∈ c.calls, AgreesWith children skipped call) →
      Levelled children skipped old start c.queue c.visited c.calls)
    (agree : ∀ call ∈ c'.calls, AgreesWith children skipped call) :
    Levelled children skipped old start c'.queue c'.visited c'.calls := by
  cases step with
  | pass seen =>
    have h := h agree
    obtain ⟨near, far, n, distances, split, level⟩ := h.head
    exact ⟨h.1, near, far, n, distances, split, level.pass seen⟩
  | @skip node queue visited _ _ calls new handled =>
    obtain ⟨before, skip⟩ := List.forall_mem_append.1 agree
    have h := h before
    obtain ⟨near, far, n, distances, split, level⟩ := h.head
    have skip : NodeId.key node ∈ skipped := skip _ List.mem_cons_self
    refine ⟨fun k hk => List.mem_cons_of_mem _ (h.1 k hk), near, far ++ [], n, distances ++ [n],
      by rw [split, List.append_nil], ?_⟩
    rw [handledKeys_append]
    exact level.handle new (fun _ h => by cases h) fun b edge => absurd skip edge.1.1
  | @descend node queue nodes visited _ _ _ calls new handled read =>
    obtain ⟨entered, named⟩ := List.forall_mem_append.1 agree
    obtain ⟨before, enter⟩ := List.forall_mem_append.1 entered
    have h := h before
    obtain ⟨near, far, n, distances, split, level⟩ := h.head
    have enter : NodeId.key node ∉ skipped := enter _ List.mem_cons_self
    have named : ∀ k, k ∈ nodes.map NodeId.key ↔ k ∈ children (NodeId.key node) :=
      named _ List.mem_cons_self
    have queued (b : NodeId.Key ν) :
        b ∈ (pending (NodeId.key node :: visited) nodes).map NodeId.key ↔
          b ∈ children (NodeId.key node) ∧ b ∉ NodeId.key node :: visited := by
      rw [← named]
      simp only [List.mem_map, mem_pending]
      grind
    refine ⟨fun k hk => List.mem_cons_of_mem _ (h.1 k hk), near, _, n, distances ++ [n],
      by rw [List.map_append, split, List.append_assoc], ?_⟩
    rw [handledKeys_append, handledKeys_append, handledKeys_cons_read, handledKeys_nil,
      List.append_nil]
    refine level.handle new (fun b hb => ?_) fun b edge => ?_
    · obtain ⟨child, fresh⟩ := (queued b).1 hb
      exact ⟨⟨enter, child⟩, fun hb => fresh (List.mem_cons_of_mem _ (h.1 b hb))⟩
    · exact or_iff_not_imp_left.2 fun fresh => (queued b).2 ⟨edge.1.2, fresh⟩

/-- **Nodes are handled in the order of their distances**, also by a walk that is cut short. -/
theorem exists_distances (v : Visitor ν σ ε) (budget : Nat) (start : ν)
    (visited : List (NodeId.Key ν)) (s : σ)
    (agree : ∀ call ∈ (traverse v.logged budget start visited ⟨s, []⟩).state.calls,
      AgreesWith children skipped call) :
    ∃ distances,
      List.Forall₂ (Distance (Follows children skipped visited) (NodeId.key start))
        (handledKeys (traverse v.logged budget start visited ⟨s, []⟩).state.calls) distances ∧
      distances.Pairwise (· ≤ ·) := by
  unfold traverse at agree ⊢
  by_cases seen : NodeId.key start ∈ visited
  · rw [run_pass budget seen, run_nil]
    exact ⟨[], .nil, .nil⟩
  · have fresh (m : Nat) (k : NodeId.Key ν)
        (path : LeadsIn (Follows children skipped visited) (NodeId.key start) m k) :
        k ∉ visited := by
      cases path with
      | refl => exact seen
      | tail _ edge => exact edge.2
    obtain ⟨c, hc, stop, -⟩ := run_induction (v := v)
      (motive := fun c => (∀ call ∈ c.calls, AgreesWith children skipped call) →
        Levelled children skipped visited (NodeId.key start) c.queue c.visited c.calls)
      (fun _ _ => Levelled.step) budget [start] visited s []
      fun _ => ⟨fun _ h => h, [NodeId.key start], [], 0, [], rfl, Level.init fresh⟩
    generalize run v.logged budget [start] visited ⟨s, []⟩ = walked at agree stop ⊢
    cases stop with
    | finished | exhausted =>
      obtain ⟨-, _, _, _, distances, -, level⟩ := hc agree
      exact ⟨distances, level.measured, level.ascending⟩
    | handle new failed =>
      obtain ⟨_, _, n, distances, -, level⟩ := (hc (List.forall_mem_append.1 agree).1).head
      exact ⟨distances ++ [n], by simpa using level.ascending_concat new⟩
    | read new handled failed =>
      obtain ⟨before, -⟩ := List.forall_mem_append.1 (List.forall_mem_append.1 agree).1
      obtain ⟨_, _, n, distances, -, level⟩ := (hc before).head
      exact ⟨distances ++ [n], by simpa using level.ascending_concat new⟩

end Walks

/-- **A walk is breadth first.** Whatever the visitor answers, and whatever was visited before, a
traversal makes the calls that the search of textbooks makes, which marks nodes as they are queued
and queues children in order, each once; both have the same outcome and leave the visitor in the
same state, and at the end the nodes visited are those marked.

Where the edges do not change, the nodes are handled in the order of their distance from the start,
along paths that pass through no node that is skipped or was visited before. -/
theorem traverse_breadth_first (v : Visitor ν σ ε) (budget : Nat) (start : ν)
    (visited : List (NodeId.Key ν)) (s : σ) :
    let walked := traverse v.logged budget start visited ⟨s, []⟩
    let found := searchFrom v.logged budget start visited ⟨s, []⟩
    walked.state.calls = found.state.calls ∧ walked.state.state = found.state.state ∧
      walked.outcome = found.outcome ∧
      (walked.outcome = .ok () → ∀ k, k ∈ walked.visited ↔ k ∈ found.visited) ∧
      ∀ children skipped, (∀ call ∈ walked.state.calls, AgreesWith children skipped call) →
        ∃ distances,
          List.Forall₂ (Distance (Follows children skipped visited) (NodeId.key start))
            (handledKeys walked.state.calls) distances ∧
          distances.Pairwise (· ≤ ·) := by
  intro walked found
  have alike : EndsAlike walked found := traverse_endsAlike v.logged budget start visited ⟨s, []⟩
  exact ⟨congrArg Logged.calls alike.state, congrArg Logged.state alike.state, alike.outcome,
    alike.visited, fun children skipped => exists_distances v budget start visited s⟩

/-- The diamond is walked from its start, level by level. -/
theorem breadth_first_diamond :
    let v := ofGraph diamond ["d"]
    let walked := traverse v.logged 4 "a" ["x"] ⟨(), []⟩
    let found := searchFrom v.logged 4 "a" ["x"] ⟨(), []⟩
    (∀ call ∈ walked.state.calls, AgreesWith diamond {k : String | k ∈ ["d"]} call) ∧
      walked.state.calls = found.state.calls ∧ walked.outcome = found.outcome ∧
      ∃ distances,
        List.Forall₂ (Distance (Follows diamond {k : String | k ∈ ["d"]} ["x"]) "a")
          (handledKeys walked.state.calls) distances ∧
        distances.Pairwise (· ≤ ·) := by
  intro v walked found
  have agree : ∀ call ∈ walked.state.calls, AgreesWith diamond {k : String | k ∈ ["d"]} call :=
    fun call hc => agreesWith_of_answeredBy (answeredBy_ofGraph diamond ["d"] 4 "a" ["x"] call hc)
  obtain ⟨calls, -, outcome, -, ordered⟩ := traverse_breadth_first v 4 "a" ["x"] ()
  exact ⟨agree, calls, outcome, ordered diamond {k : String | k ∈ ["d"]} agree⟩

end Depot.Walk
