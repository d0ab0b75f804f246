import Depot.Proofs.Walk.Steps
import Mathlib.Data.List.Nodup
import Mathlib.Data.Set.Card

/-!
# What a walk reaches

The calls of a walk report edges: whoever reads a node is told its children. A walk that comes to
its end has handled exactly the nodes that lead from its roots along the edges it was told of,
without passing through nodes that were visited before it began. No assumption on the visitor is
needed for that; its answers may change with every call (`Explores.mem_handledKeys_iff`).

Where the answers do not change, the edges reported are those of a fixed graph, and the walk
handles what is reachable in it (`traverse_reaches`).
-/

namespace Depot.Walk

open VisitorCall

variable {ν σ ε : Type} [NodeId ν]

/-- **An edge that was reported**: a node of identity `a` was read, and a child of identity `b` was
named. -/
def Reports (calls : List (VisitorCall ν ε)) (a b : NodeId.Key ν) : Prop :=
  ∃ node children, VisitorCall.read node (.ok children) ∈ calls ∧ NodeId.key node = a ∧
    b ∈ children.map NodeId.key

/-- **A path of new nodes** leads from `start` to `k`: each next node is one of those that `next`
names, and none is among the visited ones. -/
def Reaches {κ : Type} (next : κ → κ → Prop) (visited : List κ) (start k : κ) : Prop :=
  start ∉ visited ∧ Relation.ReflTransGen (fun a b => next a b ∧ b ∉ visited) start k

/-- **A path of `n` edges** leads from `start` to a node. -/
inductive LeadsIn {κ : Type} (next : κ → κ → Prop) (start : κ) : Nat → κ → Prop
  /-- The start is there already. -/
  | refl : LeadsIn next start 0 start
  /-- A path goes one edge further. -/
  | tail {n : Nat} {a b : κ} (path : LeadsIn next start n a) (edge : next a b) :
      LeadsIn next start (n + 1) b

namespace Reaches

variable {κ : Type} {next next' : κ → κ → Prop} {visited : List κ} {start a b k : κ}

theorem refl (h : start ∉ visited) : Reaches next visited start start := ⟨h, .refl⟩

theorem tail (h : Reaches next visited start a) (edge : next a b) (new : b ∉ visited) :
    Reaches next visited start b :=
  ⟨h.1, h.2.tail ⟨edge, new⟩⟩

theorem mono (h : Reaches next visited start k) (sub : ∀ a b, next a b → next' a b) :
    Reaches next' visited start k :=
  ⟨h.1, Relation.ReflTransGen.mono (fun a b hab => ⟨sub a b hab.1, hab.2⟩) _ _ h.2⟩

theorem mem {nodes : Set κ} (h : Reaches next visited start k) (root : start ∈ nodes)
    (stay : ∀ a b, next a b → b ∈ nodes) : k ∈ nodes := by
  rcases Relation.ReflTransGen.cases_tail h.2 with rfl | ⟨_, -, step⟩
  · exact root
  · exact stay _ _ step.1

end Reaches

@[simp] theorem reports_nil (a b : NodeId.Key ν) :
    ¬ Reports ([] : List (VisitorCall ν ε)) a b := by
  simp [Reports]

@[simp] theorem reports_concat_handle {calls : List (VisitorCall ν ε)} {node : ν}
    {answer : Except ε Visit} {a b : NodeId.Key ν} :
    Reports (calls ++ [.handle node answer]) a b ↔ Reports calls a b := by
  simp [Reports]

@[simp] theorem reports_concat_read {calls : List (VisitorCall ν ε)} {node : ν}
    {children : List ν} {a b : NodeId.Key ν} :
    Reports (calls ++ [.read node (.ok children)]) a b ↔
      Reports calls a b ∨ (NodeId.key node = a ∧ b ∈ children.map NodeId.key) := by
  unfold Reports
  constructor
  · rintro ⟨n, cs, h, hn, hb⟩
    rcases List.mem_append.1 h with h | h
    · exact .inl ⟨n, cs, h, hn, hb⟩
    · obtain ⟨rfl, rfl⟩ : n = node ∧ cs = children := by simpa using h
      exact .inr ⟨hn, hb⟩
  · rintro (⟨n, cs, h, hn, hb⟩ | ⟨hn, hb⟩)
    · exact ⟨n, cs, List.mem_append_left _ h, hn, hb⟩
    · exact ⟨node, children, by simp, hn, hb⟩

@[simp] theorem reports_concat_error {calls : List (VisitorCall ν ε)} {node : ν} {cause : ε}
    {a b : NodeId.Key ν} :
    Reports (calls ++ [.read node (.error cause)]) a b ↔ Reports calls a b := by
  simp [Reports]

/-- **What a walk has explored**, begun with the nodes `old` visited and sent to some roots. The
visited nodes are the old ones and those handled. Every edge that was reported leads to a node that
is visited or queued, and every node that is visited or queued is an old one or is reached from a
root along reported edges. -/
structure Explores (old roots : List (NodeId.Key ν)) (queue : List ν)
    (visited : List (NodeId.Key ν)) (calls : List (VisitorCall ν ε)) : Prop where
  /-- The visited nodes are those handled, before them the old ones. -/
  visited_eq : visited = (handledKeys calls).reverse ++ old
  /-- No node is handled twice. -/
  nodup : (handledKeys calls).Nodup
  /-- No old node is handled. -/
  new : ∀ k ∈ handledKeys calls, k ∉ old
  /-- Every root is visited or queued. -/
  root : ∀ k ∈ roots, k ∈ visited ∨ k ∈ queue.map NodeId.key
  /-- Every reported edge leads to a node that is visited or queued. -/
  closed : ∀ a b, Reports calls a b → b ∈ visited ∨ b ∈ queue.map NodeId.key
  /-- Every node that is visited or queued is an old one or is reached. -/
  reached : ∀ k, k ∈ visited ∨ k ∈ queue.map NodeId.key →
    k ∈ old ∨ ∃ root ∈ roots, Reaches (Reports calls) old root k

namespace Explores

variable {old roots visited : List (NodeId.Key ν)} {node : ν} {queue : List ν}
  {calls : List (VisitorCall ν ε)} {k : NodeId.Key ν}

/-- A walk that has nothing queued has explored nothing yet. -/
theorem start (old : List (NodeId.Key ν)) :
    Explores old [] ([] : List ν) old ([] : List (VisitorCall ν ε)) where
  visited_eq := rfl
  nodup := List.nodup_nil
  new := fun _ h => by cases h
  root := fun _ h => by cases h
  closed := fun a b h => absurd h (reports_nil a b)
  reached := fun k h => .inl (by simpa using h)

/-- A walk that has come to its end may be sent to one more root. -/
theorem restart (h : Explores old roots ([] : List ν) visited calls) (root : ν) :
    Explores old (roots ++ [NodeId.key root]) [root] visited calls where
  visited_eq := h.visited_eq
  nodup := h.nodup
  new := h.new
  root := by
    intro k hk
    rcases List.mem_append.1 hk with hk | hk
    · exact .inl (by simpa using h.root k hk)
    · exact .inr (by simpa using hk)
  closed := fun a b hab => .inl (by simpa using h.closed a b hab)
  reached := by
    intro k hk
    -- a root that was visited before leads nowhere
    by_cases fresh : k ∈ old
    · exact .inl fresh
    refine .inr ?_
    rcases hk with hk | hk
    · obtain ⟨r, hr, reach⟩ := (h.reached k (.inl hk)).resolve_left fresh
      exact ⟨r, List.mem_append_left _ hr, reach⟩
    · obtain rfl : k = NodeId.key root := by simpa using hk
      exact ⟨_, by simp, .refl fresh⟩

/-- The visited nodes are the old ones and those handled. -/
theorem mem_visited (h : Explores old roots queue visited calls) :
    k ∈ visited ↔ k ∈ old ∨ k ∈ handledKeys calls := by
  rw [h.visited_eq, List.mem_append, List.mem_reverse, or_comm]

/-- Passing by a node that has been visited explores nothing. -/
theorem pass (h : Explores old roots (node :: queue) visited calls)
    (seen : NodeId.key node ∈ visited) : Explores old roots queue visited calls := by
  have shift {k : NodeId.Key ν} (hk : k ∈ visited ∨ k ∈ (node :: queue).map NodeId.key) :
      k ∈ visited ∨ k ∈ queue.map NodeId.key := by
    rw [List.map_cons, List.mem_cons] at hk
    rcases hk with hk | rfl | hk
    · exact .inl hk
    · exact .inl seen
    · exact .inr hk
  exact
    { visited_eq := h.visited_eq
      nodup := h.nodup
      new := h.new
      root := fun k hk => shift (h.root k hk)
      closed := fun a b hab => shift (h.closed a b hab)
      reached := fun k hk => h.reached k (hk.imp_right fun hk => by simp [hk]) }

theorem handle (h : Explores old roots (node :: queue) visited calls)
    (new : NodeId.key node ∉ visited) (answer : Except ε Visit) :
    Explores old roots queue (NodeId.key node :: visited) (calls ++ [.handle node answer]) := by
  rw [h.mem_visited, not_or] at new
  obtain ⟨fresh, once⟩ := new
  -- the node moves from the queue to the visited nodes; together these stay what they were
  have shift (k : NodeId.Key ν) : (k ∈ visited ∨ k ∈ (node :: queue).map NodeId.key) ↔
      (k ∈ NodeId.key node :: visited ∨ k ∈ queue.map NodeId.key) := by
    rw [List.map_cons, List.mem_cons, List.mem_cons, or_left_comm, or_assoc]
  exact
    { visited_eq := by simp [h.visited_eq]
      nodup := by
        rw [handledKeys_append, List.nodup_append]
        refine ⟨h.nodup, by simp, ?_⟩
        rintro a ha b hb rfl
        obtain rfl : a = NodeId.key node := by simpa using hb
        exact once ha
      new := by
        intro k hk
        rw [handledKeys_append, List.mem_append] at hk
        rcases hk with hk | hk
        · exact h.new k hk
        · obtain rfl : k = NodeId.key node := by simpa using hk
          exact fresh
      root := fun k hk => (shift k).1 (h.root k hk)
      closed := fun a b hab => (shift b).1 (h.closed a b (reports_concat_handle.1 hab))
      reached := by
        intro k hk
        refine (h.reached k ((shift k).2 hk)).imp_right ?_
        rintro ⟨root, hr, reach⟩
        exact ⟨root, hr, reach.mono fun _ _ => reports_concat_handle.2⟩ }

/-- Reading a node that has been handled, and queueing its new children, explores its edges. -/
theorem read (h : Explores old roots queue visited calls)
    (handled : NodeId.key node ∈ handledKeys calls) (children : List ν) :
    Explores old roots (queue ++ pending visited children) visited
      (calls ++ [.read node (.ok children)]) := by
  have grow {root k : NodeId.Key ν} (reach : Reaches (Reports calls) old root k) :
      Reaches (Reports (calls ++ [.read node (.ok children)])) old root k :=
    reach.mono fun _ _ hab => reports_concat_read.2 (.inl hab)
  have queued {k : NodeId.Key ν} (hk : k ∈ visited ∨ k ∈ queue.map NodeId.key) :
      k ∈ visited ∨ k ∈ (queue ++ pending visited children).map NodeId.key :=
    hk.imp_right fun hk => by rw [List.map_append]; exact List.mem_append_left _ hk
  exact
    { visited_eq := by simpa using h.visited_eq
      nodup := by simpa using h.nodup
      new := by simpa using h.new
      root := fun k hk => queued (h.root k hk)
      closed := by
        intro a b hab
        rcases reports_concat_read.1 hab with hab | ⟨-, hb⟩
        · exact queued (h.closed a b hab)
        · by_cases seen : b ∈ visited
          · exact .inl seen
          · obtain ⟨child, hc, rfl⟩ := List.mem_map.1 hb
            refine .inr (List.mem_map_of_mem ?_)
            exact List.mem_append_right _ (mem_pending.2 ⟨hc, seen⟩)
      reached := by
        intro k hk
        rw [List.map_append, List.mem_append, ← or_assoc] at hk
        rcases hk with hk | hk
        · refine (h.reached k hk).imp_right ?_
          rintro ⟨root, hr, reach⟩
          exact ⟨root, hr, grow reach⟩
        · -- a child that is queued is one edge beyond the node that was read
          obtain ⟨child, hc, rfl⟩ := List.mem_map.1 hk
          obtain ⟨hc, new⟩ := mem_pending.1 hc
          obtain ⟨root, hr, reach⟩ := (h.reached (NodeId.key node)
            (.inl (h.mem_visited.2 (.inr handled)))).resolve_left (h.new _ handled)
          refine .inr ⟨root, hr, (grow reach).tail ?_ fun ho => new (h.mem_visited.2 (.inl ho))⟩
          exact reports_concat_read.2 (.inr ⟨rfl, List.mem_map_of_mem hc⟩) }

theorem read_error (h : Explores old roots queue visited calls) (node : ν) (cause : ε) :
    Explores old roots queue visited (calls ++ [.read node (.error cause)]) where
  visited_eq := by simpa using h.visited_eq
  nodup := by simpa using h.nodup
  new := by simpa using h.new
  root := h.root
  closed := fun a b hab => h.closed a b (reports_concat_error.1 hab)
  reached := fun k hk => (h.reached k hk).imp_right fun ⟨root, hr, reach⟩ =>
    ⟨root, hr, reach.mono fun _ _ => reports_concat_error.2⟩

/-- **One step explores further.** -/
theorem step {v : Visitor ν σ ε} {c c' : Standing ν σ ε} (step : Step v c c')
    (h : Explores old roots c.queue c.visited c.calls) :
    Explores old roots c'.queue c'.visited c'.calls := by
  cases step with
  | pass seen => exact h.pass seen
  | skip new handled => exact h.handle new _
  | descend new handled read => exact (h.handle new _).read (by simp) _

/-- Where a walk stops, also by a call that fails, it has explored what its calls say. -/
theorem stop {v : Visitor ν σ ε} {c : Standing ν σ ε} {walked : Walked ν (Logged ν σ ε) ε}
    (stop : Stop v c walked) (h : Explores old roots c.queue c.visited c.calls) :
    ∃ queue, Explores old roots queue walked.visited walked.state.calls := by
  cases stop with
  | finished => exact ⟨_, h⟩
  | handle new failed => exact ⟨_, h.handle new _⟩
  | read new handled failed => exact ⟨_, (h.handle new _).read_error _ _⟩
  | exhausted new => exact ⟨_, h⟩

/-- **Where nothing is queued, the nodes handled are exactly those that are reached from a root
along the edges that were reported.** -/
theorem mem_handledKeys_iff (h : Explores old roots ([] : List ν) visited calls) :
    k ∈ handledKeys calls ↔ ∃ root ∈ roots, Reaches (Reports calls) old root k := by
  have handled {k : NodeId.Key ν} (hk : k ∈ visited ∨ k ∈ ([] : List ν).map NodeId.key)
      (new : k ∉ old) : k ∈ handledKeys calls := by
    rw [h.mem_visited] at hk
    simpa [new] using hk
  constructor
  · intro hk
    exact (h.reached k (.inl (h.mem_visited.2 (.inr hk)))).resolve_left (h.new k hk)
  · rintro ⟨root, hr, new, path⟩
    -- no node of the path is left in the queue, so each was handled and reported the next
    induction path with
    | refl => exact handled (h.root root hr) new
    | tail _ edge _ => exact handled (h.closed _ _ edge.1) edge.2

end Explores

/-! ## Walks that come to their end -/

section Ended

variable (v : Visitor ν σ ε) (budget : Nat) {old roots visited : List (NodeId.Key ν)}
  {l : Logged ν σ ε}

/-- **Where a traversal stops, it has explored what its calls say**, if the walker was at rest
before. When the budget is used up, as many nodes were handled as it allows. -/
theorem traverse_stop (h : Explores old roots ([] : List ν) visited l.calls) (start : ν) :
    ∃ c, Explores old (roots ++ [NodeId.key start]) c.queue c.visited c.calls ∧
      Stop v c (traverse v.logged budget start visited l) ∧
      ∀ node, (traverse v.logged budget start visited l).outcome = .error (.exhausted node) →
        c.visited.length = visited.length + budget :=
  run_induction (motive := fun c =>
      Explores old (roots ++ [NodeId.key start]) c.queue c.visited c.calls)
    (fun _ _ => Explores.step) budget [start] visited l.state l.calls (h.restart start)

/-- A traversal that comes to its end has explored what its start leads to. -/
theorem traverse_explores (h : Explores old roots ([] : List ν) visited l.calls) (start : ν)
    (ended : (traverse v.logged budget start visited l).outcome = .ok ()) :
    Explores old (roots ++ [NodeId.key start]) ([] : List ν)
      (traverse v.logged budget start visited l).visited
      (traverse v.logged budget start visited l).state.calls := by
  obtain ⟨c, hc, stop, -⟩ := traverse_stop v budget h start
  generalize traverse v.logged budget start visited l = walked at stop ended ⊢
  cases stop with
  | finished => exact hc
  | _ => cases ended

/-- Several traversals that come to their end have explored what their roots lead to. -/
theorem traverseAll_explores (h : Explores old roots ([] : List ν) visited l.calls)
    (starts : List ν) (ended : (traverseAll v.logged budget starts visited l).outcome = .ok ()) :
    Explores old (roots ++ starts.map NodeId.key) ([] : List ν)
      (traverseAll v.logged budget starts visited l).visited
      (traverseAll v.logged budget starts visited l).state.calls := by
  induction starts generalizing roots visited l with
  | nil =>
    rw [List.map_nil, List.append_nil]
    exact h
  | cons start starts ih =>
    have explored := traverse_explores v budget h start
    rcases first : traverse v.logged budget start visited l with ⟨cause | _, visited', l'⟩
    · rw [traverseAll_cons_of_error starts first] at ended
      cases ended
    · rw [traverseAll_cons_of_ok starts first] at ended ⊢
      rw [first] at explored
      have rest := ih (explored rfl) ended
      rwa [List.append_assoc] at rest

/-- **Where several traversals stop, they have explored what their calls say**, from the starts that
were begun with. -/
theorem traverseAll_stop (h : Explores old roots ([] : List ν) visited l.calls) (starts : List ν) :
    ∃ begun queue, begun <+: starts ∧
      Explores old (roots ++ begun.map NodeId.key) queue
        (traverseAll v.logged budget starts visited l).visited
        (traverseAll v.logged budget starts visited l).state.calls := by
  induction starts generalizing roots visited l with
  | nil =>
    refine ⟨[], [], List.prefix_rfl, ?_⟩
    rw [List.map_nil, List.append_nil]
    exact h
  | cons start starts ih =>
    rcases first : traverse v.logged budget start visited l with ⟨cause | _, visited', l'⟩
    · obtain ⟨c, hc, stop, -⟩ := traverse_stop v budget h start
      obtain ⟨queue, explored⟩ := Explores.stop stop hc
      rw [first] at explored
      rw [traverseAll_cons_of_error starts first]
      exact ⟨[start], queue, ⟨starts, rfl⟩, explored⟩
    · have explored := traverse_explores v budget h start
      rw [first] at explored
      obtain ⟨begun, queue, first_begun, rest⟩ := ih (explored rfl)
      rw [traverseAll_cons_of_ok starts first]
      rw [List.append_assoc] at rest
      exact ⟨start :: begun, queue, (List.prefix_cons_inj start).2 first_begun, rest⟩

end Ended

/-! ## Visitors with fixed answers -/

section Fixed

variable {children : NodeId.Key ν → List (NodeId.Key ν)} {skipped : Set (NodeId.Key ν)}

/-- **The edges of a fixed graph** that a walk may follow: those from a node that is not skipped to
one of its children. -/
def Leads {κ : Type} (children : κ → List κ) (skipped : Set κ) (a b : κ) : Prop :=
  a ∉ skipped ∧ b ∈ children a

/-- **The call is answered by a fixed graph**: skipped nodes are skipped, all others entered, and
the children named are those of the graph. -/
def AnsweredBy (children : NodeId.Key ν → List (NodeId.Key ν)) (skipped : Set (NodeId.Key ν)) :
    VisitorCall ν ε → Prop
  | .handle node answer =>
    (NodeId.key node ∈ skipped ∧ answer = .ok .skip) ∨
      (NodeId.key node ∉ skipped ∧ answer = .ok .descend)
  | .read node answer =>
    ∃ nodes, answer = .ok nodes ∧ nodes.map NodeId.key = children (NodeId.key node)

variable {calls : List (VisitorCall ν ε)}
  (steady : ∀ call ∈ calls, AnsweredBy children skipped call)
include steady

theorem entered_iff_of_steady {node : ν} {answer : Except ε Visit}
    (handled : VisitorCall.handle node answer ∈ calls) :
    answer = .ok .descend ↔ NodeId.key node ∉ skipped := by
  rcases steady _ handled with ⟨skip, rfl⟩ | ⟨descend, rfl⟩
  · simpa using skip
  · simpa using descend

variable (read : readNodes calls = enteredNodes calls)
include read

/-- The nodes read are those handled that are not skipped. -/
theorem mem_readKeys_of_steady {k : NodeId.Key ν} :
    k ∈ readKeys calls ↔ k ∈ handledKeys calls ∧ k ∉ skipped := by
  rw [readKeys, read]
  constructor
  · intro h
    obtain ⟨node, hn, rfl⟩ := List.mem_map.1 h
    have entered := mem_enteredNodes.1 hn
    exact ⟨List.mem_map_of_mem (mem_handledNodes.2 ⟨_, entered⟩),
      (entered_iff_of_steady steady entered).1 rfl⟩
  · rintro ⟨h, new⟩
    obtain ⟨node, hn, rfl⟩ := List.mem_map.1 h
    obtain ⟨answer, hn⟩ := mem_handledNodes.1 hn
    obtain rfl := (entered_iff_of_steady steady hn).2 new
    exact List.mem_map_of_mem (mem_enteredNodes.2 hn)

theorem leads_of_reports {a b : NodeId.Key ν} (h : Reports calls a b) :
    Leads children skipped a b := by
  obtain ⟨node, nodes, hr, rfl, hb⟩ := h
  have entered : node ∈ enteredNodes calls := read ▸ mem_readNodes.2 ⟨_, hr⟩
  obtain ⟨named, e, same⟩ := steady _ hr
  obtain rfl := Except.ok.inj e
  exact ⟨(entered_iff_of_steady steady (mem_enteredNodes.1 entered)).1 rfl, same ▸ hb⟩

/-- Every edge of the graph from a node that was handled is reported. -/
theorem reports_of_leads {a b : NodeId.Key ν} (handled : a ∈ handledKeys calls)
    (h : Leads children skipped a b) : Reports calls a b := by
  obtain ⟨node, hn, rfl⟩ := List.mem_map.1 handled
  obtain ⟨answer, hn⟩ := mem_handledNodes.1 hn
  obtain rfl := (entered_iff_of_steady steady hn).2 h.1
  have hr : node ∈ readNodes calls := read ▸ mem_enteredNodes.2 hn
  obtain ⟨answer, hr⟩ := mem_readNodes.1 hr
  obtain ⟨nodes, rfl, same⟩ := steady _ hr
  exact ⟨node, nodes, hr, rfl, same ▸ h.2⟩

/-- **Where nothing is queued, the nodes handled are those that can be reached in the graph.** -/
theorem Explores.mem_handledKeys_iff_leads {old roots visited : List (NodeId.Key ν)}
    (explored : Explores old roots ([] : List ν) visited calls) {k : NodeId.Key ν} :
    k ∈ handledKeys calls ↔ ∃ root ∈ roots, Reaches (Leads children skipped) old root k := by
  rw [explored.mem_handledKeys_iff]
  refine exists_congr fun root => and_congr_right fun hr => ?_
  constructor
  · exact fun reached => reached.mono fun _ _ => leads_of_reports steady read
  · rintro ⟨new, path⟩
    -- an edge of the graph is reported only from a node handled, which the path so far says
    induction path with
    | refl => exact .refl new
    | tail _ edge ih =>
      have handled := explored.mem_handledKeys_iff.2 ⟨root, hr, ih⟩
      exact ih.tail (reports_of_leads steady read handled edge.1) edge.2

end Fixed

/-- Calls that a fixed graph answers have not failed. -/
theorem not_answeredBy_error {children : NodeId.Key ν → List (NodeId.Key ν)}
    {skipped : Set (NodeId.Key ν)} {node : ν} {cause : ε} :
    ¬ AnsweredBy children skipped (VisitorCall.handle node (.error cause)) ∧
      ¬ AnsweredBy children skipped
        (VisitorCall.read node (.error cause : Except ε (List ν))) := by
  simp [AnsweredBy]

/-- **A walk handles no more nodes than any finite set has that holds all that is reached.** -/
theorem Explores.length_le_ncard {old visited : List (NodeId.Key ν)} {start : NodeId.Key ν}
    {queue : List ν} {calls : List (VisitorCall ν ε)} {region : Set (NodeId.Key ν)}
    (explored : Explores old [start] queue visited calls)
    (within : ∀ k, Reaches (Reports calls) old start k → k ∈ region) (finite : region.Finite) :
    (handledKeys calls).length ≤ region.ncard := by
  have sub : ((handledKeys calls).toFinset : Set (NodeId.Key ν)) ⊆ region := by
    intro k hk
    rw [List.coe_toFinset, Set.mem_ofPred_eq] at hk
    have seen := explored.reached k (.inl (explored.mem_visited.2 (.inr hk)))
    obtain ⟨root, hr, reached⟩ := seen.resolve_left (explored.new k hk)
    obtain rfl := List.mem_singleton.1 hr
    exact within k reached
  have few := Set.ncard_le_ncard sub finite
  rwa [Set.ncard_coe_finset, List.toFinset_card_of_nodup explored.nodup] at few

/-- **There is room for a new node**: while one is next in the queue, fewer nodes have been handled
than any finite set has that holds all that is reached. -/
theorem Explores.length_lt_ncard {old visited : List (NodeId.Key ν)} {start : NodeId.Key ν}
    {node : ν} {queue : List ν} {calls : List (VisitorCall ν ε)} {region : Set (NodeId.Key ν)}
    (explored : Explores old [start] (node :: queue) visited calls)
    (new : NodeId.key node ∉ visited)
    (within : ∀ k, Reaches (Reports calls) old start k → k ∈ region) (finite : region.Finite) :
    (handledKeys calls).length < region.ncard := by
  have room := (explored.handle new (.ok .skip)).length_le_ncard
    (fun k reached => within k (reached.mono fun _ _ => reports_concat_handle.1)) finite
  rwa [handledKeys_append, List.length_append] at room

/-- **The nodes that a walk may reach** from its start in a fixed graph, past the nodes visited
before. -/
def reach {κ : Type} (children : κ → List κ) (skipped : Set κ) (visited : List κ) (start : κ) :
    Set κ :=
  {k | Reaches (Leads children skipped) visited start k}

section Steady

variable (v : Visitor ν σ ε) {children : NodeId.Key ν → List (NodeId.Key ν)}
  {skipped : Set (NodeId.Key ν)} (start : ν) (visited : List (NodeId.Key ν)) (s : σ)
  {budget : Nat}

/-- **A traversal of a finite graph comes to its end**, if its budget allows as many nodes to be
handled as there are to be reached. -/
theorem traverse_ok_of_steady
    (steady : ∀ call ∈ (traverse v.logged budget start visited ⟨s, []⟩).state.calls,
      AnsweredBy children skipped call)
    (finite : (reach children skipped visited (NodeId.key start)).Finite)
    (enough : (reach children skipped visited (NodeId.key start)).ncard ≤ budget) :
    (traverse v.logged budget start visited ⟨s, []⟩).outcome = .ok () := by
  have read : readNodes (traverse v.logged budget start visited ⟨s, []⟩).state.calls
      = enteredNodes (traverse v.logged budget start visited ⟨s, []⟩).state.calls :=
    run_readNodes v budget [start] visited s [] rfl
  obtain ⟨c, hc, stop, count⟩ := traverse_stop v budget (l := ⟨s, []⟩) (.start visited) start
  generalize traverse v.logged budget start visited ⟨s, []⟩ = walked at steady read stop count ⊢
  cases stop with
  | finished => rfl
  | @handle node _ _ _ _ _ cause new failed =>
    exact absurd (steady (.handle node (.error cause)) (by simp)) not_answeredBy_error.1
  | @read node _ _ _ _ _ _ cause new handled failed =>
    exact absurd (steady (.read node (.error cause)) (by simp)) not_answeredBy_error.2
  | @exhausted node queue visited' s' calls new =>
    dsimp only at steady read hc count
    have within (k : NodeId.Key ν) (h : Reaches (Reports calls) visited (NodeId.key start) k) :
        k ∈ reach children skipped visited (NodeId.key start) :=
      h.mono fun _ _ => leads_of_reports steady read
    have few := hc.length_lt_ncard new within finite
    have used := count node rfl
    rw [hc.visited_eq, List.length_append, List.length_reverse] at used
    omega

/-- **What a traversal does where the visitor's answers do not change.** Let the calls of the
traversal be answered by a fixed graph, in which finitely many nodes can be reached from the start
past the nodes visited before; these may be any. Then the traversal comes to its end, handles each
node that can be reached exactly once and no other, reads exactly once each of them that is not
skipped and no other, and leaves visited what was visited before and what it handled. -/
theorem traverse_reaches
    (steady : ∀ call ∈ (traverse v.logged budget start visited ⟨s, []⟩).state.calls,
      AnsweredBy children skipped call)
    (finite : (reach children skipped visited (NodeId.key start)).Finite)
    (enough : (reach children skipped visited (NodeId.key start)).ncard ≤ budget) :
    let walked := traverse v.logged budget start visited ⟨s, []⟩
    traverse v budget start visited s = ⟨.ok (), walked.visited, walked.state.state⟩ ∧
      (handledKeys walked.state.calls).Nodup ∧
      (∀ k, k ∈ handledKeys walked.state.calls ↔
        k ∈ reach children skipped visited (NodeId.key start)) ∧
      (readKeys walked.state.calls).Nodup ∧
      (∀ k, k ∈ readKeys walked.state.calls ↔
        k ∈ reach children skipped visited (NodeId.key start) ∧ k ∉ skipped) ∧
      ∀ k, k ∈ walked.visited ↔ k ∈ visited ∨ k ∈ handledKeys walked.state.calls := by
  intro walked
  have ended : walked.outcome = .ok () :=
    traverse_ok_of_steady v start visited s steady finite enough
  have read : readNodes walked.state.calls = enteredNodes walked.state.calls :=
    run_readNodes v budget [start] visited s [] rfl
  have explored : Explores visited [NodeId.key start] ([] : List ν) walked.visited
      walked.state.calls := traverse_explores v budget (Explores.start visited) start ended
  have handled (k : NodeId.Key ν) : k ∈ handledKeys walked.state.calls ↔
      k ∈ reach children skipped visited (NodeId.key start) := by
    rw [explored.mem_handledKeys_iff_leads steady read]
    simp [reach]
  refine ⟨?_, explored.nodup, handled, ?_, ?_, fun k => explored.mem_visited⟩
  · rw [traverse_logged v budget start visited s [], project]
    exact congrArg (Walked.mk · _ _) ended
  · refine explored.nodup.sublist ?_
    rw [readKeys, read]
    exact (enteredNodes_sublist _).map _
  · intro k
    rw [mem_readKeys_of_steady steady read, handled k]

end Steady

/-! ## A graph written down in advance -/

/-- **The visitor that a graph of strings stands for.** Its answers are those of the graph, and it
remembers nothing. -/
def ofGraph (children : String → List String) (skipped : List String) :
    Visitor String Unit Fault where
  handle node s := (.ok (if node ∈ skipped then .skip else .descend), s)
  read node s := (.ok (children node), s)

/-- The calls of such a visitor are answered by its graph. -/
theorem answeredBy_ofGraph (children : String → List String) (skipped : List String) (budget : Nat)
    (start : String) (visited : List String) :
    ∀ call ∈ (traverse (ofGraph children skipped).logged budget start visited ⟨(), []⟩).state.calls,
      AnsweredBy children {k : String | k ∈ skipped} call := by
  refine run_forall_call (fun node s => ?_) (fun node s => ?_) budget [start] visited ()
  · show (node ∈ skipped ∧ _) ∨ (node ∉ skipped ∧ _)
    by_cases h : node ∈ skipped <;> simp [ofGraph, h]
  · exact ⟨children node, rfl, List.map_id _⟩

/-- A set of nodes that holds the start, and the children of all its nodes that are not skipped, as
far as these are new, holds all that can be reached. -/
theorem reach_subset {κ : Type} {children : κ → List κ} {skipped : Set κ} {visited : List κ}
    {start : κ} {nodes : Set κ} (root : start ∈ nodes)
    (closed : ∀ a ∈ nodes, a ∉ skipped → ∀ b ∈ children a, b ∉ visited → b ∈ nodes) :
    reach children skipped visited start ⊆ nodes := by
  rintro k ⟨-, path⟩
  induction path with
  | refl => exact root
  | tail _ edge ih => exact closed _ ih edge.1.1 _ edge.1.2 edge.2

/-- Two ways from `a` to `d`, one node that imports itself, one edge back to the start, one to a
node visited before, and one out of a skipped node. -/
def diamond : String → List String
  | "a" => ["b", "c"]
  | "b" => ["b", "d"]
  | "c" => ["d", "x", "a"]
  | "d" => ["e"]
  | _ => []

/-- The diamond is walked from its start, except for what lies behind a skipped node or was visited
before. -/
theorem traverse_diamond :
    let v := ofGraph diamond ["d"]
    let walked := traverse v.logged 4 "a" ["x"] ⟨(), []⟩
    let region := reach diamond {k : String | k ∈ ["d"]} ["x"] "a"
    (∀ call ∈ walked.state.calls, AnsweredBy diamond {k : String | k ∈ ["d"]} call) ∧
      region.Finite ∧ region.ncard ≤ 4 ∧
      traverse v 4 "a" ["x"] () = ⟨.ok (), walked.visited, walked.state.state⟩ ∧
      (handledKeys walked.state.calls).Nodup ∧
      (∀ k, k ∈ handledKeys walked.state.calls ↔ k ∈ region) ∧
      (readKeys walked.state.calls).Nodup ∧
      (∀ k, k ∈ readKeys walked.state.calls ↔ k ∈ region ∧ k ∉ {k : String | k ∈ ["d"]}) ∧
      ∀ k, k ∈ walked.visited ↔ k ∈ ["x"] ∨ k ∈ handledKeys walked.state.calls := by
  intro v walked region
  have steady := answeredBy_ofGraph diamond ["d"] 4 "a" ["x"]
  have within : region ⊆ (({"a", "b", "c", "d"} : Finset String) : Set String) :=
    reach_subset (by simp) fun a ha new b hb => by
      simp only [Finset.coe_insert, Finset.coe_singleton, Set.mem_insert_iff,
        Set.mem_singleton_iff] at ha ⊢
      rcases ha with rfl | rfl | rfl | rfl <;> simp [diamond] at hb new ⊢ <;> grind
  have finite : region.Finite := (Finset.finite_toSet _).subset within
  have enough : region.ncard ≤ 4 := by
    refine (Set.ncard_le_ncard within (Finset.finite_toSet _)).trans ?_
    rw [Set.ncard_coe_finset]
    decide
  exact ⟨steady, finite, enough, traverse_reaches v "a" ["x"] () steady finite enough⟩

end Depot.Walk
