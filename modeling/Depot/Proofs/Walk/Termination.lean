import Depot.Proofs.Walk.Reach

/-!
# Walks end

Each iteration of a walk takes one node off the queue, and may put back any number, among them nodes
that wait there already. So the queue need not become shorter, and where a node is passed by, the
visited set does not grow. Nevertheless a walk ends wherever the nodes it is told of lie in a finite
set, whatever the visitor remembers and however the edges run in circles: there is room for a new
node only while fewer have been handled than the set has (`Explores.length_lt_ncard`), and between
two new nodes the queue does become shorter, which is the recursion of `run`.

Iterations are counted by `LeadsIn (Step v)`. Each is determined by the one before (`Step.unique`),
so a walk that stops makes the same iterations under every budget that suffices
(`traverse_terminates`).
-/

namespace Depot.Walk

open VisitorCall

/-! ## Iterations -/

section Chains

variable {κ : Type} {next : κ → κ → Prop} {a b start last : κ} {m n : Nat}

/-- A path that is longer than nothing has a first edge. -/
theorem LeadsIn.head (path : LeadsIn next start (n + 1) b) :
    ∃ a, next start a ∧ LeadsIn next a n b := by
  generalize length : n + 1 = m at path
  induction path generalizing n with
  | refl => cases length
  | tail path edge ih =>
    obtain rfl := Nat.succ.inj length
    cases path with
    | refl => exact ⟨_, edge, .refl⟩
    | @tail n _ _ path edge' =>
      obtain ⟨first, begins, rest⟩ := ih rfl
      exact ⟨first, begins, rest.tail edge⟩

theorem exists_leadsIn (path : Relation.ReflTransGen next a b) : ∃ n, LeadsIn next a n b := by
  induction path with
  | refl => exact ⟨0, .refl⟩
  | tail _ edge ih =>
    obtain ⟨n, path⟩ := ih
    exact ⟨n + 1, path.tail edge⟩

/-- **Where there is one way to go, the end of the way lies ahead**, from wherever one has got
to. -/
theorem LeadsIn.remaining (unique : ∀ a b c, next a b → next a c → b = c)
    (ends : ∀ b, ¬ next last b) (whole : LeadsIn next start n last)
    (part : LeadsIn next start m a) : ∃ k, n = m + k ∧ LeadsIn next a k last := by
  induction part with
  | refl => exact ⟨n, (Nat.zero_add n).symm, whole⟩
  | tail _ edge ih =>
    obtain ⟨k, length, ahead⟩ := ih
    cases k with
    | zero =>
      cases ahead with
      | refl => exact absurd edge (ends _)
    | succ k =>
      obtain ⟨c, first, rest⟩ := ahead.head
      obtain rfl := unique _ _ _ edge first
      exact ⟨k, by omega, rest⟩

end Chains

variable {ν σ ε : Type} [NodeId ν] {v : Visitor ν σ ε}

/-- **One iteration has one outcome.** -/
theorem Step.unique {c c₁ c₂ : Standing ν σ ε} (h₁ : Step v c c₁) (h₂ : Step v c c₂) :
    c₁ = c₂ := by
  cases h₁ <;> cases h₂ <;> simp_all

/-- A walk that has come to its end makes no further iteration. -/
theorem Stop.not_step {c c' : Standing ν σ ε} {walked : Walked ν (Logged ν σ ε) ε}
    (stop : Stop v c walked) (fits : ∀ node, walked.outcome ≠ .error (.exhausted node)) :
    ¬ Step v c c' := by
  intro step
  cases stop with
  | exhausted new => exact fits _ rfl
  | _ => cases step <;> simp_all

/-- Where a walk comes to its end, it leaves one thing behind. -/
theorem Stop.unique {c : Standing ν σ ε} {walked walked' : Walked ν (Logged ν σ ε) ε}
    (stop : Stop v c walked) (stop' : Stop v c walked')
    (fits : ∀ node, walked.outcome ≠ .error (.exhausted node))
    (fits' : ∀ node, walked'.outcome ≠ .error (.exhausted node)) : walked = walked' := by
  cases stop <;> cases stop' <;> simp_all

/-! ## Walks in a finite set of nodes -/

/-- The call names no node outside a set. -/
def NamesWithin (nodes : Set (NodeId.Key ν)) : VisitorCall ν ε → Prop
  | .read _ (.ok children) => ∀ child ∈ children, NodeId.key child ∈ nodes
  | _ => True

/-- **A visitor that names only nodes of a set** does so in its walks. -/
theorem mem_of_reports {nodes : Set (NodeId.Key ν)}
    (names : ∀ node s, NamesWithin nodes (.read node (v.read node s).1)) {budget : Nat} {start : ν}
    {visited : List (NodeId.Key ν)} {s : σ} {a b : NodeId.Key ν}
    (h : Reports (traverse v.logged budget start visited ⟨s, []⟩).state.calls a b) :
    b ∈ nodes := by
  obtain ⟨node, children, read, -, hb⟩ := h
  obtain ⟨child, hc, rfl⟩ := List.mem_map.1 hb
  have within : NamesWithin nodes (VisitorCall.read node (.ok children : Except ε (List ν))) :=
    run_forall_call (fun _ _ => trivial) names budget [start] visited s _ read
  exact within child hc

section Finite

variable (v) (budget : Nat) (start : ν) (visited : List (NodeId.Key ν)) (s : σ)
  {nodes : Set (NodeId.Key ν)} (finite : nodes.Finite) (root : NodeId.key start ∈ nodes)
  (named : ∀ a b,
    Reports (traverse v.logged budget start visited ⟨s, []⟩).state.calls a b → b ∈ nodes)
include finite root named

/-- **No more nodes are handled than there are.** -/
theorem length_handledNodes_le :
    (handledNodes (traverse v.logged budget start visited ⟨s, []⟩).state.calls).length
      ≤ nodes.ncard := by
  obtain ⟨c, explored, stop, -⟩ := traverse_stop v budget (l := ⟨s, []⟩) (.start visited) start
  obtain ⟨queue, explored⟩ := explored.stop stop
  have few := explored.length_le_ncard (fun k reached => reached.mem root named) finite
  rwa [handledKeys, List.length_map] at few

/-- **A budget of the size of the set is not used up.** -/
theorem traverse_not_exhausted (enough : nodes.ncard ≤ budget) (node : ν) :
    (traverse v.logged budget start visited ⟨s, []⟩).outcome ≠ .error (.exhausted node) := by
  intro out
  obtain ⟨c, explored, stop, count⟩ := traverse_stop v budget (l := ⟨s, []⟩) (.start visited) start
  have used := count node out
  generalize traverse v.logged budget start visited ⟨s, []⟩ = walked at out named stop
  cases stop with
  | exhausted new =>
    have few := explored.length_lt_ncard new (fun k reached => reached.mem root named) finite
    rw [explored.visited_eq, List.length_append, List.length_reverse] at used
    omega
  | _ => cases out

end Finite

/-- **A traversal of a finite universe terminates.** Let the start and all children that are ever
named lie in a finite set, while the visitor may answer as it likes. Then the traversal makes some
number of iterations and no more, and comes to its end after them, in one way: every budget of the
size of the set is enough for it and makes no difference. Under no budget are more nodes handled
than the set has. -/
theorem traverse_terminates (v : Visitor ν σ ε) (start : ν) (visited : List (NodeId.Key ν)) (s : σ)
    {nodes : Set (NodeId.Key ν)} (finite : nodes.Finite) (root : NodeId.key start ∈ nodes)
    (named : ∀ budget a b,
      Reports (traverse v.logged budget start visited ⟨s, []⟩).state.calls a b → b ∈ nodes) :
    (∃ iterations last walked,
      LeadsIn (Step v) ⟨[start], visited, s, []⟩ iterations last ∧ Stop v last walked ∧
      (∀ node, walked.outcome ≠ .error (.exhausted node)) ∧
      (∀ n c, LeadsIn (Step v) ⟨[start], visited, s, []⟩ n c → n ≤ iterations) ∧
      ∀ budget, nodes.ncard ≤ budget →
        traverse v.logged budget start visited ⟨s, []⟩ = walked) ∧
    ∀ budget,
      (handledNodes (traverse v.logged budget start visited ⟨s, []⟩).state.calls).length
        ≤ nodes.ncard := by
  have fits (budget : Nat) (enough : nodes.ncard ≤ budget) :=
    traverse_not_exhausted v budget start visited s finite root (named budget) enough
  refine ⟨?_, fun budget => length_handledNodes_le v budget start visited s finite root
    (named budget)⟩
  obtain ⟨last, steps, stop, -⟩ := run_steps v nodes.ncard [start] visited s []
  obtain ⟨iterations, path⟩ := exists_leadsIn steps
  have halted (c : Standing ν σ ε) : ¬ Step v last c := stop.not_step (fits _ (Nat.le_refl _))
  have ahead {n : Nat} {c : Standing ν σ ε}
      (part : LeadsIn (Step v) ⟨[start], visited, s, []⟩ n c) :
      ∃ k, iterations = n + k ∧ LeadsIn (Step v) c k last :=
    path.remaining (fun _ _ _ => Step.unique) halted part
  refine ⟨iterations, last, _, path, stop, fits _ (Nat.le_refl _), fun n c part => ?_,
    fun budget enough => ?_⟩
  · obtain ⟨k, length, -⟩ := ahead part
    omega
  · -- where the walk stops under a larger budget, it can go no further either
    obtain ⟨last', steps', stop', -⟩ := run_steps v budget [start] visited s []
    obtain ⟨n, part⟩ := exists_leadsIn steps'
    obtain ⟨k, -, rest⟩ := ahead part
    cases k with
    | zero =>
      cases rest with
      | refl => exact stop'.unique stop (fits _ enough) (fits _ (Nat.le_refl _))
    | succ k =>
      obtain ⟨c, step, -⟩ := rest.head
      exact absurd step (stop'.not_step (fits _ enough))

/-- A visitor that counts its calls, and names other children every other time: the node itself, one
more than once, or the start again. -/
def fickle : Visitor String Nat Fault where
  handle _ n := (.ok .descend, n + 1)
  read _ n := (.ok (if n % 4 = 1 then ["b", "a", "b"] else ["a", "c"]), n + 1)

/-- A visitor that changes its mind names three nodes at most, so its walks come to an end. -/
theorem traverse_terminates_fickle :
    let nodes : Set String := (({"a", "b", "c"} : Finset String) : Set String)
    let walk budget := traverse fickle.logged budget "a" ["x"] ⟨0, []⟩
    nodes.Finite ∧ "a" ∈ nodes ∧ (∀ budget a b, Reports (walk budget).state.calls a b → b ∈ nodes) ∧
      (∃ iterations last walked,
        LeadsIn (Step fickle) ⟨["a"], ["x"], 0, []⟩ iterations last ∧ Stop fickle last walked ∧
        (∀ node, walked.outcome ≠ .error (.exhausted node)) ∧
        (∀ n c, LeadsIn (Step fickle) ⟨["a"], ["x"], 0, []⟩ n c → n ≤ iterations) ∧
        ∀ budget, nodes.ncard ≤ budget → walk budget = walked) ∧
      ∀ budget, (handledNodes (walk budget).state.calls).length ≤ nodes.ncard := by
  intro nodes walk
  have finite : nodes.Finite := Finset.finite_toSet _
  have root : "a" ∈ nodes := by simp [nodes]
  have named (budget : Nat) (a b : String) (h : Reports (walk budget).state.calls a b) :
      b ∈ nodes := by
    refine mem_of_reports (v := fickle) (fun node n child hc => ?_) h
    split at hc <;> simp only [List.mem_cons, List.not_mem_nil, or_false] at hc
    · rcases hc with rfl | rfl | rfl <;> simp [nodes, NodeId.key]
    · rcases hc with rfl | rfl <;> simp [nodes, NodeId.key]
  exact ⟨finite, root, named, traverse_terminates fickle "a" ["x"] 0 finite root named⟩

end Depot.Walk
