import Depot.Proofs.Walk.Textbook
import Mathlib.Data.List.Forall2

/-!
# Children in another order

Two visitors may differ in how they list children: one names them in another order than the other,
or names some more than once. Their walks are then alike, call by call (`run_alike`). The queues of
the two walks need not be; what agrees at every step are the nodes that are to be handled, each
where it first occurs.

A node may have several spellings, and in a list that names it twice the order decides which one is
handled. So it matters which spellings the visitors take for one another. That is the relation
`equal` throughout. Visitors that go by the identity of nodes walk alike up to that (`SameNode`).
Visitors that tell spellings apart do so where no list holds two spellings of one node
(`nameAlike_eq`).
-/

namespace Depot.Walk

variable {ν σ τ ε : Type} [NodeId ν]

/-! ## What is alike -/

/-- Two spellings of one node. -/
def SameNode (m n : ν) : Prop := NodeId.key m = NodeId.key n

/-- **Two lists name the same nodes**, in any order and any number of times, in spellings that are
taken for one another. -/
structure NameAlike (equal : ν → ν → Prop) (children others : List ν) : Prop where
  /-- What one names the other names. -/
  forth : ∀ a ∈ children, ∃ b ∈ others, equal a b
  /-- The same holds the other way round. -/
  back : ∀ b ∈ others, ∃ a ∈ children, equal a b
  /-- No node is named in spellings that are told apart. -/
  spelling : ∀ a ∈ children, ∀ b ∈ others, NodeId.key a = NodeId.key b → equal a b

/-- Two answers to a reading: lists that name the same nodes, or the same error. -/
inductive SameAnswer (equal : ν → ν → Prop) : Except ε (List ν) → Except ε (List ν) → Prop
  | ok {children others : List ν} (alike : NameAlike equal children others) :
      SameAnswer equal (.ok children) (.ok others)
  | error {cause : ε} : SameAnswer equal (.error cause) (.error cause)

/-- Two calls of one kind for one node, with the same answer. -/
inductive SameCall (equal : ν → ν → Prop) : VisitorCall ν ε → VisitorCall ν ε → Prop
  | handle {m n : ν} {answer : Except ε Visit} (same : equal m n) :
      SameCall equal (.handle m answer) (.handle n answer)
  | read {m n : ν} {answer other : Except ε (List ν)} (same : equal m n)
      (alike : SameAnswer equal answer other) : SameCall equal (.read m answer) (.read n other)

/-- Two outcomes of one kind: both are good, or both stopped at one node for the same cause. -/
inductive SameOutcome (equal : ν → ν → Prop) :
    Except (WalkError ν ε) Unit → Except (WalkError ν ε) Unit → Prop
  | ok : SameOutcome equal (.ok ()) (.ok ())
  | handle {m n : ν} {cause : ε} (same : equal m n) :
      SameOutcome equal (.error (.handle m cause)) (.error (.handle n cause))
  | read {m n : ν} {cause : ε} (same : equal m n) :
      SameOutcome equal (.error (.read m cause)) (.error (.read n cause))
  | exhausted {m n : ν} (same : equal m n) :
      SameOutcome equal (.error (.exhausted m)) (.error (.exhausted n))

/-- **Two visitors behave alike**, except for how they list children. Their states may differ, and
`same` says which ones correspond. -/
structure Alike (equal : ν → ν → Prop) (same : σ → τ → Prop) (v : Visitor ν σ ε)
    (w : Visitor ν τ ε) : Prop where
  /-- Only spellings of one node are taken for one another. -/
  key : ∀ {m n}, equal m n → NodeId.key m = NodeId.key n
  /-- Nodes are handled with the same answer. -/
  handle : ∀ {m n s t}, equal m n → same s t → (v.handle m s).1 = (w.handle n t).1
  /-- Handling a node leaves states that correspond. -/
  handle_state : ∀ {m n s t}, equal m n → same s t → same (v.handle m s).2 (w.handle n t).2
  /-- The same children are named. -/
  read : ∀ {m n s t}, equal m n → same s t → SameAnswer equal (v.read m s).1 (w.read n t).1
  /-- Naming children leaves states that correspond. -/
  read_state : ∀ {m n s t}, equal m n → same s t → same (v.read m s).2 (w.read n t).2

/-- **Two walks leave the same behind**, up to what is taken for one another. -/
structure WalkAlike (equal : ν → ν → Prop) (same : σ → τ → Prop) (walked : Walked ν σ ε)
    (other : Walked ν τ ε) : Prop where
  /-- The outcome is of one kind. -/
  outcome : SameOutcome equal walked.outcome other.outcome
  /-- The same nodes are visited, in the same order. -/
  visited : walked.visited = other.visited
  /-- The states correspond. -/
  state : same walked.state other.state

/-- States with calls correspond if the states do, and the calls one by one. -/
structure LoggedAlike (equal : ν → ν → Prop) (same : σ → τ → Prop) (l : Logged ν σ ε)
    (other : Logged ν τ ε) : Prop where
  /-- The states correspond. -/
  state : same l.state other.state
  /-- The calls are the same. -/
  calls : List.Forall₂ (SameCall equal) l.calls other.calls

variable {equal : ν → ν → Prop} {same : σ → τ → Prop} {v : Visitor ν σ ε} {w : Visitor ν τ ε}
  {children others : List ν}

omit [NodeId ν] in
/-- Where no two nodes are taken for one another, outcomes of one kind are equal. -/
theorem SameOutcome.eq {outcome other : Except (WalkError ν ε) Unit}
    (h : SameOutcome equal outcome other) (identical : ∀ m n, equal m n → m = n) :
    outcome = other := by
  cases h with
  | ok => rfl
  | handle same | read same | exhausted same => rw [identical _ _ same]

/-- Up to identity, two lists name the same nodes if they hold the same identities. -/
theorem nameAlike_sameNode
    (h : ∀ k, k ∈ children.map NodeId.key ↔ k ∈ others.map NodeId.key) :
    NameAlike SameNode children others where
  forth a ha := by
    obtain ⟨b, hb, e⟩ := List.mem_map.1 ((h _).1 (List.mem_map_of_mem ha))
    exact ⟨b, hb, e.symm⟩
  back b hb := by
    obtain ⟨a, ha, e⟩ := List.mem_map.1 ((h _).2 (List.mem_map_of_mem hb))
    exact ⟨a, ha, e⟩
  spelling _ _ _ _ e := e

/-- **Lists with the same members name the same nodes**, if no node is named in two spellings. -/
theorem nameAlike_eq (h : ∀ n, n ∈ children ↔ n ∈ others)
    (once : ∀ a ∈ children, ∀ b ∈ children, NodeId.key a = NodeId.key b → a = b) :
    NameAlike Eq children others where
  forth a ha := ⟨a, (h a).1 ha, rfl⟩
  back b hb := ⟨b, (h b).2 hb, rfl⟩
  spelling a ha b hb := once a ha b ((h b).2 hb)

/-! ## Sorting removes the difference -/

theorem mem_of_mem_distinct {node : ν} (h : node ∈ distinct children) : node ∈ children := by
  have found := (Ordered.lookup_eq_some_iff (sorted_distinct children)).2 ⟨h, rfl⟩
  rw [lookup_distinct] at found
  exact List.mem_of_find?_eq_some found

theorem mem_map_distinct {k : NodeId.Key ν} :
    k ∈ (distinct children).map NodeId.key ↔ k ∈ children.map NodeId.key := by
  rw [distinct_eq_firsts, mem_map_firsts]
  simp [inOrder]

/-- Lists with the same keys are related, if members with the same key are. -/
theorem forall₂_of_map_eq {α β κ : Type} {f : α → κ} {g : β → κ} {r : α → β → Prop} {as : List α}
    {bs : List β} (keys : as.map f = bs.map g) (rel : ∀ a ∈ as, ∀ b ∈ bs, f a = g b → r a b) :
    List.Forall₂ r as bs := by
  induction as generalizing bs with
  | nil =>
    obtain rfl := List.map_eq_nil_iff.1 keys.symm
    exact .nil
  | cons a as ih =>
    obtain ⟨b, bs, rfl, head, tail⟩ := List.map_eq_cons_iff.1 keys.symm
    exact .cons (rel a List.mem_cons_self b List.mem_cons_self head.symm)
      (ih tail.symm fun a ha b hb =>
        rel a (List.mem_cons_of_mem _ ha) b (List.mem_cons_of_mem _ hb))

/-- **Lists that name the same nodes are sorted into one.** -/
theorem NameAlike.distinct (h : NameAlike equal children others)
    (key : ∀ {m n}, equal m n → NodeId.key m = NodeId.key n) :
    List.Forall₂ equal (distinct children) (distinct others) := by
  have sorted (nodes : List ν) : Ordered.Sorted id ((Walk.distinct nodes).map NodeId.key) :=
    List.pairwise_map.2 (sorted_distinct nodes)
  have keys : (Walk.distinct children).map NodeId.key = (Walk.distinct others).map NodeId.key := by
    refine Ordered.eq_of_mem_iff (sorted children) (sorted others) fun k => ?_
    rw [mem_map_distinct, mem_map_distinct]
    constructor <;> intro hk
    · obtain ⟨a, ha, rfl⟩ := List.mem_map.1 hk
      obtain ⟨b, hb, e⟩ := h.forth a ha
      exact key e ▸ List.mem_map_of_mem hb
    · obtain ⟨b, hb, rfl⟩ := List.mem_map.1 hk
      obtain ⟨a, ha, e⟩ := h.back b hb
      exact key e ▸ List.mem_map_of_mem ha
  exact forall₂_of_map_eq keys fun a ha b hb =>
    h.spelling a (mem_of_mem_distinct ha) b (mem_of_mem_distinct hb)

/-- Nodes that are taken for one another have the same identities. -/
theorem map_key_eq {queue other : List ν} (h : List.Forall₂ equal queue other)
    (key : ∀ {m n}, equal m n → NodeId.key m = NodeId.key n) :
    queue.map NodeId.key = other.map NodeId.key := by
  induction h with
  | nil => rfl
  | cons e _ ih => rw [List.map_cons, List.map_cons, key e, ih]

/-- **What is to be handled stays alike when children are queued.** -/
theorem NameAlike.queue (h : NameAlike equal children others)
    (key : ∀ {m n}, equal m n → NodeId.key m = NodeId.key n) {visited : List (NodeId.Key ν)}
    {queue other : List ν}
    (waiting : List.Forall₂ equal (firsts visited queue) (firsts visited other)) :
    List.Forall₂ equal (firsts visited (queue ++ pending visited children))
      (firsts visited (other ++ pending visited others)) := by
  -- both queues hold the same new nodes, so the same children are new to both
  have marks (k : NodeId.Key ν) : k ∈ queue.map NodeId.key ++ visited ↔
      k ∈ visited ∨ k ∈ (firsts visited queue).map NodeId.key := mem_visited_or_firsts.symm
  have marks' (k : NodeId.Key ν) : k ∈ queue.map NodeId.key ++ visited ↔
      k ∈ visited ∨ k ∈ (firsts visited other).map NodeId.key := by
    rw [marks, map_key_eq waiting key]
  rw [firsts_append_pending marks, firsts_append_pending marks']
  refine List.rel_append waiting (List.rel_filter (fun a b e => ?_) (h.distinct key))
  simp only [isVisited, key e]

/-! ## Walks -/

/-- **The next new nodes of two queues are alike**, if there are any, and so is what comes after
them. -/
theorem next_alike {visited : List (NodeId.Key ν)} {queue other : List ν}
    (waiting : List.Forall₂ equal (firsts visited queue) (firsts visited other)) :
    (queue.dropWhile (isVisited visited) = [] ∧ other.dropWhile (isVisited visited) = []) ∨
      ∃ m rest n rest', queue.dropWhile (isVisited visited) = m :: rest ∧
        other.dropWhile (isVisited visited) = n :: rest' ∧ NodeId.key m ∉ visited ∧
        NodeId.key n ∉ visited ∧ equal m n ∧
        List.Forall₂ equal (firsts (NodeId.key m :: visited) rest)
          (firsts (NodeId.key n :: visited) rest') := by
  rw [← firsts_dropWhile, ← @firsts_dropWhile _ _ _ other] at waiting
  rcases next : queue.dropWhile (isVisited visited) with _ | ⟨m, rest⟩ <;>
    rcases next' : other.dropWhile (isVisited visited) with _ | ⟨n, rest'⟩ <;>
    rw [next, next'] at waiting
  · exact .inl ⟨rfl, rfl⟩
  · rw [firsts_cons_of_notMem (new_of_dropWhile next')] at waiting
    cases waiting
  · rw [firsts_cons_of_notMem (new_of_dropWhile next)] at waiting
    cases waiting
  · have new := new_of_dropWhile next
    have new' := new_of_dropWhile next'
    rw [firsts_cons_of_notMem new, firsts_cons_of_notMem new'] at waiting
    cases waiting with
    | cons same waiting => exact .inr ⟨m, rest, n, rest', rfl, rfl, new, new', same, waiting⟩

/-- **Two visitors that behave alike walk alike**, from queues that hold the same nodes to be
handled. -/
theorem run_alike (h : Alike equal same v w) (budget : Nat) {queue other : List ν}
    {visited : List (NodeId.Key ν)} {s : σ} {t : τ}
    (waiting : List.Forall₂ equal (firsts visited queue) (firsts visited other)) (st : same s t) :
    WalkAlike equal same (run v budget queue visited s) (run w budget other visited t) := by
  induction budget generalizing queue other visited s t with
  | zero =>
    rw [← @run_dropWhile _ _ _ _ v queue, ← @run_dropWhile _ _ _ _ w other]
    rcases next_alike waiting with ⟨done, done'⟩ | ⟨m, rest, n, rest', e, e', new, new', mn, -⟩
    · rw [done, done', run_nil, run_nil]
      exact ⟨.ok, rfl, st⟩
    · rw [e, e', run_exhausted new, run_exhausted new']
      exact ⟨.exhausted mn, rfl, st⟩
  | succ budget ih =>
    rw [← @run_dropWhile _ _ _ _ v queue, ← @run_dropWhile _ _ _ _ w other]
    rcases next_alike waiting with ⟨done, done'⟩ |
      ⟨m, rest, n, rest', e, e', new, new', mn, waiting⟩
    · rw [done, done', run_nil, run_nil]
      exact ⟨.ok, rfl, st⟩
    · rw [e, e']
      have answer := h.handle mn st
      have handled := h.handle_state mn st
      rcases hv : v.handle m s with ⟨a, s₁⟩
      rcases hw : w.handle n t with ⟨b, t₁⟩
      rw [hv, hw] at answer handled
      obtain rfl : a = b := answer
      have key : NodeId.key n = NodeId.key m := (h.key mn).symm
      rw [key] at waiting
      rcases a with cause | _ | _
      · rw [run_handle_error _ new hv, run_handle_error _ new' hw, key]
        exact ⟨.handle mn, rfl, handled⟩
      · have children := h.read mn handled
        have named := h.read_state mn handled
        rcases rv : v.read m s₁ with ⟨c, s₂⟩
        rcases rw' : w.read n t₁ with ⟨d, t₂⟩
        rw [rv, rw'] at children named
        cases children with
        | ok alike =>
          rw [run_descend _ new hv rv, run_descend _ new' hw rw', key]
          exact ih (alike.queue h.key waiting) named
        | error =>
          rw [run_read_error _ new hv rv, run_read_error _ new' hw rw', key]
          exact ⟨.read mn, rfl, named⟩
      · rw [run_skip _ new hv, run_skip _ new' hw, key]
        exact ih waiting handled

/-- Visitors that behave alike do so with their calls noted. -/
theorem Alike.logged (h : Alike equal same v w) :
    Alike equal (LoggedAlike equal same) v.logged w.logged where
  key := h.key
  handle mn st := h.handle mn st.state
  handle_state {m n s t} mn st := by
    refine ⟨h.handle_state mn st.state, List.rel_append st.calls (.cons ?_ .nil)⟩
    rw [← h.handle mn st.state]
    exact .handle mn
  read mn st := h.read mn st.state
  read_state mn st :=
    ⟨h.read_state mn st.state,
      List.rel_append st.calls (.cons (.read mn (h.read mn st.state)) .nil)⟩

/-- **Traversals by visitors that behave alike are alike, call by call.** -/
theorem traverse_alike (h : Alike equal same v w) (budget : Nat) {start other : ν}
    (visited : List (NodeId.Key ν)) {s : σ} {t : τ} (begun : equal start other) (st : same s t) :
    WalkAlike equal (LoggedAlike equal same) (traverse v.logged budget start visited ⟨s, []⟩)
      (traverse w.logged budget other visited ⟨t, []⟩) := by
  refine run_alike h.logged budget ?_ ⟨st, .nil⟩
  by_cases old : NodeId.key start ∈ visited
  · have old' : NodeId.key other ∈ visited := h.key begun ▸ old
    rw [firsts_cons_of_mem old, firsts_cons_of_mem old']
    exact .nil
  · have old' : NodeId.key other ∉ visited := h.key begun ▸ old
    rw [firsts_cons_of_notMem old, firsts_cons_of_notMem old']
    exact .cons begun .nil

end Depot.Walk
