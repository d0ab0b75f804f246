import Depot.Ordered
import Depot.Proofs.Walk.Steps
import Mathlib.Data.List.Pairwise

/-!
# Breadth-first search by the book

A walk marks a node when it leaves the queue. Until then the node may wait there any number of
times, in several spellings, and the walk passes by nodes at two places: when they would be queued
and when they leave the queue. Textbooks mark a node when it enters the queue, so it waits there
once, and once marked it is passed by at a single place (`search`).

The two make the same calls and have the same result (`run_eq_search`). What waits in the textbook's
queue are the nodes in the walk's queue that have not been visited, each where it first occurs
(`firsts`), and what is marked is what is visited or waits. Which spelling of a node is handled is
part of this: sorting keeps spellings of one node in the order they were named in, so the one that
was named first is handled by both (`distinct_eq_firsts`).
-/

namespace Depot.Walk

variable {ν σ ε : Type} [NodeId ν]

/-! ## The search -/

/-- **Nodes in order, each once.** Of several spellings of one node the first stays. -/
def distinct (nodes : List ν) : List ν :=
  nodes.foldl (fun found node => Ordered.insertWith NodeId.key (fun old _ => old) node found) []

/-- **Breadth-first search that marks nodes as they are queued**, handling at most `budget` nodes.
The nodes marked take the place of those visited. -/
def search (v : Visitor ν σ ε) : (budget : Nat) → (queue : List ν) →
    (marked : List (NodeId.Key ν)) → σ → Walked ν σ ε
  | _, [], marked, s => ⟨.ok (), marked, s⟩
  | 0, node :: _, marked, s => ⟨.error (.exhausted node), marked, s⟩
  | budget + 1, node :: queue, marked, s =>
    match v.handle node s with
    | (.error cause, s) => ⟨.error (.handle node cause), marked, s⟩
    | (.ok .skip, s) => search v budget queue marked s
    | (.ok .descend, s) =>
      match v.read node s with
      | (.error cause, s) => ⟨.error (.read node cause), marked, s⟩
      | (.ok children, s) =>
        let fresh := (distinct children).filter (!isVisited marked ·)
        search v budget (queue ++ fresh) (fresh.map NodeId.key ++ marked) s

/-- **Search everything reachable from `start`**, past the nodes visited before. -/
def searchFrom (v : Visitor ν σ ε) (budget : Nat) (start : ν) (visited : List (NodeId.Key ν))
    (s : σ) : Walked ν σ ε :=
  if isVisited visited start then ⟨.ok (), visited, s⟩
  else search v budget [start] (NodeId.key start :: visited) s

/-! ## First occurrences -/

/-- **The nodes of a queue that are to be handled**: those not visited, each where it first
occurs. -/
def firsts : List (NodeId.Key ν) → List ν → List ν
  | _, [] => []
  | visited, node :: queue =>
    if NodeId.key node ∈ visited then firsts visited queue
    else node :: firsts (NodeId.key node :: visited) queue

section Firsts

variable {visited marked : List (NodeId.Key ν)} {node : ν} {queue more : List ν}

@[simp] theorem firsts_nil : firsts visited ([] : List ν) = [] := rfl

theorem firsts_cons_of_mem (old : NodeId.key node ∈ visited) :
    firsts visited (node :: queue) = firsts visited queue := if_pos old

theorem firsts_cons_of_notMem (new : NodeId.key node ∉ visited) :
    firsts visited (node :: queue) = node :: firsts (NodeId.key node :: visited) queue :=
  if_neg new

theorem firsts_congr (same : ∀ k, k ∈ visited ↔ k ∈ marked) :
    firsts visited queue = firsts marked queue := by
  induction queue generalizing visited marked with
  | nil => rfl
  | cons node queue ih =>
    by_cases old : NodeId.key node ∈ visited
    · rw [firsts_cons_of_mem old, firsts_cons_of_mem ((same _).1 old), ih same]
    · rw [firsts_cons_of_notMem old, firsts_cons_of_notMem (mt (same _).2 old)]
      exact congrArg (node :: ·) (ih fun k => by simp [same])

theorem firsts_dropWhile :
    firsts visited (queue.dropWhile (isVisited visited)) = firsts visited queue := by
  induction queue with
  | nil => rfl
  | cons node queue ih =>
    by_cases old : NodeId.key node ∈ visited
    · rw [List.dropWhile_cons_of_pos (isVisited_iff.2 old), firsts_cons_of_mem old, ih]
    · rw [List.dropWhile_cons_of_neg (by simpa using old)]

/-- What comes later in a queue counts where it did not occur before. -/
theorem firsts_append :
    firsts visited (queue ++ more)
      = firsts visited queue ++ firsts (queue.map NodeId.key ++ visited) more := by
  induction queue generalizing visited with
  | nil => rfl
  | cons node queue ih =>
    rw [List.cons_append]
    by_cases old : NodeId.key node ∈ visited
    · rw [firsts_cons_of_mem old, firsts_cons_of_mem old, ih]
      exact congrArg (firsts visited queue ++ ·) (firsts_congr fun k => by grind)
    · rw [firsts_cons_of_notMem old, firsts_cons_of_notMem old, ih, List.cons_append]
      exact congrArg (node :: firsts _ queue ++ ·) (firsts_congr fun k => by grind)

/-- Leaving out visited nodes beforehand changes nothing. -/
theorem firsts_filter (sub : ∀ k ∈ visited, k ∈ marked) :
    firsts marked (queue.filter (!isVisited visited ·)) = firsts marked queue := by
  induction queue generalizing marked with
  | nil => rfl
  | cons node queue ih =>
    by_cases old : NodeId.key node ∈ visited
    · rw [List.filter_cons_of_neg (by simpa using old), firsts_cons_of_mem (sub _ old), ih sub]
    · rw [List.filter_cons_of_pos (by simpa [isVisited] using old)]
      by_cases known : NodeId.key node ∈ marked
      · rw [firsts_cons_of_mem known, firsts_cons_of_mem known, ih sub]
      · rw [firsts_cons_of_notMem known, firsts_cons_of_notMem known,
          ih fun k hk => List.mem_cons_of_mem _ (sub k hk)]

/-- Leaving out marked nodes afterwards is having them visited. -/
theorem filter_firsts :
    (firsts visited queue).filter (!isVisited marked ·) = firsts (marked ++ visited) queue := by
  induction queue generalizing visited with
  | nil => rfl
  | cons node queue ih =>
    have grown : firsts (marked ++ NodeId.key node :: visited) queue
        = firsts (NodeId.key node :: (marked ++ visited)) queue :=
      firsts_congr fun k => by grind
    by_cases old : NodeId.key node ∈ visited
    · rw [firsts_cons_of_mem old, firsts_cons_of_mem (List.mem_append_right _ old), ih]
    · rw [firsts_cons_of_notMem old]
      by_cases known : NodeId.key node ∈ marked
      · have again : NodeId.key node ∈ marked ++ visited := List.mem_append_left _ known
        rw [List.filter_cons_of_neg (by simpa using known), firsts_cons_of_mem again, ih, grown]
        exact firsts_congr fun k => by grind
      · have fresh : NodeId.key node ∉ marked ++ visited := by simp [known, old]
        rw [List.filter_cons_of_pos (by simpa [isVisited] using known),
          firsts_cons_of_notMem fresh, ih, grown]

theorem mem_map_firsts {k : NodeId.Key ν} :
    k ∈ (firsts visited queue).map NodeId.key ↔ k ∉ visited ∧ k ∈ queue.map NodeId.key := by
  induction queue generalizing visited with
  | nil => simp
  | cons node queue ih =>
    by_cases old : NodeId.key node ∈ visited
    · rw [firsts_cons_of_mem old, ih]
      grind
    · rw [firsts_cons_of_notMem old, List.map_cons, List.mem_cons, ih]
      grind

/-- A node is a first occurrence if it is new and is what is found under its identity. -/
theorem mem_firsts :
    node ∈ firsts visited queue ↔
      NodeId.key node ∉ visited ∧
        Ordered.lookup NodeId.key (NodeId.key node) queue = some node := by
  induction queue generalizing visited with
  | nil => simp [Ordered.lookup]
  | cons head queue ih =>
    have found : Ordered.lookup NodeId.key (NodeId.key node) (head :: queue) =
        if NodeId.key head = NodeId.key node then some head
        else Ordered.lookup NodeId.key (NodeId.key node) queue := by
      by_cases same : NodeId.key head = NodeId.key node
      · simp [Ordered.lookup, same]
      · simp [Ordered.lookup, same]
    rw [found]
    by_cases old : NodeId.key head ∈ visited
    · rw [firsts_cons_of_mem old, ih]
      refine and_congr_right fun new => ?_
      rw [if_neg fun same : NodeId.key head = NodeId.key node => new (same ▸ old)]
    · rw [firsts_cons_of_notMem old, List.mem_cons, ih, List.mem_cons, not_or]
      by_cases same : NodeId.key head = NodeId.key node
      · rw [if_pos same, ← same]
        simp [old, eq_comm]
      · have ne : node ≠ head := fun e => same (e ▸ rfl)
        simp [same, ne, Ne.symm same]

end Firsts

/-! ## Sorting and first occurrences -/

section Distinct

variable (nodes : List ν) (k : NodeId.Key ν)

theorem isLE_trans (a b c : ν)
    (ab : (compare (NodeId.key a) (NodeId.key b)).isLE = true)
    (bc : (compare (NodeId.key b) (NodeId.key c)).isLE = true) :
    (compare (NodeId.key a) (NodeId.key c)).isLE = true :=
  Std.TransCmp.isLE_trans ab bc

theorem isLE_total (a b : ν) :
    ((compare (NodeId.key a) (NodeId.key b)).isLE ||
      (compare (NodeId.key b) (NodeId.key a)).isLE) = true := by
  have swap : compare (NodeId.key b) (NodeId.key a)
      = (compare (NodeId.key a) (NodeId.key b)).swap := Std.OrientedCmp.eq_swap
  rw [swap]
  cases compare (NodeId.key a) (NodeId.key b) <;> rfl

/-- **Sorting keeps the spellings of one node in their order**, so the first one found stays
first. -/
theorem lookup_inOrder :
    Ordered.lookup NodeId.key k (inOrder nodes) = Ordered.lookup NodeId.key k nodes := by
  let spelling (node : ν) : Bool := compare (NodeId.key node) k == .eq
  -- the spellings of one node are sorted as they are, so they are a part of the sorted list
  have tied : (nodes.filter spelling).Pairwise fun a b =>
      (compare (NodeId.key a) (NodeId.key b)).isLE = true := by
    refine List.pairwise_of_forall_mem_list fun a ha b hb => ?_
    have ha : NodeId.key a = k := by simpa [spelling] using (List.mem_filter.1 ha).2
    have hb : NodeId.key b = k := by simpa [spelling] using (List.mem_filter.1 hb).2
    simp [ha, hb]
  have part : (nodes.filter spelling).Sublist ((inOrder nodes).filter spelling) := by
    have sub := (List.sublist_mergeSort isLE_trans isLE_total tied List.filter_sublist).filter
      spelling
    simpa [List.filter_filter, inOrder] using sub
  have same : nodes.filter spelling = (inOrder nodes).filter spelling :=
    part.eq_of_length ((List.mergeSort_perm nodes _).filter spelling).length_eq.symm
  have first (l : List ν) : Ordered.lookup NodeId.key k l = (l.filter spelling).head? :=
    List.head?_filter.symm
  rw [first, first, same]

/-- What is found after putting in nodes one by one is what was there, or else the first one put
in. -/
theorem lookup_foldl_insertWith {found : List ν} (sorted : Ordered.Sorted NodeId.key found) :
    Ordered.lookup NodeId.key k (nodes.foldl
        (fun found node => Ordered.insertWith NodeId.key (fun old _ => old) node found) found)
      = (Ordered.lookup NodeId.key k found <|> Ordered.lookup NodeId.key k nodes) := by
  induction nodes generalizing found with
  | nil => simp [Ordered.lookup]
  | cons node nodes ih =>
    rw [List.foldl_cons, ih (Ordered.sorted_insertWith (fun _ _ => rfl) sorted),
      Ordered.lookup_insertWith (fun _ _ => rfl) sorted]
    by_cases same : NodeId.key node = k
    · cases Ordered.lookup NodeId.key k found <;> simp [Ordered.lookup, same]
    · simp [Ordered.lookup, same]

theorem lookup_distinct :
    Ordered.lookup NodeId.key k (distinct nodes) = Ordered.lookup NodeId.key k nodes :=
  lookup_foldl_insertWith nodes k (Ordered.sorted_nil _)

theorem sorted_distinct : Ordered.Sorted NodeId.key (distinct nodes) :=
  List.foldlRecOn nodes _ (Ordered.sorted_nil _) fun _ sorted _ _ =>
    Ordered.sorted_insertWith (fun _ _ => rfl) sorted

/-- First occurrences in a sorted queue are strictly sorted. -/
theorem sorted_firsts {visited : List (NodeId.Key ν)} {queue : List ν}
    (sorted : queue.Pairwise fun a b => (compare (NodeId.key a) (NodeId.key b)).isLE = true) :
    Ordered.Sorted NodeId.key (firsts visited queue) := by
  induction queue generalizing visited with
  | nil => exact Ordered.sorted_nil _
  | cons node queue ih =>
    obtain ⟨first, rest⟩ := List.pairwise_cons.1 sorted
    by_cases old : NodeId.key node ∈ visited
    · rw [firsts_cons_of_mem old]
      exact ih rest
    · rw [firsts_cons_of_notMem old]
      refine List.pairwise_cons.2 ⟨fun other later => ?_, ih rest⟩
      obtain ⟨new, found⟩ := mem_firsts.1 later
      have le := first other (List.mem_of_find?_eq_some found)
      have ne : compare (NodeId.key node) (NodeId.key other) ≠ .eq := fun same =>
        new (Std.LawfulEqOrd.eq_of_compare same ▸ List.mem_cons_self)
      cases order : compare (NodeId.key node) (NodeId.key other) <;> simp_all

/-- **Sorting without repetition is sorting, then keeping first occurrences.** -/
theorem distinct_eq_firsts : distinct nodes = firsts [] (inOrder nodes) := by
  refine Ordered.eq_of_mem_iff (sorted_distinct nodes)
    (sorted_firsts (List.pairwise_mergeSort isLE_trans isLE_total nodes)) fun node => ?_
  rw [mem_firsts, lookup_inOrder, ← lookup_distinct,
    Ordered.lookup_eq_some_iff (sorted_distinct nodes)]
  simp

/-- **What a reading adds to the textbook's queue**: the first occurrences among what it adds to a
walk's queue. -/
theorem firsts_pending {visited marked : List (NodeId.Key ν)} (children : List ν)
    (sub : ∀ k ∈ visited, k ∈ marked) :
    firsts marked (pending visited children)
      = (distinct children).filter (!isVisited marked ·) := by
  rw [distinct_eq_firsts, filter_firsts, List.append_nil, pending, firsts_filter sub]

/-- What is visited or waits is what is visited or is still to be handled. -/
theorem mem_visited_or_firsts {visited : List (NodeId.Key ν)} {queue : List ν} {k : NodeId.Key ν} :
    (k ∈ visited ∨ k ∈ (firsts visited queue).map NodeId.key) ↔
      k ∈ queue.map NodeId.key ++ visited := by
  rw [mem_map_firsts, List.mem_append]
  by_cases old : k ∈ visited <;> simp [old]

/-- **Queueing children adds to what is to be handled** those that are not marked, in order and each
once, where the nodes marked are those visited and those that wait. -/
theorem firsts_append_pending {visited marked : List (NodeId.Key ν)} {queue : List ν}
    (marks : ∀ k, k ∈ marked ↔ k ∈ visited ∨ k ∈ (firsts visited queue).map NodeId.key)
    (children : List ν) :
    firsts visited (queue ++ pending visited children)
      = firsts visited queue ++ (distinct children).filter (!isVisited marked ·) := by
  rw [firsts_append, ← firsts_pending children fun k seen => (marks k).2 (.inl seen)]
  exact congrArg _ (firsts_congr fun k => by rw [marks, mem_visited_or_firsts])

end Distinct

/-! ## The search does what a walk does -/

/-- **Two walks end alike**: they have the same outcome and leave the same state, and where they
come to their end, the nodes visited by one are those marked by the other. -/
structure EndsAlike (walked found : Walked ν σ ε) : Prop where
  /-- The outcome is the same. -/
  outcome : walked.outcome = found.outcome
  /-- The visitor's state is the same. -/
  state : walked.state = found.state
  /-- At the end nothing waits, so what is marked is visited. -/
  visited : walked.outcome = .ok () → ∀ k, k ∈ walked.visited ↔ k ∈ found.visited

/-- **A walk does what the textbook does**, if what is marked is what is visited or waits. -/
theorem run_eq_search (v : Visitor ν σ ε) (budget : Nat) (queue : List ν)
    {visited marked : List (NodeId.Key ν)} (s : σ)
    (marks : ∀ k, k ∈ marked ↔ k ∈ visited ∨ k ∈ (firsts visited queue).map NodeId.key) :
    EndsAlike (run v budget queue visited s) (search v budget (firsts visited queue) marked s) := by
  induction budget generalizing queue visited marked s with
  | zero =>
    rw [← firsts_dropWhile] at marks ⊢
    rw [← run_dropWhile]
    rcases next : queue.dropWhile (isVisited visited) with _ | ⟨node, rest⟩ <;> rw [next] at marks
    · exact ⟨rfl, rfl, fun _ k => by simpa [search, run_nil] using (marks k).symm⟩
    · have new := new_of_dropWhile next
      rw [run_exhausted new, firsts_cons_of_notMem new, search]
      exact ⟨rfl, rfl, fun h => by cases h⟩
  | succ budget ih =>
    rw [← firsts_dropWhile] at marks ⊢
    rw [← run_dropWhile]
    rcases next : queue.dropWhile (isVisited visited) with _ | ⟨node, rest⟩ <;> rw [next] at marks
    · exact ⟨rfl, rfl, fun _ k => by simpa [search, run_nil] using (marks k).symm⟩
    · have new := new_of_dropWhile next
      rw [firsts_cons_of_notMem new] at marks ⊢
      -- the node moves from the queue to the visited nodes, and was marked before
      have marks (k : NodeId.Key ν) : k ∈ marked ↔ k ∈ NodeId.key node :: visited ∨
          k ∈ (firsts (NodeId.key node :: visited) rest).map NodeId.key := by
        rw [marks, List.map_cons, List.mem_cons, List.mem_cons, or_left_comm, or_assoc]
      rw [search]
      rcases handled : v.handle node s with ⟨cause | visit, s₁⟩
      · rw [run_handle_error _ new handled]
        exact ⟨rfl, rfl, fun h => by cases h⟩
      · cases visit with
        | skip =>
          rw [run_skip _ new handled]
          exact ih rest s₁ marks
        | descend =>
          rcases read : v.read node s₁ with ⟨cause | children, s₂⟩
          · rw [run_read_error _ new handled read]
            simp only [read]
            exact ⟨rfl, rfl, fun h => by cases h⟩
          · rw [run_descend _ new handled read]
            simp only [read]
            have queued := firsts_append_pending marks children
            rw [← queued]
            refine ih _ s₂ fun k => ?_
            rw [queued, List.map_append, List.mem_append, List.mem_append, ← or_assoc, ← marks,
              or_comm]

/-- **A traversal does what the textbook does.** -/
theorem traverse_endsAlike (v : Visitor ν σ ε) (budget : Nat) (start : ν)
    (visited : List (NodeId.Key ν)) (s : σ) :
    EndsAlike (traverse v budget start visited s) (searchFrom v budget start visited s) := by
  unfold traverse searchFrom
  by_cases old : NodeId.key start ∈ visited
  · rw [if_pos (isVisited_iff.2 old), run_pass budget old, run_nil]
    exact ⟨rfl, rfl, fun _ _ => .rfl⟩
  · rw [if_neg (by simpa using old)]
    have found : EndsAlike (run v budget [start] visited s)
        (search v budget (firsts visited [start]) (NodeId.key start :: visited) s) :=
      run_eq_search v budget [start] s fun k => by
        rw [mem_visited_or_firsts, List.map_singleton, List.singleton_append]
    rwa [firsts_cons_of_notMem old, firsts_nil] at found

end Depot.Walk
