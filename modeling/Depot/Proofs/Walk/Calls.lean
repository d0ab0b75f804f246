import Depot.Walk

/-!
# The calls of a walk

What a walk promises its visitor is a promise about calls: which are made, how often, and in which
order. A logged visitor notes every call with its answer, behind the state it works on, so that the
calls of a walk are part of what the walk leaves behind.

Logging changes nothing else: a visitor whose state is part of a larger one walks the same way
beside it (`run_project`), and the log is one such addition (`traverse_logged`).
-/

namespace Depot

/-- **A call on a visitor**, with its answer. -/
inductive VisitorCall (ν ε : Type) where
  /-- A node is handled. -/
  | handle (node : ν) (answer : Except ε Visit)
  /-- The children of a node are read. -/
  | read (node : ν) (answer : Except ε (List ν))

/-- **A visitor's state with the calls made so far**, earliest first. -/
structure Logged (ν σ ε : Type) where
  /-- The state. -/
  state : σ
  /-- The calls. -/
  calls : List (VisitorCall ν ε) := []

/-- A visitor whose calls are noted, with their answers. -/
def Visitor.logged {ν σ ε : Type} (v : Visitor ν σ ε) : Visitor ν (Logged ν σ ε) ε where
  handle node l :=
    let (answer, state) := v.handle node l.state
    (answer, ⟨state, l.calls ++ [.handle node answer]⟩)
  read node l :=
    let (answer, state) := v.read node l.state
    (answer, ⟨state, l.calls ++ [.read node answer]⟩)

namespace VisitorCall

variable {ν ε : Type}

/-- The call failed. -/
def Failed : VisitorCall ν ε → Prop
  | handle _ (.error _) | read _ (.error _) => True
  | _ => False

/-- The nodes that calls handle, in order. -/
def handledNodes (calls : List (VisitorCall ν ε)) : List ν :=
  calls.filterMap fun
    | handle node _ => some node
    | read .. => none

/-- The nodes that calls read the children of, in order. -/
def readNodes (calls : List (VisitorCall ν ε)) : List ν :=
  calls.filterMap fun
    | handle .. => none
    | read node _ => some node

/-- The nodes that are handled with the answer to descend, in order. -/
def enteredNodes (calls : List (VisitorCall ν ε)) : List ν :=
  calls.filterMap fun
    | handle node (.ok .descend) => some node
    | _ => none

/-- The identities of the nodes that calls handle. -/
def handledKeys [NodeId ν] (calls : List (VisitorCall ν ε)) : List (NodeId.Key ν) :=
  (handledNodes calls).map NodeId.key

/-- The identities of the nodes that calls read the children of. -/
def readKeys [NodeId ν] (calls : List (VisitorCall ν ε)) : List (NodeId.Key ν) :=
  (readNodes calls).map NodeId.key

section Lists

variable (calls made : List (VisitorCall ν ε)) (node : ν)

@[simp] theorem handledNodes_nil : handledNodes ([] : List (VisitorCall ν ε)) = [] := rfl

@[simp] theorem readNodes_nil : readNodes ([] : List (VisitorCall ν ε)) = [] := rfl

@[simp] theorem enteredNodes_nil : enteredNodes ([] : List (VisitorCall ν ε)) = [] := rfl

@[simp] theorem handledNodes_append :
    handledNodes (calls ++ made) = handledNodes calls ++ handledNodes made :=
  List.filterMap_append

@[simp] theorem readNodes_append :
    readNodes (calls ++ made) = readNodes calls ++ readNodes made :=
  List.filterMap_append

@[simp] theorem enteredNodes_append :
    enteredNodes (calls ++ made) = enteredNodes calls ++ enteredNodes made :=
  List.filterMap_append

@[simp] theorem handledNodes_cons_handle (answer : Except ε Visit) :
    handledNodes (handle node answer :: calls) = node :: handledNodes calls := rfl

@[simp] theorem handledNodes_cons_read (answer : Except ε (List ν)) :
    handledNodes (read node answer :: calls) = handledNodes calls := rfl

@[simp] theorem readNodes_cons_handle (answer : Except ε Visit) :
    readNodes (handle node answer :: calls) = readNodes calls := rfl

@[simp] theorem readNodes_cons_read (answer : Except ε (List ν)) :
    readNodes (read node answer :: calls) = node :: readNodes calls := rfl

@[simp] theorem enteredNodes_cons_skip :
    enteredNodes (handle node (.ok .skip) :: calls) = enteredNodes calls := rfl

@[simp] theorem enteredNodes_cons_error (cause : ε) :
    enteredNodes (handle node (.error cause) :: calls) = enteredNodes calls := rfl

@[simp] theorem enteredNodes_cons_descend :
    enteredNodes (handle node (.ok .descend) :: calls) = node :: enteredNodes calls := rfl

@[simp] theorem enteredNodes_cons_read (answer : Except ε (List ν)) :
    enteredNodes (read node answer :: calls) = enteredNodes calls := rfl

@[simp] theorem handledKeys_nil [NodeId ν] :
    handledKeys ([] : List (VisitorCall ν ε)) = [] := rfl

@[simp] theorem handledKeys_append [NodeId ν] :
    handledKeys (calls ++ made) = handledKeys calls ++ handledKeys made := by
  simp [handledKeys]

@[simp] theorem handledKeys_cons_handle [NodeId ν] (answer : Except ε Visit) :
    handledKeys (handle node answer :: calls) = NodeId.key node :: handledKeys calls := rfl

@[simp] theorem handledKeys_cons_read [NodeId ν] (answer : Except ε (List ν)) :
    handledKeys (read node answer :: calls) = handledKeys calls := rfl

end Lists

theorem mem_handledNodes {calls : List (VisitorCall ν ε)} {node : ν} :
    node ∈ handledNodes calls ↔ ∃ answer, handle node answer ∈ calls := by
  unfold handledNodes
  rw [List.mem_filterMap]
  constructor
  · rintro ⟨call, hc, h⟩
    cases call with
    | handle n answer => exact ⟨answer, by simp_all⟩
    | read n answer => cases h
  · rintro ⟨answer, h⟩
    exact ⟨_, h, rfl⟩

theorem mem_readNodes {calls : List (VisitorCall ν ε)} {node : ν} :
    node ∈ readNodes calls ↔ ∃ answer, read node answer ∈ calls := by
  unfold readNodes
  rw [List.mem_filterMap]
  constructor
  · rintro ⟨call, hc, h⟩
    cases call with
    | handle n answer => cases h
    | read n answer => exact ⟨answer, by simp_all⟩
  · rintro ⟨answer, h⟩
    exact ⟨_, h, rfl⟩

/-- A node is entered exactly if a call handles it with the answer to descend. -/
theorem mem_enteredNodes {calls : List (VisitorCall ν ε)} {node : ν} :
    node ∈ enteredNodes calls ↔ handle node (.ok .descend) ∈ calls := by
  unfold enteredNodes
  rw [List.mem_filterMap]
  constructor
  · rintro ⟨call, hc, h⟩
    split at h
    · obtain rfl := Option.some.inj h
      exact hc
    · cases h
  · exact fun h => ⟨_, h, rfl⟩

/-- Where no node is handled twice, the answer of a node's handling is the only one. -/
theorem answer_unique [NodeId ν] {calls : List (VisitorCall ν ε)} {m n : ν}
    {a b : Except ε Visit} (once : (handledKeys calls).Nodup) (hm : handle m a ∈ calls)
    (hn : handle n b ∈ calls) (same : NodeId.key m = NodeId.key n) : m = n ∧ a = b := by
  have key_mem {l : List (VisitorCall ν ε)} {x : ν} {c : Except ε Visit}
      (h : handle x c ∈ l) : NodeId.key x ∈ handledKeys l :=
    List.mem_map_of_mem (mem_handledNodes.2 ⟨c, h⟩)
  induction calls with
  | nil => cases hm
  | cons call calls ih =>
    cases call with
    | read x c => exact ih once (by simpa using hm) (by simpa using hn)
    | handle x c =>
      obtain ⟨absent, once⟩ : NodeId.key x ∉ handledKeys calls ∧ (handledKeys calls).Nodup :=
        List.nodup_cons.1 once
      rw [List.mem_cons, handle.injEq] at hm hn
      rcases hm with ⟨rfl, rfl⟩ | hm <;> rcases hn with ⟨rfl, rfl⟩ | hn
      · exact ⟨rfl, rfl⟩
      · exact absurd (same ▸ key_mem hn) absent
      · exact absurd (same ▸ key_mem hm) absent
      · exact ih once hm hn

/-- The nodes that are entered are among those handled. -/
theorem enteredNodes_sublist (calls : List (VisitorCall ν ε)) :
    (enteredNodes calls).Sublist (handledNodes calls) := by
  induction calls with
  | nil => exact .slnil
  | cons call calls ih =>
    cases call with
    | read node answer => exact ih
    | handle node answer =>
      rcases answer with cause | _ | _
      · exact ih.cons node
      · exact ih.cons_cons node
      · exact ih.cons node

end VisitorCall

namespace Walk

variable {ν σ τ ε : Type}

/-! ## One traversal after another -/

section TraverseAll

variable [NodeId ν] {v : Visitor ν σ ε} {budget : Nat} {root : ν} {visited : List (NodeId.Key ν)}
  {s : σ}

/-- After a traversal that came to its end, the others follow. -/
theorem traverseAll_cons_of_ok {visited' : List (NodeId.Key ν)} {s' : σ} (roots : List ν)
    (h : traverse v budget root visited s = ⟨.ok (), visited', s'⟩) :
    traverseAll v budget (root :: roots) visited s = traverseAll v budget roots visited' s' := by
  rw [traverseAll, h]

theorem traverseAll_cons_of_error {visited' : List (NodeId.Key ν)} {s' : σ} {e : WalkError ν ε}
    (roots : List ν) (h : traverse v budget root visited s = ⟨.error e, visited', s'⟩) :
    traverseAll v budget (root :: roots) visited s = ⟨.error e, visited', s'⟩ := by
  rw [traverseAll, h]

end TraverseAll

/-! ## Walking beside a larger state -/

/-- **The visitor `w` is the visitor `v` as seen in a part of its state**: it gives the same answers
and does the same to that part. -/
structure Projects (part : σ → τ) (v : Visitor ν σ ε) (w : Visitor ν τ ε) : Prop where
  /-- Nodes are handled alike. -/
  handle : ∀ node s, w.handle node (part s) = ((v.handle node s).1, part (v.handle node s).2)
  /-- Children are read alike. -/
  read : ∀ node s, w.read node (part s) = ((v.read node s).1, part (v.read node s).2)

/-- What a walk leaves behind, with only a part of the visitor's state. -/
def project [NodeId ν] (part : σ → τ) (w : Walked ν σ ε) : Walked ν τ ε :=
  ⟨w.outcome, w.visited, part w.state⟩

theorem projects_logged (v : Visitor ν σ ε) : Projects Logged.state v.logged v :=
  ⟨fun _ _ => rfl, fun _ _ => rfl⟩

theorem Projects.comp {ρ : Type} {v : Visitor ν σ ε} {w : Visitor ν τ ε} {u : Visitor ν ρ ε}
    {part : σ → τ} {part' : τ → ρ} (h : Projects part v w) (h' : Projects part' w u) :
    Projects (part' ∘ part) v u where
  handle node s := by rw [Function.comp, h'.handle, h.handle]; rfl
  read node s := by rw [Function.comp, h'.read, h.read]; rfl

variable [NodeId ν] {v : Visitor ν σ ε} {w : Visitor ν τ ε} {part : σ → τ}

/-- **A visitor walks the same way whatever is kept beside its state.** -/
theorem run_project (h : Projects part v w) (budget : Nat) (queue : List ν)
    (visited : List (NodeId.Key ν)) (s : σ) :
    run w budget queue visited (part s) = project part (run v budget queue visited s) := by
  induction budget generalizing queue visited s with
  | zero =>
    unfold run
    cases queue.dropWhile (isVisited visited) <;> rfl
  | succ budget ih =>
    unfold run
    cases queue.dropWhile (isVisited visited) with
    | nil => rfl
    | cons node rest =>
      simp only [h.handle node s]
      obtain ⟨answer, s₁⟩ := v.handle node s
      cases answer with
      | error cause => rfl
      | ok visit =>
        cases visit with
        | skip => exact ih _ _ _
        | descend =>
          simp only [h.read node s₁]
          obtain ⟨answer, s₂⟩ := v.read node s₁
          cases answer with
          | error cause => rfl
          | ok children => exact ih _ _ _

theorem traverse_project (h : Projects part v w) (budget : Nat) (start : ν)
    (visited : List (NodeId.Key ν)) (s : σ) :
    traverse w budget start visited (part s)
      = project part (traverse v budget start visited s) :=
  run_project h budget [start] visited s

theorem traverseAll_project (h : Projects part v w) (budget : Nat) (roots : List ν)
    (visited : List (NodeId.Key ν)) (s : σ) :
    traverseAll w budget roots visited (part s)
      = project part (traverseAll v budget roots visited s) := by
  induction roots generalizing visited s with
  | nil => rfl
  | cons root roots ih =>
    have first := traverse_project h budget root visited s
    rcases walked : traverse v budget root visited s with ⟨e | _, visited', s'⟩
    · rw [walked] at first
      rw [traverseAll_cons_of_error roots walked, traverseAll_cons_of_error roots first]
      rfl
    · rw [walked] at first
      rw [traverseAll_cons_of_ok roots walked, traverseAll_cons_of_ok roots first]
      exact ih visited' s'

/-- **Logging changes nothing**: the walk has the same outcome, visits the same nodes and leaves the
visitor in the same state. -/
theorem traverse_logged (v : Visitor ν σ ε) (budget : Nat) (start : ν)
    (visited : List (NodeId.Key ν)) (s : σ) (calls : List (VisitorCall ν ε)) :
    traverse v budget start visited s
      = project Logged.state (traverse v.logged budget start visited ⟨s, calls⟩) :=
  traverse_project (projects_logged v) budget start visited ⟨s, calls⟩

theorem traverseAll_logged (v : Visitor ν σ ε) (budget : Nat) (roots : List ν)
    (visited : List (NodeId.Key ν)) (s : σ) (calls : List (VisitorCall ν ε)) :
    traverseAll v budget roots visited s
      = project Logged.state (traverseAll v.logged budget roots visited ⟨s, calls⟩) :=
  traverseAll_project (projects_logged v) budget roots visited ⟨s, calls⟩

end Walk

end Depot
