import Depot.Fault
import Depot.Path

/-!
# Walking a graph breadth first

A walk owns the queue of nodes to come and the set of nodes it has visited, and nothing else. What a
node means, how it is handled and what its children are is up to a visitor, whose state `σ` may
change with every call.

A node is marked as visited when it leaves the queue, so it may be queued more than once but is
handled at most once. The visited set outlives a traversal: a later one never handles a node again.

A visitor may go on naming new nodes for ever, so a traversal has a budget, the number of nodes it
may handle, and running out of it is an outcome of its own.
-/

namespace Depot

/-- **What a walk must know of its nodes**: when two spellings are the same node, in which order
children are queued, and how a node is named in an error. -/
class NodeId (ν : Type) where
  /-- What identifies a node. -/
  Key : Type
  [ordKey : Ord Key]
  [transKey : Std.TransOrd Key]
  [lawfulKey : Std.LawfulEqOrd Key]
  [decKey : DecidableEq Key]
  /-- The identity of a node. -/
  key : ν → Key
  /-- The name of a node in an error. -/
  label : ν → String

attribute [reducible] NodeId.ordKey NodeId.decKey
attribute [instance] NodeId.ordKey NodeId.transKey NodeId.lawfulKey NodeId.decKey

/-- Import paths are nodes by their text. -/
instance : NodeId String where
  Key := String
  key := id
  label := id

/-- Paths are nodes by their components. -/
instance : NodeId Path where
  Key := List Component
  key := Path.components
  label := Path.text

/-- What handling a node leads to. -/
inductive Visit where
  /-- Read the node's children and queue them. -/
  | descend
  /-- Leave the node's children alone. -/
  | skip
  deriving DecidableEq, Repr

/-- **The part of a walk that knows what nodes mean.** -/
structure Visitor (ν σ ε : Type) where
  /-- Handle a node. -/
  handle : ν → σ → Except ε Visit × σ
  /-- The children of a node; asked only after handling it said to descend. -/
  read : ν → σ → Except ε (List ν) × σ

/-- **Why a traversal stopped early.** -/
inductive WalkError (ν ε : Type) where
  /-- The visitor failed to handle a node. -/
  | handle (node : ν) (cause : ε)
  /-- The visitor could not name the children of a node. -/
  | read (node : ν) (cause : ε)
  /-- The budget was used up when a node was to be handled. -/
  | exhausted (node : ν)
  deriving Repr

/-- What a traversal leaves behind. -/
structure Walked (ν σ ε : Type) [NodeId ν] where
  /-- Whether it came to its end. -/
  outcome : Except (WalkError ν ε) Unit
  /-- The nodes visited so far, latest first. -/
  visited : List (NodeId.Key ν)
  /-- The visitor's state. -/
  state : σ

namespace WalkError

variable {ν ε : Type} [NodeId ν]

/-- The name of the node that a traversal stopped at. -/
def node : WalkError ν ε → String
  | handle node _ | read node _ | exhausted node => NodeId.label node

/-- The error as a fault, given the faults of the visitor's errors. -/
def fault (causes : ε → Fault) : WalkError ν ε → Fault
  | handle node cause => (causes cause).within ("failed to handle " ++ NodeId.label node)
  | read node cause => (causes cause).within ("cant read deps of package " ++ NodeId.label node)
  | exhausted node => .ofMessage ("walk budget used up at " ++ NodeId.label node)

end WalkError

namespace Walk

variable {ν σ ε : Type} [NodeId ν]

/-- Whether a node is among the visited ones. -/
def isVisited (visited : List (NodeId.Key ν)) (node : ν) : Bool :=
  decide (NodeId.key node ∈ visited)

/-- Nodes in the order of their identities; spellings of one node keep their order. -/
def inOrder (nodes : List ν) : List ν :=
  nodes.mergeSort fun a b => (compare (NodeId.key a) (NodeId.key b)).isLE

/-- The children to queue: those not yet visited, in order. -/
def pending (visited : List (NodeId.Key ν)) (children : List ν) : List ν :=
  (inOrder children).filter (!isVisited visited ·)

/-- **Work off a queue**, handling at most `budget` nodes. -/
def run (v : Visitor ν σ ε) : (budget : Nat) → (queue : List ν) →
    (visited : List (NodeId.Key ν)) → σ → Walked ν σ ε
  | 0, queue, visited, s =>
    match queue.dropWhile (isVisited visited) with
    | [] => ⟨.ok (), visited, s⟩
    | node :: _ => ⟨.error (.exhausted node), visited, s⟩
  | budget + 1, queue, visited, s =>
    match queue.dropWhile (isVisited visited) with
    | [] => ⟨.ok (), visited, s⟩
    | node :: rest =>
      let visited := NodeId.key node :: visited
      match v.handle node s with
      | (.error cause, s) => ⟨.error (.handle node cause), visited, s⟩
      | (.ok .skip, s) => run v budget rest visited s
      | (.ok .descend, s) =>
        match v.read node s with
        | (.error cause, s) => ⟨.error (.read node cause), visited, s⟩
        | (.ok children, s) => run v budget (rest ++ pending visited children) visited s

/-- **Traverse everything reachable from `start`.** -/
def traverse (v : Visitor ν σ ε) (budget : Nat) (start : ν) (visited : List (NodeId.Key ν))
    (s : σ) : Walked ν σ ε :=
  run v budget [start] visited s

/-- Traverse from each root in turn, until one traversal stops early. Each has the whole budget. -/
def traverseAll (v : Visitor ν σ ε) (budget : Nat) : (roots : List ν) →
    (visited : List (NodeId.Key ν)) → σ → Walked ν σ ε
  | [], visited, s => ⟨.ok (), visited, s⟩
  | root :: roots, visited, s =>
    match traverse v budget root visited s with
    | ⟨.ok (), visited, s⟩ => traverseAll v budget roots visited s
    | stopped => stopped

end Walk

end Depot
