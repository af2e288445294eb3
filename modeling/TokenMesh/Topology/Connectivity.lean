import TokenMesh.Topology

namespace TokenMesh

/-!
# Connectivity

Whether the nodes that are up can all reach each other through nodes that are up.

* `Topology.unreached`: a search from some nodes, which leaves what it does not reach;
* `Topology.isConnectedWithout?`: whether a search from the first node that is up reaches all
  others that are up.

The search only knows the nodes below the node count.  It has no answer where it reaches a node
with a link that leads out of them.
-/

namespace Topology

/-- The nodes of a list that are among some others. -/
def among (near nodes : List Nat) : List Nat := nodes.filter near.contains

/-- The nodes of a list that are not among some others. -/
def apart (near nodes : List Nat) : List Nat := nodes.filter fun b => !near.contains b

/-- Each node of a list is either among some others or not. -/
theorem length_among_add_length_apart (near nodes : List Nat) :
    (among near nodes).length + (apart near nodes).length = nodes.length := by
  induction nodes with
  | nil => rfl
  | cons b l ih =>
    simp only [among, apart, List.filter_cons] at *
    cases near.contains b
    · simp only [Bool.false_eq_true, ↓reduceIte, Bool.not_false, List.length_cons]; omega
    · simp only [↓reduceIte, Bool.not_true, Bool.false_eq_true, List.length_cons]; omega

/-- The nodes of `unseen` that a search does not reach from the nodes of `todo`.  A step takes
    one node to do, and moves its neighbors from the unseen nodes to those to do. -/
def unreached (t : Topology) (unseen todo : List Nat) : Option (List Nat) :=
  match todo with
  | [] => some unseen
  | a :: todo =>
    let near := t.neighbors a
    if near.any (t.nodeCount ≤ ·) then none
    else t.unreached (apart near unseen) (among near unseen ++ todo)
termination_by 2 * unseen.length + todo.length
decreasing_by
  have := length_among_add_length_apart (t.neighbors a) unseen
  simp only [List.length_append, List.length_cons]
  omega

/-- Whether a node is marked as down; nodes beyond the marks are up. -/
def isMarked (down : List Bool) (a : Nat) : Bool := down.getD a false

/-- The nodes that are not marked as down, in ascending order. -/
def live (t : Topology) (down : List Bool) : List Nat :=
  (List.range t.nodeCount).filter fun a => !isMarked down a

/-- Whether the nodes that are not marked as down can all reach each other without the others. -/
def isConnectedWithout? (t : Topology) (down : List Bool) : Option Bool :=
  match t.live down with
  | [] => some true
  | a :: others => (t.unreached others [a]).map List.isEmpty

end Topology

end TokenMesh
