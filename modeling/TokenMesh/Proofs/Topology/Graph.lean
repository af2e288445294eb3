import Mathlib.Combinatorics.SimpleGraph.Metric
import TokenMesh.Topology

namespace TokenMesh

/-!
# Topologies as graphs

A topology is a graph on the nodes below its node count.  Links have no direction, and no node is
linked to itself.

* `Topology.mem_neighbors_iff`: the neighbors of a node are the nodes that it is linked to;
* `Topology.graph`: the graph of a topology;
* `Topology.Within`: what can be reached over so many links, and `Topology.within_dist`: a node is
  reached over as many links as its distance says.
-/

namespace Topology

/-! ### Links -/

/-- The other end of a link is what it joins a node to. -/
theorem otherEnd?_eq_some_iff {l : Link} {i j : Nat} :
    l.otherEnd? i = some j ↔ l.joins i j = true := by
  -- `i` is the lower end, the higher one, or neither
  have hlt := l.low_lt_high
  simp only [Link.otherEnd?, Link.joins, Bool.or_eq_true, Bool.and_eq_true, beq_iff_eq]
  split
  · simp only [Option.some.injEq]
    omega
  · split
    · simp only [Option.some.injEq]
      omega
    · simp only [reduceCtorEq, false_iff]
      omega

theorem isLinked_iff {t : Topology} {i j : Nat} :
    t.isLinked i j = true ↔ ∃ l ∈ t.links, l.joins i j = true := by
  unfold isLinked lossRate?
  rw [Option.isSome_map, List.find?_isSome]

/-- The neighbors of a node are the nodes that it is linked to. -/
theorem mem_neighbors_iff {t : Topology} {i j : Nat} :
    j ∈ t.neighbors i ↔ t.isLinked i j = true := by
  unfold neighbors
  rw [isLinked_iff, List.mem_filterMap]
  simp only [otherEnd?_eq_some_iff]

theorem joins_comm (l : Link) (i j : Nat) : l.joins i j = l.joins j i :=
  Bool.or_comm ..

theorem isLinked_comm (t : Topology) (i j : Nat) : t.isLinked i j = t.isLinked j i := by
  unfold isLinked lossRate?
  simp only [joins_comm _ i j]

/-- Loss rates make no difference to who hears whom. -/
@[simp] theorem isLinked_setLossRate (t : Topology) (rate : Binary64) (i j : Nat) :
    (t.setLossRate rate).isLinked i j = t.isLinked i j := by
  unfold isLinked lossRate? setLossRate
  rw [List.find?_map, Option.map_map, Option.isSome_map, Option.isSome_map]
  rfl

/-- No node is linked to itself. -/
theorem ne_of_isLinked {t : Topology} {i j : Nat} (h : t.isLinked i j = true) : i ≠ j := by
  rintro rfl
  obtain ⟨l, _, hl⟩ := isLinked_iff.1 h
  have hlt := l.low_lt_high
  simp only [Link.joins, Bool.or_self, Bool.and_eq_true, beq_iff_eq] at hl
  omega

/-! ### The graph -/

/-- The graph of the nodes that hear each other. -/
def graph (t : Topology) : SimpleGraph (Fin t.nodeCount) where
  Adj i j := t.isLinked i j = true
  symm := ⟨fun i j h => by rw [isLinked_comm]; exact h⟩
  loopless := ⟨fun _ h => ne_of_isLinked h rfl⟩

/-- A node can be reached from node `i` over so many links. -/
inductive Within (t : Topology) (i : Nat) : Nat → Nat → Prop
  | zero : Within t i 0 i
  | step {k j j' : Nat} (h : Within t i k j) (hl : t.isLinked j j' = true)
      (hj : j' < t.nodeCount) : Within t i (k + 1) j'

/-- A walk reaches its end over as many links as it is long. -/
theorem within_walk {t : Topology} {i k : Nat} {u v : Fin t.nodeCount} (w : t.graph.Walk u v)
    (h : t.Within i k u) : t.Within i (k + w.length) v := by
  -- the induction is on the walk; its first link leads one link further from `i`
  induction w generalizing k with
  | nil => exact h
  | @cons u v w hadj p ih =>
    have hnext := ih (h.step hadj v.isLt)
    rw [SimpleGraph.Walk.length_cons, ← Nat.add_assoc, Nat.add_right_comm]
    exact hnext

/-- In a connected topology a node is reached over as many links as its distance says. -/
theorem within_dist {t : Topology} (h : t.graph.Connected) (u v : Fin t.nodeCount) :
    t.Within u (t.graph.dist u v) v := by
  obtain ⟨w, hw⟩ := h.exists_walk_length_eq_dist u v
  have hwithin := within_walk w .zero
  rw [hw, Nat.zero_add] at hwithin
  exact hwithin

/-- No two nodes of a connected topology are as far from each other as there are nodes. -/
theorem dist_lt_nodeCount {t : Topology} (h : t.graph.Connected) (u v : Fin t.nodeCount) :
    t.graph.dist u v < t.nodeCount := by
  obtain ⟨p, hp, hlen⟩ := h.exists_path_of_dist u v
  have hlt := hp.length_lt
  rw [Fintype.card_fin, hlen] at hlt
  exact hlt

end Topology

end TokenMesh
