import TokenMesh.Proofs.Topology.Search
import TokenMesh.Proofs.Topology.Shape

namespace TokenMesh

/-!
# Connected without the nodes that are down

The question whether the nodes that are up are connected is one about a graph: what is left of the
topology once the nodes that are marked as down are taken out, together with their links.

* `Topology.isUp_iff_getElem?`: marks that are missing count as up;
* `Topology.graphWithout`: what is left of the graph;
* `Topology.joined_of_reachable`, `Topology.reachable_of_joined`: paths through nodes that are up
  are the walks of that graph;
* `Topology.connectivity_exact`: the answer is always there, and is right.
-/

namespace Topology

variable {t : Topology} {down : List Bool} {a b : Nat}

/-- A node is up unless its mark says otherwise. -/
theorem isUp_iff_getElem? : t.IsUp down a ↔ a < t.nodeCount ∧ down[a]? ≠ some true := by
  unfold IsUp isMarked
  rw [List.getD_eq_getElem?_getD]
  rcases down[a]? with _ | _ | _ <;> simp

/-- Fewer than two nodes are always connected. -/
theorem connects_of_live (h : (t.live down).length ≤ 1) : t.Connects (t.IsUp down) := by
  intro a b ha hb
  match hlive : t.live down, h with
  | [], _ =>
    rw [← mem_live, hlive] at ha
    cases ha
  | [x], _ =>
    have heq : a = b := by
      rw [← mem_live, hlive, List.mem_singleton] at ha hb
      exact ha.trans hb.symm
    rw [← heq]
    exact .refl ha

/-! ### What is left of the graph -/

/-- The graph of the nodes that are not marked as down. -/
def graphWithout (t : Topology) (down : List Bool) :
    SimpleGraph {v : Fin t.nodeCount | t.IsUp down v} :=
  t.graph.induce {v : Fin t.nodeCount | t.IsUp down v}

/-- A walk of that graph is a path through nodes that are up. -/
theorem joined_of_reachable {u v : {v : Fin t.nodeCount | t.IsUp down v}}
    (h : (t.graphWithout down).Reachable u v) : t.Joined (t.IsUp down) u v := by
  obtain ⟨w⟩ := h
  -- the induction is on the walk, which is followed from its first link on
  induction w with
  | @nil u => exact .refl u.2
  | @cons u v w hadj _ ih =>
    have hlink : t.isLinked u v = true := hadj
    exact (Joined.single u.2 v.2 hlink).trans ih

/-- A path through nodes that are up is a walk of that graph. -/
theorem reachable_of_joined (h : t.Joined (t.IsUp down) a b) (ha : t.IsUp down a)
    (hb : t.IsUp down b) :
    (t.graphWithout down).Reachable ⟨⟨a, ha.1⟩, ha⟩ ⟨⟨b, hb.1⟩, hb⟩ := by
  induction h with
  | refl _ => exact .refl _
  | @step b c hab hl _ ih =>
    have hadj : (t.graphWithout down).Adj ⟨⟨b, hab.right.1⟩, hab.right⟩ ⟨⟨c, hb.1⟩, hb⟩ := hl
    exact (ih hab.right).trans hadj.reachable

/-- The nodes that are up are connected just if that graph is in one piece. -/
theorem connects_iff_preconnected :
    t.Connects (t.IsUp down) ↔ (t.graphWithout down).Preconnected := by
  constructor
  · intro h u v
    exact reachable_of_joined (h u v u.2 v.2) u.2 v.2
  · intro h a b ha hb
    exact joined_of_reachable (h ⟨⟨a, ha.1⟩, ha⟩ ⟨⟨b, hb.1⟩, hb⟩)

/-! ### The answer -/

/-- **Connectivity.**  Whichever nodes of a closed topology are marked as down, there is an answer
    to the question whether the others are connected: it is yes if and only if any two nodes without
    such a mark are joined by a path of links through nodes without such a mark, that is, if what is
    left of the graph is in one piece.  It is yes where fewer than two nodes are left. -/
theorem connectivity_exact (hc : t.Closed) (down : List Bool) :
    ∃ answer, t.isConnectedWithout? down = some answer ∧
      (answer = true ↔
        ∀ a b, a < t.nodeCount → b < t.nodeCount → down[a]? ≠ some true → down[b]? ≠ some true →
          t.Joined (fun c => c < t.nodeCount ∧ down[c]? ≠ some true) a b) ∧
      (answer = true ↔
        (t.graph.induce {v : Fin t.nodeCount | down[v.val]? ≠ some true}).Preconnected) ∧
      ((t.live down).length ≤ 1 → answer = true) := by
  obtain ⟨answer, hanswer⟩ := exists_isConnectedWithout? hc down
  have hconnects := connects_iff hanswer
  refine ⟨answer, hanswer, ?_, ?_, ?_⟩
  · have hup : t.IsUp down = fun c => c < t.nodeCount ∧ down[c]? ≠ some true :=
      funext fun c => propext isUp_iff_getElem?
    rw [hconnects, hup]
    constructor
    · intro h a b ha hb hua hub
      exact h a b ⟨ha, hua⟩ ⟨hb, hub⟩
    · intro h a b ha hb
      exact h a b ha.1 hb.1 ha.2 hb.2
  · have hup : {v : Fin t.nodeCount | t.IsUp down v} =
        {v : Fin t.nodeCount | down[v.val]? ≠ some true} := by
      ext v
      show t.IsUp down v ↔ down[v.val]? ≠ some true
      rw [isUp_iff_getElem?, and_iff_right v.isLt]
    rw [hconnects, connects_iff_preconnected, ← hup]
    rfl
  · exact fun h => hconnects.2 (connects_of_live h)

/-- A line of four nodes falls apart without its second node.  It does not without its last one,
    and a mark beyond that changes nothing. -/
theorem connectivity_exact_line :
    let t := build .line 4
    let second := [false, true]
    let last := [false, false, false, true, true]
    t.Closed ∧
    t.isConnectedWithout? second = some false ∧
    ¬ (t.graph.induce {v : Fin t.nodeCount | second[v.val]? ≠ some true}).Preconnected ∧
    t.isConnectedWithout? last = some true ∧
    t.Joined (fun c => c < t.nodeCount ∧ last[c]? ≠ some true) 0 2 := by
  intro t second last
  have hc : t.Closed := closed_build .line 4
  have hapart : t.isConnectedWithout? second = some false := by decide +kernel
  have hwhole : t.isConnectedWithout? last = some true := by decide +kernel
  obtain ⟨_, hno, _, hgraph, _⟩ := connectivity_exact hc second
  obtain ⟨_, hyes, hpaths, _⟩ := connectivity_exact hc last
  rw [hapart] at hno
  rw [hwhole] at hyes
  refine ⟨hc, hapart, fun h => ?_, hwhole, ?_⟩
  · obtain rfl := Option.some.inj hno
    exact Bool.false_ne_true (hgraph.2 h)
  · exact hpaths.1 (Option.some.inj hyes).symm 0 2 (by decide) (by decide) (by decide) (by decide)

end Topology

end TokenMesh
