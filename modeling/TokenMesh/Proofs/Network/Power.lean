import TokenMesh.Proofs.Network.Calm
import TokenMesh.Proofs.Topology.Search

namespace TokenMesh

/-!
# Power

Which nodes have power, as marks in the order of the nodes, and what becomes of the marks.  Apart
from failures, an event leaves them as they are or takes one of them away.

* `Network.downCount`: how many nodes are without power;
* `Network.Whole`: the nodes with power are connected through each other;
* `Network.connects_downFlags`, `Network.connects_downFlags_set`: what an answer about them means;
* `Network.CrashFree`: no crash is planned;
* `Network.downFlags_effect`: what an event does to the marks;
* `Network.nodeCount_of_run`, `Network.closed_of_run`: the topology goes on to fit the nodes.
-/

namespace Topology

/-- Links with both ends below the number of nodes, said of what is linked. -/
theorem closed_iff {t : Topology} :
    t.Closed ↔ ∀ i j, t.isLinked i j = true → j < t.nodeCount := by
  constructor
  · exact fun hc i j => lt_of_isLinked hc
  · intro h l hl
    refine h l.low l.high (isLinked_iff.2 ⟨l, hl, ?_⟩)
    simp [Link.joins]

/-- Marks for all nodes say which of them are up. -/
theorem isUp_iff {t : Topology} {down : List Bool} (h : down.length = t.nodeCount) {i : Nat} :
    t.IsUp down i ↔ down[i]? = some false := by
  unfold IsUp isMarked
  rw [← h, List.getD_eq_getElem?_getD, List.getElem?_eq_some_iff]
  constructor
  · rintro ⟨hi, hmark⟩
    rw [List.getElem?_eq_getElem hi] at hmark
    exact ⟨hi, hmark⟩
  · rintro ⟨hi, hmark⟩
    rw [List.getElem?_eq_getElem hi, hmark]
    exact ⟨hi, rfl⟩

end Topology

namespace Network

variable {net net' : Network} {i j : Nat}

/-! ### Marks -/

theorem getElem?_downFlags (net : Network) (i : Nat) :
    net.downFlags[i]? = (net.node? i).map (·.isDown) := by
  rw [downFlags, List.getElem?_map, getElem?_nodes]

@[simp] theorem length_downFlags (net : Network) : net.downFlags.length = net.size := by
  simp [downFlags]

theorem powered_iff : net.Powered i ↔ net.downFlags[i]? = some false := by
  rw [getElem?_downFlags, Option.map_eq_some_iff]
  rfl

theorem downFlags_congr (h : net'.members = net.members) : net'.downFlags = net.downFlags := by
  unfold downFlags; rw [nodes_congr h]

theorem downFlags_setNode (net : Network) (i : Nat) (n : Node) :
    (net.setNode i n).downFlags = net.downFlags.set i n.isDown := by
  unfold downFlags; rw [nodes_setNode, List.map_set]

/-- A new state with power if and only if the old one had it changes no mark. -/
theorem downFlags_setNode_of_isDown {n n' : Node} (hn : net.node? i = some n)
    (h : n'.isDown = n.isDown) : (net.setNode i n').downFlags = net.downFlags := by
  have hi : net.downFlags[i]? = some n'.isDown := by
    rw [getElem?_downFlags, hn, h]
    rfl
  obtain ⟨hlt, hmark⟩ := List.getElem?_eq_some_iff.1 hi
  rw [downFlags_setNode, ← hmark, List.set_getElem_self]

/-- One mark more is one node fewer with power. -/
theorem getElem?_set_true_iff :
    (net.downFlags.set i true)[j]? = some false ↔ net.Powered j ∧ j ≠ i := by
  rw [powered_iff, List.getElem?_set]
  by_cases hij : i = j
  · subst hij
    simp only [if_true, ne_eq, not_true, and_false, iff_false]
    split <;> simp
  · simp only [if_neg hij, Ne.symm hij, ne_eq, not_false_iff, and_true]

/-- One mark fewer is one node more with power. -/
theorem getElem?_set_false_iff (hi : net.downFlags[i]? = some true) :
    (net.downFlags.set i false)[j]? = some false ↔ net.Powered j ∨ j = i := by
  obtain ⟨hlt, _⟩ := List.getElem?_eq_some_iff.1 hi
  rw [powered_iff, List.getElem?_set]
  by_cases hij : i = j
  · subst hij
    simp only [if_true, if_pos hlt, or_true]
  · simp only [if_neg hij, Ne.symm hij, or_false]

/-- How many nodes are without power. -/
def downCount (net : Network) : Nat := net.nodes.countP (·.isDown)

theorem downCount_eq_count (net : Network) : net.downCount = net.downFlags.count true := by
  simp [downCount, downFlags, List.count, List.countP_map, Function.comp_def]

/-- The marks are counted one by one. -/
theorem length_filter_downFlags (net : Network) :
    (net.downFlags.filter id).length = net.downCount := by
  rw [downCount, ← List.countP_eq_length_filter, downFlags, List.countP_map]
  rfl

theorem downCount_congr (h : net'.downFlags = net.downFlags) : net'.downCount = net.downCount := by
  rw [downCount_eq_count, downCount_eq_count, h]

/-- One node fewer is without power. -/
theorem downCount_of_set_false (hi : net.downFlags[i]? = some true)
    (h : net'.downFlags = net.downFlags.set i false) : net'.downCount + 1 = net.downCount := by
  obtain ⟨hlt, hmark⟩ := List.getElem?_eq_some_iff.1 hi
  have hpos : 0 < net.downFlags.count true :=
    List.count_pos_iff.2 (List.mem_iff_getElem?.2 ⟨i, hi⟩)
  rw [downCount_eq_count, downCount_eq_count, h, List.count_set hlt, hmark]
  simp
  omega

/-- One node more is without power. -/
theorem downCount_of_set_true (hi : net.downFlags[i]? = some false)
    (h : net'.downFlags = net.downFlags.set i true) : net'.downCount = net.downCount + 1 := by
  obtain ⟨hlt, hmark⟩ := List.getElem?_eq_some_iff.1 hi
  rw [downCount_eq_count, downCount_eq_count, h, List.count_set hlt, hmark]
  simp

/-! ### Connected nodes -/

/-- The nodes with power are connected through each other. -/
def Whole (net : Network) : Prop := net.topology.Connects net.Powered

/-- An answer about the marks says whether the nodes with power are connected. -/
theorem connects_downFlags (hsize : net.topology.nodeCount = net.size) {answer : Bool}
    (h : net.topology.isConnectedWithout? net.downFlags = some answer) :
    answer = true ↔ net.Whole := by
  have hlen : net.downFlags.length = net.topology.nodeCount := by
    rw [length_downFlags, hsize]
  rw [Topology.connects_iff h]
  exact Topology.connects_congr (fun _ _ => rfl)
    fun i => (Topology.isUp_iff hlen).trans powered_iff.symm

/-- An answer about the marks with one more says whether the nodes with power are connected without
that node. -/
theorem connects_downFlags_set (hsize : net.topology.nodeCount = net.size) {answer : Bool}
    (h : net.topology.isConnectedWithout? (net.downFlags.set i true) = some answer) :
    answer = true ↔ net.topology.Connects fun j => net.Powered j ∧ j ≠ i := by
  have hlen : (net.downFlags.set i true).length = net.topology.nodeCount := by
    rw [List.length_set, length_downFlags, hsize]
  rw [Topology.connects_iff h]
  exact Topology.connects_congr (fun _ _ => rfl)
    fun j => (Topology.isUp_iff hlen).trans getElem?_set_true_iff

/-! ### Planned crashes -/

/-- No crash is planned. -/
def CrashFree (net : Network) : Prop :=
  ∀ x ∈ net.pending, ∀ i recovery, x.event ≠ .action (.crash i recovery)

namespace CrashFree

theorem of_noNewActions (h : net.CrashFree) (hp : NoNewActions net net') : net'.CrashFree :=
  fun x hx i recovery ha => h x (hp.planned x hx _ ha) i recovery ha

theorem next {limit : Nat} (h : net.CrashFree) (hn : net.next limit = .moved net') :
    net'.CrashFree := by
  obtain ⟨e, rest, net₁, hp, _, he, rfl⟩ := exists_effect_of_next hn
  have hevent : NoNewActions net net₁ := (NoNewActions.turnTo hp).trans (noNewActions_effect he)
  exact h.of_noNewActions (hevent.trans (.of_same (pending_watch _)))

theorem withFailures (h : net.CrashFree) (f : FailureConfig) : (net.withFailures f).CrashFree := by
  unfold Network.withFailures
  split
  · exact h
  · have hset : NoNewActions net { net with failures := some f } := .of_same rfl
    exact h.of_noNewActions (hset.trans (.schedule _ _ (by simp)))

theorem build (t : Topology) (s : ProtocolSettings) (seed : UInt64) :
    (Network.build t s seed).CrashFree := by
  intro x hx i recovery ha
  obtain ⟨j, kind, htimer⟩ := mem_pending_build hx
  rw [htimer] at ha
  cases ha

end CrashFree

/-- A run up to a given time plans no crashes. -/
theorem Run.runUntil_of_crashFree {limit budget : Nat} {start : Network}
    (h : Run CrashFree start net) (hr : net.runUntil limit budget = .ok net') :
    Run CrashFree start net' :=
  (h.runUntil (fun _ _ hf hn => hf.next hn) (fun _ hf => hf) hr).1

/-! ### Events -/

theorem downFlags_follow {n : Node} {r : Reaction} (hn : net.node? i = some n)
    (h : r.node.isDown = n.isDown) : (net.follow i r).downFlags = net.downFlags := by
  have hroute : (net.follow i r).downFlags = (net.absorb i r).downFlags :=
    downFlags_congr (members_route ..)
  rw [hroute]
  exact downFlags_setNode_of_isDown hn h

theorem crashes_follow (net : Network) (i : Nat) (r : Reaction) :
    (net.follow i r).metrics.crashes = net.metrics.crashes :=
  (airOnly_route (net.absorb i r) i r.sends).crashes

/-- A restart timer gives a node without power its power back. -/
theorem downFlags_restart {m : Member} (hm : net.members[i]? = some m) :
    (net.restart i m).downFlags = net.downFlags ∨
      net.downFlags[i]? = some true ∧ (net.restart i m).downFlags = net.downFlags.set i false := by
  have hn : net.node? i = some m.node := node?_eq_some_iff.2 ⟨m, hm, rfl⟩
  have hnode : (net.restart i m).downFlags =
      (net.setNode i (m.node.handle .restartTimer net.clock).node).downFlags := by
    unfold downFlags
    rw [nodes_ext (node?_restart net i m)]
  have hreact : (m.node.handle .restartTimer net.clock).node.isDown =
      m.node.onRestartTimer.node.isDown := rfl
  rw [hnode]
  cases hd : m.node.isDown with
  | false =>
    left
    apply downFlags_setNode_of_isDown hn
    rw [hreact, Node.onRestartTimer_of_up hd]
  | true =>
    right
    refine ⟨by rw [getElem?_downFlags, hn, Option.map_some, hd], ?_⟩
    rw [downFlags_setNode, hreact, Node.onRestartTimer_of_down hd]
    rfl

/-- An event other than a crash leaves the marks as they are, or takes away the one of a node that
gets its power back. -/
theorem downFlags_effect {e : Occurrence} (he : Effect net e net')
    (hcrash : ∀ i recovery, e ≠ .action (.crash i recovery)) (htick : e ≠ .failureTick) :
    net'.metrics.crashes = net.metrics.crashes ∧
      (net'.downFlags = net.downFlags ∨
        ∃ i, net.downFlags[i]? = some true ∧ net'.downFlags = net.downFlags.set i false) := by
  cases he with
  | @arrival _ i n sender bytes hn =>
    have hcount : net.countDelivery.node? i = some n := hn
    exact ⟨crashes_follow .., .inl (downFlags_follow hcount (n.steady_handleDatagram ..).isDown)⟩
  | stale kind generation hm hg => exact ⟨rfl, .inl rfl⟩
  | @fired _ i m kind hm =>
    have hn : net.node? i = some m.node := node?_eq_some_iff.2 ⟨m, hm, rfl⟩
    cases kind with
    | announce =>
      have hsteady := m.node.steady_handle (e := .announceTimer) (by simp) net.clock
      exact ⟨crashes_follow .., .inl (downFlags_follow hn hsteady.isDown)⟩
    | beacon =>
      have hsteady := m.node.steady_handle (e := .beaconTimer) (by simp) net.clock
      exact ⟨crashes_follow .., .inl (downFlags_follow hn hsteady.isDown)⟩
    | restart => exact ⟨crashes_follow .., (downFlags_restart hm).imp_right fun h => ⟨i, h⟩⟩
  | ignored hf => exact absurd rfl htick
  | considered g vetoes hf => exact absurd rfl htick
  | injected g hf hi he => exact absurd rfl htick
  | @originated _ i n value r t hn ho =>
    have hroute := airOnly_route (net.noted i r t) i r.sends
    refine ⟨hroute.crashes, .inl ((downFlags_congr hroute.members).trans ?_)⟩
    exact downFlags_setNode_of_isDown hn (Node.steady_of_originate ho).isDown
  | notOriginated hn ho =>
    exact ⟨rfl, .inl (downFlags_setNode_of_isDown hn (Node.steady_of_originate ho).isDown)⟩
  | nowhere value hn => exact ⟨rfl, .inl rfl⟩
  | crashed hm hp => exact (hcrash _ _ rfl).elim
  | notCrashed hm hp => exact (hcrash _ _ rfl).elim
  | noCrash recovery hm => exact (hcrash _ _ rfl).elim
  | @roleSet _ i n role hn =>
    exact ⟨rfl, .inl (downFlags_setNode_of_isDown hn (n.steady_setRole role).isDown)⟩
  | noRole role hn => exact ⟨rfl, .inl rfl⟩
  | lossRateSet rate => exact ⟨rfl, .inl rfl⟩

/-! ### The topology -/

theorem nodeCount_effect {e : Occurrence} (he : Effect net e net') :
    net'.topology.nodeCount = net.topology.nodeCount := by
  obtain ⟨_, ht | ⟨rate, _, ht⟩⟩ := setup_effect he
  · rw [ht]
  · rw [ht]
    rfl

theorem nodeCount_step (hs : Step net net') :
    net'.topology.nodeCount = net.topology.nodeCount := by
  cases hs with
  | plan time a => rfl
  | setRole i role => exact nodeCount_effect (effect_setRole net i role)
  | withFailures f =>
    unfold withFailures
    split <;> rfl
  | event limit h =>
    obtain ⟨e, rest, net₁, _, _, he, rfl⟩ := exists_effect_of_next h
    rw [topology_watch, nodeCount_effect he]
    rfl
  | rest limit h => rfl

section run

variable {P : Network → Prop} {t : Topology} {s : ProtocolSettings} {seed : UInt64}

/-- Every node of a topology is there, and no other one. -/
theorem nodeCount_of_run (hr : Run P (build t s seed) net) :
    net.topology.nodeCount = t.nodeCount := by
  refine hr.invariant (fun net => net.topology.nodeCount = t.nodeCount) ?_
    fun _ _ _ _ h hs => (nodeCount_step hs).trans h
  intro _
  rw [topology_build]

theorem nodeCount_eq_size (hr : Run P (build t s seed) net) :
    net.topology.nodeCount = net.size :=
  (nodeCount_of_run hr).trans (placed_of_run hr).size.symm

theorem closed_of_run (hr : Run P (build t s seed) net) (hc : t.Closed) : net.topology.Closed := by
  rw [Topology.closed_iff]
  intro i j hl
  rw [nodeCount_of_run hr]
  rw [(placed_of_run hr).linked] at hl
  exact Topology.lt_of_isLinked hc hl

end run

end Network

end TokenMesh
