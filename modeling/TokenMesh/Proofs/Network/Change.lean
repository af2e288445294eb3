import Mathlib.Algebra.GroupWithZero.Nat
import TokenMesh.Network.Run

namespace TokenMesh

/-!
# Small changes of a network

What reports, scheduled events, moves of the clock and new states of nodes leave alone, and what
they do to the rest.  The queue is seen as the list of all that waits in it, in no particular
order; the members are seen one by one, or summed up.

* `Network.pending`: all that waits in the queue;
* `Network.nextGeneration`: a node begins its next generation;
* `Network.total`: the sum of a quantity over all nodes, and what one node's new state does to it.
-/

namespace Network

/-- All events that wait in the queue, in no particular order. -/
def pending (net : Network) : List (Scheduled Occurrence) := net.queue.toList

/-! ### Reports -/

section tell

variable (net : Network) (notices : List Notice)

@[simp] theorem clock_tell : (net.tell notices).clock = net.clock := rfl
@[simp] theorem members_tell : (net.tell notices).members = net.members := rfl
@[simp] theorem topology_tell : (net.tell notices).topology = net.topology := rfl
@[simp] theorem settings_tell : (net.tell notices).settings = net.settings := rfl
@[simp] theorem pending_tell : (net.tell notices).pending = net.pending := rfl
@[simp] theorem failures_tell : (net.tell notices).failures = net.failures := rfl
@[simp] theorem metrics_tell : (net.tell notices).metrics = net.metrics := rfl
@[simp] theorem lastBegin_tell : (net.tell notices).lastBegin = net.lastBegin := rfl

@[simp] theorem journal_tell : (net.tell notices).journal = notices.reverse ++ net.journal :=
  List.reverseAux_eq

end tell

/-! ### Scheduled events -/

section schedule

variable (net : Network) (time : Nat) (e : Occurrence)

@[simp] theorem clock_schedule : (net.schedule time e).clock = net.clock := rfl
@[simp] theorem members_schedule : (net.schedule time e).members = net.members := rfl
@[simp] theorem topology_schedule : (net.schedule time e).topology = net.topology := rfl
@[simp] theorem settings_schedule : (net.schedule time e).settings = net.settings := rfl
@[simp] theorem failures_schedule : (net.schedule time e).failures = net.failures := rfl
@[simp] theorem metrics_schedule : (net.schedule time e).metrics = net.metrics := rfl
@[simp] theorem journal_schedule : (net.schedule time e).journal = net.journal := rfl
@[simp] theorem lastBegin_schedule : (net.schedule time e).lastBegin = net.lastBegin := rfl

/-- A scheduled event waits beside all others. -/
theorem pending_schedule :
    (net.schedule time e).pending.Perm (⟨time, net.nextSeq, e⟩ :: net.pending) :=
  EventQueue.toList_push ..

theorem mem_pending_schedule {x : Scheduled Occurrence} :
    x ∈ (net.schedule time e).pending ↔ x = ⟨time, net.nextSeq, e⟩ ∨ x ∈ net.pending := by
  rw [(pending_schedule net time e).mem_iff, List.mem_cons]

end schedule

/-! ### The clock and the watch on convergence -/

section clock

variable (net : Network) (time : Nat)

@[simp] theorem clock_advanceTo : (net.advanceTo time).clock = max net.clock time := rfl
@[simp] theorem members_advanceTo : (net.advanceTo time).members = net.members := rfl
@[simp] theorem topology_advanceTo : (net.advanceTo time).topology = net.topology := rfl
@[simp] theorem settings_advanceTo : (net.advanceTo time).settings = net.settings := rfl
@[simp] theorem pending_advanceTo : (net.advanceTo time).pending = net.pending := rfl
@[simp] theorem failures_advanceTo : (net.advanceTo time).failures = net.failures := rfl
@[simp] theorem metrics_advanceTo : (net.advanceTo time).metrics = net.metrics := rfl
@[simp] theorem journal_advanceTo : (net.advanceTo time).journal = net.journal := rfl
@[simp] theorem lastBegin_advanceTo : (net.advanceTo time).lastBegin = net.lastBegin := rfl

/-- The watch only notes when the network has converged. -/
theorem watch_eq : net.watch = { net with convergedAt := net.watch.convergedAt } := by
  unfold watch
  split <;> rfl

@[simp] theorem clock_watch : net.watch.clock = net.clock := by rw [watch_eq]
@[simp] theorem members_watch : net.watch.members = net.members := by rw [watch_eq]
@[simp] theorem topology_watch : net.watch.topology = net.topology := by rw [watch_eq]
@[simp] theorem settings_watch : net.watch.settings = net.settings := by rw [watch_eq]
@[simp] theorem pending_watch : net.watch.pending = net.pending := by rw [watch_eq]; rfl
@[simp] theorem failures_watch : net.watch.failures = net.failures := by rw [watch_eq]
@[simp] theorem metrics_watch : net.watch.metrics = net.metrics := by rw [watch_eq]
@[simp] theorem journal_watch : net.watch.journal = net.journal := by rw [watch_eq]
@[simp] theorem lastBegin_watch : net.watch.lastBegin = net.lastBegin := by rw [watch_eq]

end clock

/-! ### Nodes one by one -/

section setNode

variable (net : Network) (i : Nat) (n : Node)

@[simp] theorem clock_setNode : (net.setNode i n).clock = net.clock := rfl
@[simp] theorem topology_setNode : (net.setNode i n).topology = net.topology := rfl
@[simp] theorem settings_setNode : (net.setNode i n).settings = net.settings := rfl
@[simp] theorem pending_setNode : (net.setNode i n).pending = net.pending := rfl
@[simp] theorem failures_setNode : (net.setNode i n).failures = net.failures := rfl
@[simp] theorem metrics_setNode : (net.setNode i n).metrics = net.metrics := rfl
@[simp] theorem journal_setNode : (net.setNode i n).journal = net.journal := rfl
@[simp] theorem lastBegin_setNode : (net.setNode i n).lastBegin = net.lastBegin := rfl

@[simp] theorem size_setNode : (net.setNode i n).size = net.size := by
  simp [size, setNode]

theorem getElem?_members_setNode (j : Nat) :
    (net.setNode i n).members[j]? =
      if i = j then net.members[j]?.map fun m => { m with node := n } else net.members[j]? := by
  simp [setNode, Array.getElem?_modify]

/-- One member is in its new state, and all others are as before. -/
theorem getElem?_members_setNode_of_some {m : Member} (h : net.members[i]? = some m) (j : Nat) :
    (net.setNode i n).members[j]? =
      if i = j then some { m with node := n } else net.members[j]? := by
  rw [getElem?_members_setNode]
  by_cases hij : i = j
  · subst hij
    rw [if_pos rfl, if_pos rfl, h]
    rfl
  · rw [if_neg hij, if_neg hij]

/-- The members keep their generations. -/
theorem generation_setNode (j : Nat) :
    (net.setNode i n).members[j]?.map (·.generation) = net.members[j]?.map (·.generation) := by
  rw [getElem?_members_setNode]
  split
  · rw [Option.map_map]; rfl
  · rfl

theorem node?_setNode (j : Nat) :
    (net.setNode i n).node? j =
      if i = j then (net.node? j).map fun _ => n else net.node? j := by
  unfold node?
  rw [getElem?_members_setNode]
  split <;> simp [Function.comp_def]

end setNode

/-! ### A new generation of a node -/

/-- The network in which a node has begun its next generation. -/
def nextGeneration (net : Network) (i : Nat) : Network :=
  { net with members := net.members.modify i fun m => { m with generation := m.generation + 1 } }

section nextGeneration

variable (net : Network) (i : Nat)

@[simp] theorem clock_nextGeneration : (net.nextGeneration i).clock = net.clock := rfl
@[simp] theorem topology_nextGeneration : (net.nextGeneration i).topology = net.topology := rfl
@[simp] theorem settings_nextGeneration : (net.nextGeneration i).settings = net.settings := rfl
@[simp] theorem pending_nextGeneration : (net.nextGeneration i).pending = net.pending := rfl
@[simp] theorem failures_nextGeneration : (net.nextGeneration i).failures = net.failures := rfl
@[simp] theorem metrics_nextGeneration : (net.nextGeneration i).metrics = net.metrics := rfl
@[simp] theorem journal_nextGeneration : (net.nextGeneration i).journal = net.journal := rfl
@[simp] theorem lastBegin_nextGeneration : (net.nextGeneration i).lastBegin = net.lastBegin := rfl

theorem getElem?_members_nextGeneration (j : Nat) :
    (net.nextGeneration i).members[j]? =
      if i = j then net.members[j]?.map fun m => { m with generation := m.generation + 1 }
      else net.members[j]? := by
  simp [nextGeneration, Array.getElem?_modify]

/-- A new generation is not a new state. -/
@[simp] theorem node?_nextGeneration (j : Nat) : (net.nextGeneration i).node? j = net.node? j := by
  unfold node?
  rw [getElem?_members_nextGeneration]
  split
  · rw [Option.map_map]; rfl
  · rfl

end nextGeneration

/-- Switched on again, a node reacts to its restart timer, begins a generation, and sets its boot
    timers for it. -/
theorem restart_eq (net : Network) (i : Nat) (m : Member) :
    net.restart i m =
      ((net.follow i (m.node.handle .restartTimer net.clock)).nextGeneration i).setBootTimers i
        (m.generation + 1) := rfl

/-! ### All nodes -/

theorem node?_eq_some_iff {net : Network} {i : Nat} {n : Node} :
    net.node? i = some n ↔ ∃ m, net.members[i]? = some m ∧ m.node = n := by
  simp [node?]

theorem getElem?_nodes (net : Network) (i : Nat) : net.nodes[i]? = net.node? i := by
  simp [nodes, node?]

theorem mem_nodes_iff {net : Network} {n : Node} : n ∈ net.nodes ↔ ∃ i, net.node? i = some n := by
  rw [List.mem_iff_getElem?]
  simp only [getElem?_nodes]

@[simp] theorem length_nodes (net : Network) : net.nodes.length = net.size := by
  simp [nodes, size]

theorem lt_size_of_node? {net : Network} {i : Nat} {n : Node} (h : net.node? i = some n) :
    i < net.size := by
  rw [← getElem?_nodes] at h
  rw [← length_nodes]
  exact (List.getElem?_eq_some_iff.1 h).1

/-- Networks with the same members have the same nodes. -/
theorem node?_congr {net net' : Network} (h : net'.members = net.members) (i : Nat) :
    net'.node? i = net.node? i := by
  unfold node?; rw [h]

theorem nodes_congr {net net' : Network} (h : net'.members = net.members) :
    net'.nodes = net.nodes := by
  unfold nodes; rw [h]

/-- Networks whose nodes agree one by one have the same nodes. -/
theorem nodes_ext {net net' : Network} (h : ∀ i, net'.node? i = net.node? i) :
    net'.nodes = net.nodes := by
  apply List.ext_getElem?
  intro i
  rw [getElem?_nodes, getElem?_nodes, h]

@[simp] theorem nodes_nextGeneration (net : Network) (i : Nat) :
    (net.nextGeneration i).nodes = net.nodes :=
  nodes_ext (node?_nextGeneration net i)

theorem nodes_setNode (net : Network) (i : Nat) (n : Node) :
    (net.setNode i n).nodes = net.nodes.set i n := by
  apply List.ext_getElem?
  intro j
  rw [getElem?_nodes, node?_setNode, List.getElem?_set', getElem?_nodes]
  rfl

/-! ### Nodes summed up -/

/-- The sum of a quantity over all nodes, which may depend on where a node is. -/
def total (net : Network) (f : Nat → Node → Nat) : Nat := (net.nodes.mapIdx f).sum

/-- One new term of a sum. -/
theorem sum_set_add {l : List Nat} {i a b : Nat} (h : l[i]? = some a) :
    (l.set i b).sum + a = l.sum + b := by
  -- the induction follows the list to the place of the new term
  induction l generalizing i with
  | nil => simp at h
  | cons x l ih =>
    cases i with
    | zero =>
      simp only [List.getElem?_cons_zero, Option.some.injEq] at h
      simp only [List.set_cons_zero, List.sum_cons]
      omega
    | succ i =>
      have := ih (i := i) (by simpa using h)
      simp only [List.set_cons_succ, List.sum_cons]
      omega

/-- A node's new state takes the place of its old one in a sum. -/
theorem total_setNode {net : Network} {i : Nat} {n : Node} (f : Nat → Node → Nat) (n' : Node)
    (h : net.node? i = some n) :
    (net.setNode i n').total f + f i n = net.total f + f i n' := by
  unfold total
  rw [nodes_setNode, List.mapIdx_set]
  refine sum_set_add ?_
  rw [List.getElem?_mapIdx, getElem?_nodes, h]
  rfl

theorem total_congr {net net' : Network} (f : Nat → Node → Nat) (h : net'.nodes = net.nodes) :
    net'.total f = net.total f := by
  unfold total; rw [h]

/-- One more node adds its own term to a sum. -/
theorem total_concat {net net' : Network} {n : Node} (f : Nat → Node → Nat)
    (h : net'.nodes = net.nodes ++ [n]) : net'.total f = net.total f + f net.size n := by
  unfold total
  rw [h, List.mapIdx_concat, List.sum_append, length_nodes]
  simp

/-- A quantity that all terms share out is shared out by the sum. -/
theorem total_add (net : Network) (f g : Nat → Node → Nat) :
    net.total (fun i n => f i n + g i n) = net.total f + net.total g := by
  unfold total
  simp only [List.mapIdx_eq_zipIdx_map]
  induction net.nodes.zipIdx with
  | nil => rfl
  | cons x l ih =>
    simp only [List.map_cons, List.sum_cons, ih]
    omega

/-- One for each node with a property makes the number of such nodes. -/
theorem total_toNat (net : Network) (p : Node → Bool) :
    (net.total fun _ n => (p n).toNat) = net.nodes.countP p := by
  unfold total
  rw [List.mapIdx_eq_zipIdx_map]
  -- where a node is makes no difference, so the count may begin anywhere
  suffices h : ∀ (l : List Node) (k : Nat),
      ((l.zipIdx k).map fun x => (p x.1).toNat).sum = l.countP p from h _ 0
  intro l
  induction l with
  | nil => exact fun _ => rfl
  | cons n l ih =>
    intro k
    rw [List.zipIdx_cons, List.map_cons, List.sum_cons, ih, List.countP_cons]
    cases p n <;> simp; omega

end Network

end TokenMesh
