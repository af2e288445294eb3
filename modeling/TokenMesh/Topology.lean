import TokenMesh.Binary64
import TokenMesh.Time

namespace TokenMesh

/-!
# Topologies

Which nodes hear each other, how likely a delivery is lost, and how long it takes.  Links have no
direction: each is kept once, under its lower and its higher end, and links are kept in the order
of those ends, so that lists of neighbors and with them whole runs can be repeated.

* `Topology.addLink`: let two different nodes hear each other;
* `Topology.lossRate?`, `Topology.isLinked`: the link between two nodes;
* `Topology.neighbors`: the nodes that hear a node, in ascending order;
* `Topology.setLossRate`: one loss rate for all links there are.
-/

/-- A link between two different nodes. -/
structure Link where
  low : Nat
  high : Nat
  lossRate : Binary64
  low_lt_high : low < high
deriving DecidableEq, Repr

namespace Link

/-- The order of links: by their lower ends, then by their higher ends. -/
def Before (k l : Link) : Prop := k.low < l.low ∨ (k.low = l.low ∧ k.high < l.high)

instance (k l : Link) : Decidable (k.Before l) := by unfold Before; infer_instance

/-- Whether a link joins two nodes, in either order. -/
def joins (l : Link) (a b : Nat) : Bool :=
  (l.low == a && l.high == b) || (l.low == b && l.high == a)

/-- The other end of a link. -/
def otherEnd? (l : Link) (a : Nat) : Option Nat :=
  if l.low = a then some l.high else if l.high = a then some l.low else none

/-- A link without losses. -/
def perfect (low high : Nat) (h : low < high) : Link := ⟨low, high, .zero, h⟩

/-- A link put in its place among ordered links; it takes the place of one between the same
    nodes. -/
def insert (k : Link) : List Link → List Link
  | [] => [k]
  | l :: ls =>
    if k.Before l then k :: l :: ls
    else if l.Before k then l :: insert k ls
    else k :: ls

theorem Before.trans {k l m : Link} (h : k.Before l) (h' : l.Before m) : k.Before m := by
  unfold Before at *; omega

/-- Links that do not come before each other join the same nodes. -/
theorem ends_eq_of_not_before {k l : Link} (h : ¬ k.Before l) (h' : ¬ l.Before k) :
    k.low = l.low ∧ k.high = l.high := by
  unfold Before at *; omega

theorem mem_insert_of_mem {k l : Link} {ls : List Link} (h : l ∈ insert k ls) :
    l = k ∨ l ∈ ls := by
  induction ls with
  | nil => simpa [insert] using h
  | cons m ms ih =>
    simp only [insert] at h
    split at h
    · simpa using h
    · split at h
      · rcases List.mem_cons.1 h with rfl | h
        · exact .inr List.mem_cons_self
        · rcases ih h with h | h
          · exact .inl h
          · exact .inr (List.mem_cons_of_mem _ h)
      · rcases List.mem_cons.1 h with h | h
        · exact .inl h
        · exact .inr (List.mem_cons_of_mem _ h)

/-- Insertion keeps links in order. -/
theorem pairwise_insert (k : Link) {ls : List Link} (h : ls.Pairwise Before) :
    (insert k ls).Pairwise Before := by
  induction ls with
  | nil => simp [insert]
  | cons l ls ih =>
    obtain ⟨hl, hls⟩ := List.pairwise_cons.1 h
    simp only [insert]
    split
    -- before `l`, after it, or in its place
    · next hk =>
      refine List.pairwise_cons.2 ⟨fun m hm => ?_, h⟩
      rcases List.mem_cons.1 hm with rfl | hm
      · exact hk
      · exact hk.trans (hl m hm)
    · split
      · next hk =>
        refine List.pairwise_cons.2 ⟨fun m hm => ?_, ih hls⟩
        rcases mem_insert_of_mem hm with rfl | hm
        · exact hk
        · exact hl m hm
      · next hk hl' =>
        obtain ⟨h₁, h₂⟩ := ends_eq_of_not_before hk hl'
        refine List.pairwise_cons.2 ⟨fun m hm => ?_, hls⟩
        have := hl m hm
        unfold Before at *; omega

end Link

/-- Which nodes below `nodeCount` hear each other.  Nothing keeps the ends of a link below it. -/
structure Topology where
  nodeCount : Nat
  links : List Link
  /-- How long a delivery takes. -/
  delay : Nat
  ordered : links.Pairwise Link.Before
deriving Repr

namespace Topology

/-- How long a delivery takes unless something else is said. -/
def defaultDelay : Nat := Time.ofMillis 5

/-- Nodes that do not hear each other. -/
def isolated (nodeCount : Nat) : Topology := ⟨nodeCount, [], defaultDelay, .nil⟩

/-- Let two nodes hear each other without losses; a node needs no link to itself. -/
def addLink (t : Topology) (a b : Nat) : Topology :=
  if h : a < b then
    { t with
      links := (Link.perfect a b h).insert t.links
      ordered := Link.pairwise_insert _ t.ordered }
  else if h : b < a then
    { t with
      links := (Link.perfect b a h).insert t.links
      ordered := Link.pairwise_insert _ t.ordered }
  else t

/-- The loss rate of the link between two nodes, if there is one. -/
def lossRate? (t : Topology) (a b : Nat) : Option Binary64 :=
  (t.links.find? fun l => l.joins a b).map (·.lossRate)

/-- Whether two nodes hear each other. -/
def isLinked (t : Topology) (a b : Nat) : Bool := (t.lossRate? a b).isSome

/-- The nodes that hear a node, in ascending order. -/
def neighbors (t : Topology) (a : Nat) : List Nat := t.links.filterMap fun l => l.otherEnd? a

/-- Give all links one loss rate, which is clamped to the range from zero to one. -/
def setLossRate (t : Topology) (rate : Binary64) : Topology :=
  { t with
    links := t.links.map fun l => { l with lossRate := rate.clampUnit }
    ordered := List.pairwise_map.2 t.ordered }

/-- The same links with another delay. -/
def withDelay (t : Topology) (delay : Nat) : Topology := { t with delay := delay }

/-- Whether all links have both ends below the number of nodes. -/
def Closed (t : Topology) : Prop := ∀ l ∈ t.links, l.high < t.nodeCount

instance (t : Topology) : Decidable t.Closed := by unfold Closed; infer_instance

end Topology

end TokenMesh
