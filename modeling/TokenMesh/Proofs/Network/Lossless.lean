import TokenMesh.Proofs.Network.Calm
import TokenMesh.Proofs.Network.Delivery
import TokenMesh.Proofs.Network.Power
import TokenMesh.Proofs.Network.Turn
import TokenMesh.Proofs.Node.Contacts

namespace TokenMesh

/-!
# Networks that lose nothing

Where links lose nothing, nothing is lost at all: nodes know nobody but their neighbors and hear
from nobody else, so that there is a link for every message that they send.

* `Network.lost_route`: messages to neighbors are not lost;
* `Network.IsNeighbor`: the addresses of the nodes that a node is linked to;
* `Network.Tuned`: nothing is lost so far, and nodes know and hear their neighbors only;
* `Network.nothing_lost`: a network is tuned as long as its links lose nothing.
-/

/-- The address of a node that node `i` is linked to. -/
def Topology.IsNeighbor (t : Topology) (i : Nat) (a : Address) : Prop :=
  ∃ j < t.nodeCount, t.isLinked i j = true ∧ a = Network.addressOf j

/-- A node keeps to those whom it knows and those whom it hears. -/
theorem Node.Reacts.keepsTo {S : Address → Prop} {n : Node} {i : Nat} {e : Occurrence}
    {r : Reaction} {os : List Origination} (h : n.Reacts i e r os) (hn : n.KnowsOnly S)
    (hs : ∀ a bytes, e = .deliver i a bytes → S a) : r.KeepsTo S := by
  cases h with
  | heard sender bytes now => exact keepsTo_handleDatagram hn (hs sender bytes rfl) bytes now
  | timer kind generation now => exact keepsTo_timer hn kind now
  | originated ho => exact keepsTo_of_originate hn ho
  | notOriginated ho => exact keepsTo_of_originate hn ho
  | crashed he hp =>
    obtain ⟨_, hdown, hsends, _⟩ := powerDown_eq_ok hp
    exact keepsTo_of_same hn (by rw [hdown]) (by simp [hsends])
  | roleSet role => exact keepsTo_setRole hn role

namespace Network

/-! ### Messages to neighbors -/

/-- Many things one after the other, none of which loses anything. -/
theorem lost_foldl {α : Type} (f : Network → α → Network) (net : Network) (l : List α)
    (hf : ∀ net', AirOnly net net' → ∀ a ∈ l, AirOnly net' (f net' a) ∧
      (f net' a).metrics.lost = net'.metrics.lost) :
    (l.foldl f net).metrics.lost = net.metrics.lost := by
  induction l generalizing net with
  | nil => rfl
  | cons a l ih =>
    obtain ⟨ha, hlost⟩ := hf net (.refl net) a List.mem_cons_self
    rw [List.foldl_cons, ih (f net a), hlost]
    intro net' hair b hb
    exact hf net' (ha.trans hair) b (List.mem_cons_of_mem _ hb)

/-- Node `i` is linked to the node at an address. -/
def Reaches (net : Network) (i : Nat) (a : Address) : Prop :=
  ∃ j, net.indexOf? a = some j ∧ net.topology.isLinked i j = true

theorem Reaches.of_same {net net' : Network} {i : Nat} {a : Address} (h : net.Reaches i a)
    (hs : net'.size = net.size) (ht : net'.topology = net.topology) : net'.Reaches i a := by
  obtain ⟨j, hj, hlink⟩ := h
  refine ⟨j, ?_, by rw [ht]; exact hlink⟩
  show indexAt? net'.size a = some j
  rw [hs]
  exact hj

theorem Reaches.of_airOnly {net net' : Network} {i : Nat} {a : Address} (h : net.Reaches i a)
    (ha : AirOnly net net') : net'.Reaches i a :=
  h.of_same (by unfold size; rw [ha.members]) ha.topology

theorem lost_transmit {net : Network} (hl : Lossless net) {i j : Nat}
    (h : net.topology.isLinked i j = true) (bytes : List UInt8) :
    (net.transmit i j bytes).metrics.lost = net.metrics.lost := by
  rw [transmit_of_lossless hl h]
  rfl

theorem lost_send {net : Network} (hl : Lossless net) {i : Nat} {out : Outbound}
    (h : ∀ peer m, out = .unicast peer m → net.Reaches i peer) :
    (send i net out).metrics.lost = net.metrics.lost := by
  have hrec : AirOnly net (net.recordSent out.message) := rfl
  cases out with
  | unicast peer m =>
    obtain ⟨j, hj, hlink⟩ := h peer m rfl
    rw [send_unicast hj]
    exact lost_transmit (hl.of_airOnly hrec) hlink _
  | multicast m =>
    show (List.foldl _ (net.recordSent m) _).metrics.lost = (net.recordSent m).metrics.lost
    apply lost_foldl
    intro net' ha j hj
    have ha := hrec.trans ha
    have hlink : net'.topology.isLinked i j = true := by
      rw [ha.topology]
      exact Topology.mem_neighbors_iff.1 hj
    obtain ⟨_, has, _⟩ := net'.airs_transmit i j m.encode
    exact ⟨has.airOnly, lost_transmit (hl.of_airOnly ha) hlink _⟩

/-- Over links without losses nothing is lost of what goes to all neighbors, or to one of them. -/
theorem lost_route {net : Network} (hl : Lossless net) {i : Nat} {sends : List Outbound}
    (h : ∀ peer m, .unicast peer m ∈ sends → net.Reaches i peer) :
    (net.route i sends).metrics.lost = net.metrics.lost := by
  apply lost_foldl
  intro net' ha out hout
  obtain ⟨_, has, _⟩ := net'.airs_send i out
  refine ⟨has.airOnly, lost_send (hl.of_airOnly ha) ?_⟩
  intro peer m heq
  subst heq
  exact (h peer m hout).of_airOnly ha

/-! ### Neighbors -/

section Tuned

variable {t : Topology} {s : ProtocolSettings} {net net' : Network}

/-- Among at most 2¹⁶ nodes every neighbor is reached at its address. -/
theorem Placed.reaches (hp : Placed t s net) (hc : t.nodeCount ≤ 65536) {i : Nat} {a : Address}
    (h : t.IsNeighbor i a) : net.Reaches i a := by
  obtain ⟨j, hj, hlink, rfl⟩ := h
  refine ⟨j, ?_, (hp.linked i j).trans hlink⟩
  show indexAt? net.size (addressOf j) = some j
  rw [hp.size]
  exact indexAt?_addressOf hj hc

/-- Nothing has been lost, nodes know nobody but their neighbors, and deliveries come from nobody
    else. -/
structure Tuned (t : Topology) (net : Network) : Prop where
  lost : net.metrics.lost = 0
  known : ∀ i n, net.node? i = some n → n.KnowsOnly (t.IsNeighbor i)
  heard : ∀ x ∈ net.deliveries, ∀ i a bytes, x.event = .deliver i a bytes → t.IsNeighbor i a

/-- A node that keeps to its neighbors when it reacts keeps a network tuned. -/
theorem Tuned.react {mid : Network} {i : Nat} {n : Node} {r : Reaction} {os : List Origination}
    (h : Tuned t net) (hp : Placed t s net) (hc : t.nodeCount ≤ 65536) (hl : Lossless net)
    (hn : net.node? i = some n) (hm : Noted net i r os mid) (hk : r.KeepsTo (t.IsNeighbor i)) :
    Tuned t (mid.route i r.sends) := by
  have hsize : mid.size = net.size := by
    rw [← length_nodes, hm.nodes, length_nodes, size_setNode]
  refine ⟨?_, ?_, ?_⟩
  · have hlossless : Lossless mid := by
      unfold Lossless
      rw [hm.topology]
      exact hl
    rw [lost_route hlossless, hm.lost, h.lost]
    intro peer m hout
    exact (hp.reaches hc (hk.peers peer m hout)).of_same hsize hm.topology
  · intro j m hj
    rw [node?_congr (members_route ..), hm.node?, node?_setNode] at hj
    by_cases hij : i = j
    · subst hij
      rw [if_pos rfl, hn] at hj
      rw [← Option.some.inj hj]
      exact hk.known
    · rw [if_neg hij] at hj
      exact h.known j m hj
  · intro x hx j a bytes hj
    obtain ⟨as, has, harrive⟩ := mid.airs_route i r.sends
    rcases List.mem_append.1 ((deliveries_of_airs has harrive).mem_iff.1 hx) with hx | hx
    · -- links have no direction
      obtain ⟨_, _, hx⟩ := harrive x hx
      obtain ⟨k, hlink, hk⟩ := hx.event
      rw [hj] at hk
      obtain ⟨rfl, rfl, _⟩ := Occurrence.deliver.inj hk
      rw [hm.topology, hp.linked, Topology.isLinked_comm] at hlink
      exact ⟨i, hp.lt_of_node? hn, hlink, rfl⟩
    · exact h.heard x (hm.deliveries.mem_iff.1 hx) j a bytes hj

theorem Tuned.of_quiet (h : Tuned t net) (hq : Quiet net net') : Tuned t net' where
  lost := hq.lost.trans h.lost
  known i n hn := h.known i n ((hq.node? i).symm.trans hn)
  heard x hx := h.heard x (hq.deliveries.mem_iff.1 hx)

/-- A turn keeps a network tuned if the node at turn hears one of its neighbors, or nobody. -/
theorem tuned_turn {e : Occurrence} (h : Tuned t net) (hp : Placed t s net)
    (hc : t.nodeCount ≤ 65536) (hl : Lossless net) (ht : Turn net e net')
    (he : ∀ i a bytes, e = .deliver i a bytes → t.IsNeighbor i a) : Tuned t net' := by
  cases ht with
  | quiet _ hq => exact h.of_quiet hq
  | @react i n r os mid hn hr hm hq =>
    have hk := hr.keepsTo (h.known i n hn) (he i)
    exact (h.react hp hc hl hn hm hk).of_quiet hq

theorem tuned_step (hs : Step net net') (h : Tuned t net) (hp : Placed t s net)
    (hc : t.nodeCount ≤ 65536) (hl : Lossless net) : Tuned t net' := by
  obtain ⟨x, rest, hpop, ht⟩ | ⟨e, he, ht⟩ := turn_of_step hs
  · have hmem := mem_deliveries_of_pop? hpop
    have hturn : Tuned t (net.turnTo x rest) :=
      ⟨h.lost, h.known, fun y hy => h.heard y (hmem.2 y hy)⟩
    refine tuned_turn hturn (hp.of_same rfl rfl rfl) hc hl ht ?_
    intro i a bytes heq
    exact h.heard x (hmem.1 (by rw [heq]; rfl)) i a bytes heq
  · refine tuned_turn h hp hc hl ht ?_
    rintro i a bytes rfl
    cases he

/-- Nodes that have just been switched on know nobody. -/
theorem tuned_build (t : Topology) (s : ProtocolSettings) (seed : UInt64) :
    Tuned t (build t s seed) where
  lost := build_eq_blank t s seed (·.metrics.lost) fun _ _ => rfl
  known i n hn a ha := by
    rw [node?_build hn] at ha
    cases ha
  heard x hx i a bytes he := by
    obtain ⟨_, _, htimer⟩ := mem_pending_build (mem_deliveries.1 hx).1
    rw [he] at htimer
    cases htimer

theorem tuned_of_run {seed : UInt64} (hc : t.nodeCount ≤ 65536)
    (hr : Run Lossless (build t s seed) net) : Tuned t net := by
  have hinv : Placed t s net ∧ Tuned t net := by
    refine hr.invariant (fun net => Placed t s net ∧ Tuned t net) ?_ ?_
    · exact fun _ => ⟨placed_build t s seed, tuned_build t s seed⟩
    · intro net net' hl _ h hs
      exact ⟨placed_step hs h.1, tuned_step hs h.2 h.1 hc hl⟩
  exact hinv.2

/-- The neighbors of a node are the same all the way. -/
theorem isNeighbor_of_run {P : Network → Prop} {seed : UInt64} (hr : Run P (build t s seed) net)
    {i : Nat} {a : Address} : net.topology.IsNeighbor i a ↔ t.IsNeighbor i a := by
  unfold Topology.IsNeighbor
  simp only [nodeCount_of_run hr, (placed_of_run hr).linked]

end Tuned

/-- **Networks that lose nothing.**  As long as no link of a network of at most 2¹⁶ nodes loses
    anything, nothing is lost at all.  All that a node knows are addresses of nodes that it is
    linked to, every delivery on its way goes to a node from one that it is linked to, and whatever
    a node reacts to next, there is a link to everybody to whom it writes. -/
theorem nothing_lost {t : Topology} {s : ProtocolSettings} {seed : UInt64} {net : Network}
    (hclosed : t.Closed) (hcount : t.nodeCount ≤ 65536)
    (hr : Run Lossless (build t s seed) net) :
    net.metrics.lost = 0 ∧
      (∀ i n, net.node? i = some n → ∀ a ∈ n.neighbors.addresses,
        net.topology.IsNeighbor i a) ∧
      (∀ x ∈ net.pending, ∀ i a bytes, x.event = .deliver i a bytes →
        i < net.size ∧ net.topology.IsNeighbor i a) ∧
      ∀ i n e r os, net.node? i = some n → n.Reacts i e r os →
        (∀ a bytes, e = .deliver i a bytes → ∃ x ∈ net.pending, x.event = e) →
        ∀ peer m, .unicast peer m ∈ r.sends → net.Reaches i peer := by
  have hplaced := placed_of_run hr
  have htuned := tuned_of_run hcount hr
  have hheard : ∀ x ∈ net.pending, ∀ i a bytes, x.event = .deliver i a bytes →
      t.IsNeighbor i a := by
    intro x hx i a bytes he
    exact htuned.heard x (mem_deliveries.2 ⟨hx, by rw [he]; rfl⟩) i a bytes he
  refine ⟨htuned.lost, ?_, ?_, ?_⟩
  · intro i n hn a ha
    exact (isNeighbor_of_run hr).2 (htuned.known i n hn a ha)
  · intro x hx i a bytes he
    obtain ⟨j, hj, hlink, ha⟩ := hheard x hx i a bytes he
    refine ⟨?_, (isNeighbor_of_run hr).2 ⟨j, hj, hlink, ha⟩⟩
    rw [Topology.isLinked_comm] at hlink
    rw [hplaced.size]
    exact Topology.lt_of_isLinked hclosed hlink
  · intro i n e r os hn hreacts hpending peer m hout
    have hk := hreacts.keepsTo (htuned.known i n hn) (by
      intro a bytes he
      obtain ⟨x, hx, hxe⟩ := hpending a bytes he
      exact hheard x hx i a bytes (hxe.trans he))
    exact hplaced.reaches hcount (hk.peers peer m hout)

/-- Shortly after the first beacons, the second node of the pair asks for the token of the first
    one, which will answer. -/
theorem nothing_lost_pair : ∃ net n r,
    pair.runUntil (Time.ofMillis 10007) 100 = .ok net ∧ net.node? 0 = some n ∧
      addressOf 1 ∈ n.neighbors.addresses ∧
      n.Reacts 0 (.deliver 0 (addressOf 1) (Message.control 0).encode) r [] ∧
      .unicast (addressOf 1) (.answer n.token) ∈ r.sends ∧
      net.metrics.lost = 0 ∧ net.topology.IsNeighbor 0 (addressOf 1) ∧
      net.Reaches 0 (addressOf 1) := by
  let asked : Occurrence := .deliver 0 (addressOf 1) (Message.control 0).encode
  obtain ⟨net, hrun, hp⟩ := exists_of_endsWith
    (p := fun net => asked ∈ net.pending.map (·.event) ∧ (net.node? 0).any fun n =>
      addressOf 1 ∈ n.neighbors.addresses ∧ n.isDown = false ∧ addressOf 1 ≠ n.address)
    (by decide +kernel : pair.endsWith (Time.ofMillis 10007) 100 _ = true)
  obtain ⟨hasked, hnode⟩ := of_decide_eq_true hp
  obtain ⟨x, hx, hxe⟩ := List.mem_map.1 hasked
  obtain ⟨n, hn, htest⟩ := (Option.any_eq_true _ _).1 hnode
  obtain ⟨hknown, hup, hne⟩ := of_decide_eq_true htest
  have hr : Run Lossless (build (.build .line 2) {} 7) net :=
    (run_pair.runUntil_of_calm hrun).1.mono fun _ h => h.lossless
  have hreacts : n.Reacts 0 asked _ [] := .heard (addressOf 1) _ net.clock
  have hout : .unicast (addressOf 1) (.answer n.token) ∈
      (n.handleDatagram (addressOf 1) (Message.control 0).encode net.clock).sends := by
    rw [Node.sends_of_control hup hne]
    exact List.mem_singleton_self _
  obtain ⟨hlost, _, hheard, hreaches⟩ := nothing_lost (by decide) (by decide) hr
  exact ⟨net, n, _, hrun, hn, hknown, hreacts, hout, hlost, (hheard x hx 0 _ _ hxe).2,
    hreaches 0 n asked _ [] hn hreacts (fun _ _ _ => ⟨x, hx, hxe⟩) _ _ hout⟩

end Network

end TokenMesh
