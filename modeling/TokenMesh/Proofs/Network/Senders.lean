import TokenMesh.Proofs.Network.Calm
import TokenMesh.Proofs.Network.Delivery
import TokenMesh.Proofs.Network.Turn

namespace TokenMesh

/-!
# Senders

A delivery tells nothing of its sender but an address, and whoever answers it writes to that
address.  What happens in a run is therefore recorded beside it: which node has put which delivery
on the air.  The answers go back to that node as long as no later node has its address.

* `Network.Puts`, `Network.Posts`: a node takes its turn, and a delivery joins those on their way;
* `Network.Sent`: what a node has put on the air since the start of a run, and is still on its way;
* `Network.exists_sent_of_run`: every delivery on its way has been sent by a node;
* `Network.Sent.comesFrom`: it carries the address of that node;
* `Network.replies_return`: answers go back to the sender;
* `Network.stray_reply`: they go astray where there are more nodes than addresses.
-/

namespace Network

/-! ### What is sent -/

/-- Node `i` takes its turn at an event, and a delivery joins those on their way. -/
structure Puts (net : Network) (e : Occurrence) (i : Nat) (x : Scheduled Occurrence)
    (net' : Network) : Prop where
  turn : ∃ n r os mid, net.node? i = some n ∧ n.Reacts i e r os ∧ Noted net i r os mid ∧
    Quiet (mid.route i r.sends) net'
  fresh : x ∉ net.deliveries
  underway : x ∈ net'.deliveries

/-- Node `i` takes its turn in a step, and a delivery joins those on their way. -/
def Posts (net : Network) (i : Nat) (x : Scheduled Occurrence) (net' : Network) : Prop :=
  (∃ y rest, net.queue.pop? = some (y, rest) ∧ Puts (net.turnTo y rest) y.event i x net') ∨
    ∃ e, e.isDelivery = false ∧ Puts net e i x net'

/-- A delivery that node `i` has put on the air since the start of a run, and that is on its way
    ever since. -/
inductive Sent (start : Network) (i : Nat) (x : Scheduled Occurrence) : Network → Prop
  | posted {net net' : Network} (hr : Run (fun _ => True) start net) (hs : Step net net')
      (hp : Posts net i x net') : Sent start i x net'
  | waiting {net net' : Network} (h : Sent start i x net) (hs : Step net net')
      (hx : x ∈ net'.deliveries) : Sent start i x net'

/-- A delivery that joins the others in a turn has been put on the air by the node at turn. -/
theorem exists_puts_of_turn {net net' : Network} {e : Occurrence} {x : Scheduled Occurrence}
    (ht : Turn net e net') (hx : x ∈ net'.deliveries) (hfresh : x ∉ net.deliveries) :
    ∃ i, Puts net e i x net' := by
  cases ht with
  | quiet _ hq => exact absurd (hq.deliveries.mem_iff.1 hx) hfresh
  | @react i n r os mid hn hr hm hq => exact ⟨i, ⟨n, r, os, mid, hn, hr, hm, hq⟩, hfresh, hx⟩

/-- After a step, a delivery has been on its way before, or a node has put it on the air. -/
theorem posts_of_step {net net' : Network} {x : Scheduled Occurrence} (hs : Step net net')
    (hx : x ∈ net'.deliveries) : x ∈ net.deliveries ∨ ∃ i, Posts net i x net' := by
  by_cases hold : x ∈ net.deliveries
  · exact .inl hold
  right
  obtain ⟨y, rest, hp, ht⟩ | ⟨e, he, ht⟩ := turn_of_step hs
  · -- what is left in the queue has been there before
    obtain ⟨i, h⟩ := exists_puts_of_turn ht hx fun h => hold ((mem_deliveries_of_pop? hp).2 x h)
    exact ⟨i, .inl ⟨y, rest, hp, h⟩⟩
  · obtain ⟨i, h⟩ := exists_puts_of_turn ht hx hold
    exact ⟨i, .inr ⟨e, he, h⟩⟩

section build

variable {t : Topology} {s : ProtocolSettings} {seed : UInt64} {net net' : Network} {i : Nat}
  {x : Scheduled Occurrence}

/-- Every delivery on its way has been sent by a node. -/
theorem exists_sent_of_run (hr : Run (fun _ => True) (build t s seed) net)
    (hx : x ∈ net.deliveries) : ∃ i, Sent (build t s seed) i x net := by
  -- the induction is on the run; a delivery has been sent in the last step or before it
  induction hr with
  | start _ =>
    obtain ⟨hpending, hdelivery⟩ := mem_deliveries.1 hx
    obtain ⟨_, _, htimer⟩ := mem_pending_build hpending
    rw [htimer] at hdelivery
    cases hdelivery
  | step hr hs _ ih =>
    obtain hold | ⟨i, hp⟩ := posts_of_step hs hx
    · obtain ⟨i, h⟩ := ih hold
      exact ⟨i, .waiting h hs hx⟩
    · exact ⟨i, .posted hr hs hp⟩

/-- A delivery comes from node `i`: it carries the address of that node, and goes over one of its
    links. -/
structure ComesFrom (t : Topology) (i : Nat) (x : Scheduled Occurrence) : Prop where
  lt : i < t.nodeCount
  event : ∃ j bytes, x.event = .deliver j (addressOf i) bytes ∧ t.isLinked j i = true

/-- What a node puts on the air comes from it. -/
theorem Puts.comesFrom {e : Occurrence} (h : Puts net e i x net') (hp : Placed t s net) :
    ComesFrom t i x := by
  obtain ⟨n, r, os, mid, hn, _, hm, hq⟩ := h.turn
  refine ⟨hp.lt_of_node? hn, ?_⟩
  obtain ⟨as, has, harrive⟩ := mid.airs_route i r.sends
  have hx := (hq.deliveries.trans (deliveries_of_airs has harrive)).mem_iff.1 h.underway
  rcases List.mem_append.1 hx with hx | hx
  · obtain ⟨_, _, harr⟩ := harrive x hx
    obtain ⟨j, hlink, hj⟩ := harr.event
    rw [hm.topology, hp.linked, Topology.isLinked_comm] at hlink
    exact ⟨j, _, hj, hlink⟩
  · exact absurd (hm.deliveries.mem_iff.1 hx) h.fresh

/-- What a node has sent comes from it, however long it has been on its way. -/
theorem Sent.comesFrom (h : Sent (build t s seed) i x net) : ComesFrom t i x := by
  induction h with
  | posted hr _ hp =>
    have hplaced := placed_of_run hr
    obtain ⟨y, rest, _, h⟩ | ⟨e, _, h⟩ := hp
    · exact h.comesFrom (hplaced.of_same rfl rfl rfl)
    · exact h.comesFrom hplaced
  | waiting _ _ _ ih => exact ih

end build

/-! ### Answers -/

/-- **Answers to the sender.**  Every node has the address of its index.  No two nodes of a network
    have the same address just if there are at most 2¹⁶ of them.  The node at an address is the
    last one that has it, so that a node is found at its address just if none of the nodes that
    come 2¹⁶ places or more behind it is there.  In whatever state a network is, every delivery on
    its way has been sent by a node, and every node that has sent it is linked to the receiver and
    has the address that the delivery shows; whatever the receiver then writes to that address is
    transmitted to that very node if it is found at its address, as all of at most 2¹⁶ nodes
    are. -/
theorem replies_return {t : Topology} {s : ProtocolSettings} {seed : UInt64} {net : Network}
    (hr : Run (fun _ => True) (build t s seed) net) :
    (∀ i n, net.node? i = some n → n.address = addressOf i) ∧
      ((∀ i < net.size, ∀ j < net.size, addressOf i = addressOf j → i = j) ↔
        net.size ≤ 65536) ∧
      (∀ a i, net.indexOf? a = some i ↔ IsGreatest {k | k < net.size ∧ addressOf k = a} i) ∧
      (∀ i < net.size, net.indexOf? (addressOf i) = some i ↔ net.size ≤ i + 65536) ∧
      (∀ x ∈ net.deliveries, ∃ i, Sent (build t s seed) i x net) ∧
      ∀ i x, Sent (build t s seed) i x net →
        i < net.size ∧ ∃ j bytes, x.event = .deliver j (addressOf i) bytes ∧
          net.topology.isLinked j i = true ∧
          (net.size ≤ i + 65536 → ∀ mid : Network, mid.size = net.size → ∀ m,
            send j mid (.unicast (addressOf i) m) =
              (mid.recordSent m).transmit j i m.encode) := by
  have hplaced := placed_of_run hr
  refine ⟨hplaced.address, forall_addressOf_injective_iff, fun a i => indexAt?_eq_some_iff,
    fun i hi => indexAt?_addressOf_iff hi, fun x hx => exists_sent_of_run hr hx, ?_⟩
  intro i x hsent
  obtain ⟨hlt, j, bytes, hevent, hlink⟩ := hsent.comesFrom
  rw [← hplaced.size] at hlt
  rw [← hplaced.linked] at hlink
  refine ⟨hlt, j, bytes, hevent, hlink, ?_⟩
  intro hlast mid hsize m
  have hfound : mid.indexOf? (addressOf i) = some i := by
    show indexAt? mid.size (addressOf i) = some i
    rw [hsize]
    exact (indexAt?_addressOf_iff hlt).2 hlast
  exact send_unicast hfound j m

/-- Shortly after the first beacons, the second node of the pair asks for the token of the first
    one: it is the second one that has asked, and that the answer goes to. -/
theorem replies_return_pair : ∃ net x,
    pair.runUntil (Time.ofMillis 10007) 100 = .ok net ∧ x ∈ net.deliveries ∧
      x.event = .deliver 0 (addressOf 1) (Message.control 0).encode ∧
      Sent (build (.build .line 2) {} 7) 1 x net ∧
      send 0 net (.unicast (addressOf 1) (.answer ⟨5, 1⟩)) =
        (net.recordSent (.answer ⟨5, 1⟩)).transmit 0 1 (Message.answer ⟨5, 1⟩).encode := by
  let asked : Occurrence := .deliver 0 (addressOf 1) (Message.control 0).encode
  obtain ⟨net, hrun, hp⟩ := exists_of_endsWith
    (p := fun net => asked ∈ net.pending.map (·.event))
    (by decide +kernel : pair.endsWith (Time.ofMillis 10007) 100 _ = true)
  obtain ⟨x, hx, hxe⟩ := List.mem_map.1 (of_decide_eq_true hp)
  have hdelivery : x ∈ net.deliveries := mem_deliveries.2 ⟨hx, by rw [hxe]; rfl⟩
  have hr : Run (fun _ => True) (build (.build .line 2) {} 7) net :=
    (run_pair.runUntil_of_calm hrun).1.mono fun _ _ => trivial
  have hsize : net.size = 2 := (placed_of_run hr).size
  obtain ⟨_, hdistinct, _, _, hall, hreply⟩ := replies_return hr
  obtain ⟨i, hsent⟩ := hall x hdelivery
  obtain ⟨hi, j, bytes, he, _, hback⟩ := hreply i x hsent
  -- only one node has the address that the delivery shows
  obtain ⟨rfl, haddress, _⟩ := Occurrence.deliver.inj (hxe.symm.trans he)
  obtain rfl : 1 = i := hdistinct.2 (by omega) 1 (by omega) i hi haddress
  exact ⟨net, x, hrun, hdelivery, hxe, hsent, hback (by omega) net rfl _⟩

/-- One node more than there are addresses, of which the first two hear each other. -/
def crowd : Network := build ((Topology.isolated 65537).addLink 0 1) {} 7

/-- The last node of the crowd has the address of the first one, and is found in its place.  What
    the second node answers to the first one is lost, although they hear each other. -/
theorem stray_reply :
    0 < crowd.size ∧ 65536 < crowd.size ∧ addressOf 65536 = addressOf 0 ∧
      crowd.indexOf? (addressOf 0) = some 65536 ∧ crowd.topology.isLinked 1 0 = true ∧
      ∀ m, send 1 crowd (.unicast (addressOf 0) m) = (crowd.recordSent m).lose := by
  have hsize : crowd.size = 65537 := size_build ..
  have htopology : crowd.topology = (Topology.isolated 65537).addLink 0 1 := topology_build ..
  have hshared : addressOf 65536 = addressOf 0 := by decide
  have hfound : crowd.indexOf? (addressOf 0) = some 65536 := by
    show indexAt? crowd.size (addressOf 0) = some 65536
    rw [hsize, ← hshared]
    exact (indexAt?_addressOf_iff (by omega)).2 (by omega)
  have hnear : crowd.topology.isLinked 1 0 = true := by
    rw [htopology]
    decide
  have hapart : crowd.topology.isLinked 1 65536 = false := by
    rw [htopology]
    decide
  refine ⟨by omega, by omega, hshared, hfound, hnear, ?_⟩
  intro m
  have hrec : ∀ net : Network, (net.recordSent m).topology = net.topology := fun _ => rfl
  have hlost : (crowd.recordSent m).topology.isLinked 1 65536 = false := by
    rw [hrec, hapart]
  rw [send_unicast hfound, transmit_of_apart hlost]

end Network

end TokenMesh
