import TokenMesh.Proofs.Network.Run

namespace TokenMesh

/-!
# The ledgers of a network

A network counts the messages that are put on the air, and every node counts those that it sends.
The two are kept in different places, and neither loses a message nor counts one twice.

* `Topology.dues`: how many deliveries all messages make that a node has sent so far;
* `Occurrence.isDelivery`: whether an event is a delivery on its way;
* `Network.Balanced`: the messages agree, kind by kind and in total, and every delivery that was
  due has arrived, is lost, or is on its way;
* `Network.balanced_effect`: every event keeps the ledgers in balance.
-/

namespace Occurrence

/-- Whether an event is the arrival of a datagram. -/
def isDelivery : Occurrence → Bool
  | deliver .. => true
  | _ => false

end Occurrence

namespace Topology

/-- How many deliveries the messages make that node `i` has sent: one for each that goes to one
    peer, and one for each neighbor for those that go to all. -/
def dues (t : Topology) (i : Nat) (c : Counters) : Nat :=
  c.sentOf .data + c.sentOf .control + c.sentOf .recover +
    t.degree i * (c.sentOf .announce + c.sentOf .beacon)

/-- The deliveries of some messages, if only broadcasts go to all neighbors. -/
theorem sum_fanOut (t : Topology) (i : Nat) {sends : List Outbound}
    (h : ∀ out ∈ sends, out.isMulticast = out.message.kind.isBroadcast) :
    (sends.map (t.fanOut i)).sum =
      sends.countP (·.message.kind = .data) + sends.countP (·.message.kind = .control) +
        sends.countP (·.message.kind = .recover) +
        t.degree i * (sends.countP (·.message.kind = .announce) +
          sends.countP (·.message.kind = .beacon)) := by
  induction sends with
  | nil => simp
  | cons out sends ih =>
    have ih := ih fun o ho => h o (List.mem_cons_of_mem _ ho)
    have hout := h out List.mem_cons_self
    simp only [List.map_cons, List.sum_cons, List.countP_cons, ih]
    cases out with
    | unicast peer m =>
      -- one delivery, and the kind is one of the three that go to one peer
      cases m with
      | announce => cases hout
      | beacon version => cases hout
      | data value version hops => simp [fanOut, Outbound.message, Message.kind]; omega
      | control version => simp [fanOut, Outbound.message, Message.kind]; omega
      | recover value version => simp [fanOut, Outbound.message, Message.kind]; omega
    | multicast m =>
      -- one delivery for each neighbor, and the kind is one of the other two
      cases m with
      | announce => simp [fanOut, Outbound.message, Message.kind, Nat.mul_add]; omega
      | beacon version => simp [fanOut, Outbound.message, Message.kind, Nat.mul_add]; omega
      | data value version hops => cases hout
      | control version => cases hout
      | recover value version => cases hout

/-- What a node sends makes as many more deliveries due. -/
theorem dues_of_lawful (t : Topology) (i : Nat) {n : Node} {r : Reaction} (h : r.Lawful n) :
    t.dues i r.node.counters = t.dues i n.counters + (r.sends.map (t.fanOut i)).sum := by
  rw [t.sum_fanOut i h.multicast]
  simp only [dues, h.sentOf, Nat.mul_add]
  omega

/-- Loss rates make no difference to who hears whom. -/
@[simp] theorem neighbors_setLossRate (t : Topology) (rate : Binary64) (i : Nat) :
    (t.setLossRate rate).neighbors i = t.neighbors i := by
  show (t.links.map _).filterMap _ = t.links.filterMap _
  rw [List.filterMap_map]
  rfl

@[simp] theorem degree_setLossRate (t : Topology) (rate : Binary64) (i : Nat) :
    (t.setLossRate rate).degree i = t.degree i := by
  unfold degree
  rw [neighbors_setLossRate]

end Topology

namespace Network

/-- How many deliveries are on their way. -/
def inFlight (net : Network) : Nat := net.pending.countP (·.event.isDelivery)

/-- How many deliveries the messages make that all nodes have sent. -/
def dues (net : Network) : Nat := net.total fun i n => net.topology.dues i n.counters

/-- The ledgers agree.  Of the deliveries due, `held` have been taken from the queue and are not
    counted yet. -/
structure Balanced (net : Network) (held : Nat) : Prop where
  kinds : ∀ k, net.metrics.sentOf k = net.total fun _ n => n.counters.sentOf k
  messages : net.metrics.totalSent = net.total fun _ n => n.counters.messagesSent
  deliveries : net.metrics.delivered + net.metrics.lost + net.inFlight + held = net.dues

/-! ### What the ledgers rest on -/

theorem inFlight_congr {net net' : Network} (h : net'.pending.Perm net.pending) :
    net'.inFlight = net.inFlight :=
  h.countP_eq _

/-- Timers and the like are no deliveries. -/
theorem inFlight_schedule {net : Network} {time : Nat} {e : Occurrence}
    (he : e.isDelivery = false) : (net.schedule time e).inFlight = net.inFlight := by
  show (net.schedule time e).pending.countP _ = net.pending.countP _
  rw [(pending_schedule net time e).countP_eq, List.countP_cons]
  simp [he]

theorem inFlight_setBootTimers (net : Network) (i generation : Nat) :
    (net.setBootTimers i generation).inFlight = net.inFlight := by
  have h₁ : (net.setTimer i .announce generation net.settings.initialAnnounceDelay).inFlight =
      net.inFlight := inFlight_schedule rfl
  exact (inFlight_schedule rfl).trans h₁

/-- Every arrival of a message is a delivery on its way. -/
theorem inFlight_of_airs {net net' : Network} {as : List (Scheduled Occurrence)} {n i : Nat}
    {sends : List Outbound} (h : Airs net net' as n)
    (ha : ∀ e ∈ as, ∃ out ∈ sends, IsArrival net i out.message.encode e) :
    net'.inFlight = as.length + net.inFlight := by
  have hall : as.countP (·.event.isDelivery) = as.length := by
    apply List.countP_eq_length.2
    intro e he
    obtain ⟨out, _, h⟩ := ha e he
    obtain ⟨j, _, hj⟩ := h.event
    rw [hj]
    rfl
  show net'.pending.countP _ = _
  rw [h.pending.countP_eq, List.countP_append, hall]
  rfl

namespace Balanced

variable {net net' : Network} {held : Nat}

/-- The ledgers are about the nodes, the links, some metrics and the deliveries on their way. -/
theorem of_same (h : Balanced net held) (hn : net'.nodes = net.nodes)
    (ht : ∀ i, net'.topology.degree i = net.topology.degree i)
    (hs : net'.metrics.sent = net.metrics.sent)
    (hd : net'.metrics.delivered = net.metrics.delivered)
    (hl : net'.metrics.lost = net.metrics.lost)
    (hf : net'.inFlight = net.inFlight) : Balanced net' held where
  kinds k := by
    rw [total_congr _ hn, ← h.kinds k]
    simp only [Metrics.sentOf, hs]
  messages := by
    rw [total_congr _ hn, ← h.messages]
    simp only [Metrics.totalSent, hs]
  deliveries := by
    have hdues : net'.dues = net.dues := by
      simp only [dues, Topology.dues, ht]
      exact total_congr _ hn
    rw [hdues, ← h.deliveries, hd, hl, hf]

/-- A node that reacts and sends its messages keeps the ledgers in balance, whatever else is
    noted between the two. -/
theorem react {i : Nat} {n : Node} {r : Reaction} (h : Balanced net held)
    (hi : net.node? i = some n) (hr : r.Lawful n)
    (hn : net'.nodes = (net.setNode i r.node).nodes) (ht : net'.topology = net.topology)
    (hm : net'.metrics = net.metrics) (hp : net'.pending = net.pending) :
    Balanced (net'.route i r.sends) held where
  kinds k := by
    have hk := h.kinds k
    have hset := total_setNode (fun _ n => n.counters.sentOf k) r.node hi
    have hlaw := hr.sentOf k
    rw [sentOf_route, hm, total_congr _ (nodes_congr (members_route ..)), total_congr _ hn]
    omega
  messages := by
    have hm' := h.messages
    have hset := total_setNode (fun _ n => n.counters.messagesSent) r.node hi
    have hlaw := hr.messagesSent
    rw [totalSent_route, hm, total_congr _ (nodes_congr (members_route ..)), total_congr _ hn]
    omega
  deliveries := by
    have hd := h.deliveries
    have hset := total_setNode (fun i n => net.topology.dues i n.counters) r.node hi
    have hlaw := net.topology.dues_of_lawful i hr
    obtain ⟨as, has, hp'⟩ := net'.airs_route i r.sends
    -- the deliveries that the messages make are on their way or lost
    have hbal := has.balance
    have hfly := inFlight_of_airs has hp'
    have hfly' : net'.inFlight = net.inFlight := inFlight_congr (.of_eq hp)
    have hdues : (net'.route i r.sends).dues =
        (net.setNode i r.node).total fun i n => net.topology.dues i n.counters := by
      unfold dues
      rw [total_congr _ (nodes_congr (members_route ..)), total_congr _ hn, topology_route, ht]
    rw [hdues, has.airOnly.delivered, hm, hfly, hfly']
    rw [ht, hm] at hbal
    unfold dues at hd
    omega

/-- A node reacts to something. -/
theorem follow {i : Nat} {n : Node} {r : Reaction} (h : Balanced net held)
    (hi : net.node? i = some n) (hr : r.Lawful n) : Balanced (net.follow i r) held :=
  h.react hi hr rfl rfl rfl rfl

/-- A node reacts to something without a message. -/
theorem absorb {i : Nat} {n : Node} {r : Reaction} (h : Balanced net held)
    (hi : net.node? i = some n) (hr : r.Lawful n) (hs : r.sends = []) :
    Balanced (net.absorb i r) held := by
  have hf := h.follow hi hr
  unfold Network.follow at hf
  rw [hs] at hf
  exact hf

/-- Something other than a delivery is planned. -/
theorem schedule {time : Nat} {e : Occurrence} (h : Balanced net held)
    (he : e.isDelivery = false) : Balanced (net.schedule time e) held :=
  h.of_same rfl (fun _ => rfl) rfl rfl rfl (inFlight_schedule he)

theorem setBootTimers (h : Balanced net held) (i generation : Nat) :
    Balanced (net.setBootTimers i generation) held :=
  h.of_same rfl (fun _ => rfl) rfl rfl rfl (inFlight_setBootTimers ..)

theorem tell (h : Balanced net held) (notices : List Notice) :
    Balanced (net.tell notices) held :=
  h.of_same rfl (fun _ => rfl) rfl rfl rfl rfl

/-- One delivery out of the queue has arrived. -/
theorem countDelivery (h : Balanced net 1) : Balanced net.countDelivery 0 where
  kinds := h.kinds
  messages := h.messages
  deliveries := by
    have hd := h.deliveries
    show net.metrics.delivered + 1 + net.metrics.lost + net.inFlight + 0 = net.dues
    omega

theorem fireTimer {i : Nat} {m : Member} (h : Balanced net held)
    (hm : net.members[i]? = some m) (kind : TimerKind) :
    Balanced (net.fireTimer i m kind) held := by
  have hi : net.node? i = some m.node := node?_eq_some_iff.2 ⟨m, hm, rfl⟩
  cases kind with
  | announce => exact (h.follow hi (m.node.lawful_handle _ _)).schedule rfl
  | beacon => exact (h.follow hi (m.node.lawful_handle _ _)).schedule rfl
  | restart =>
    show Balanced (net.restart i m) held
    rw [restart_eq]
    refine setBootTimers ?_ i _
    have hf := h.follow hi (m.node.lawful_handle .restartTimer net.clock)
    exact hf.of_same (nodes_nextGeneration ..) (fun _ => rfl) rfl rfl rfl rfl

end Balanced

/-! ### All that happens -/

/-- Every event keeps the ledgers in balance; a delivery at hand is counted. -/
theorem balanced_effect {net net' : Network} {e : Occurrence} (he : Effect net e net')
    (h : Balanced net (if e.isDelivery then 1 else 0)) : Balanced net' 0 := by
  -- a delivery at hand is counted when it arrives, and no other event is held
  induction he with
  | arrival sender bytes hn =>
    exact h.countDelivery.follow hn (Node.lawful_handleDatagram ..)
  | stale kind generation hm hg => exact h
  | fired kind hm => exact h.fireTimer hm kind
  | ignored hf => exact h
  | @considered net f g vetoes hf =>
    have hs : Balanced (net.schedule (net.clock + f.tick) .failureTick) 0 := h.schedule rfl
    exact hs.of_same rfl (fun _ => rfl) rfl rfl rfl rfl
  | @injected net net' f i g hf hi he ih =>
    -- the tick is planned and the crash announced before the crash itself
    have hs : Balanced (net.schedule (net.clock + f.tick) .failureTick) 0 := h.schedule rfl
    exact ih (hs.of_same rfl (fun _ => rfl) rfl rfl rfl rfl)
  | @originated net i n value r t hn ho =>
    exact h.react hn (Node.lawful_of_originate ho) rfl rfl rfl rfl
  | @notOriginated net i n value r e hn ho =>
    have hs := (Node.originate_eq_error ho).2
    exact (h.absorb hn (Node.lawful_of_originate ho) hs).tell _
  | nowhere value hn => exact h.tell _
  | @crashed net i recovery m r hm hp =>
    obtain ⟨_, _, hs, hr⟩ := Node.powerDown_eq_ok hp
    have ha := h.absorb (node?_eq_some_iff.2 ⟨m, hm, rfl⟩) hr hs
    exact Balanced.schedule (ha.of_same rfl (fun _ => rfl) rfl rfl rfl rfl) rfl
  | notCrashed hm hp => exact h.tell _
  | noCrash recovery hm => exact h
  | roleSet role hn => exact h.absorb hn (Node.lawful_setRole ..) (Node.sends_setRole ..)
  | noRole role hn => exact h
  | lossRateSet rate =>
    exact h.of_same rfl (fun i => Topology.degree_setLossRate _ rate i) rfl rfl rfl rfl

/-- A delivery that is taken from the queue is held until it is counted. -/
theorem balanced_turnTo {net : Network} {e : Scheduled Occurrence}
    {rest : EventQueue Occurrence} (hp : net.queue.pop? = some (e, rest))
    (h : Balanced net 0) :
    Balanced (net.turnTo e rest) (if e.event.isDelivery then 1 else 0) where
  kinds := h.kinds
  messages := h.messages
  deliveries := by
    have hd := h.deliveries
    have hfly : net.inFlight =
        (net.turnTo e rest).inFlight + if e.event.isDelivery then 1 else 0 := by
      show net.pending.countP _ = _
      rw [(pending_of_pop? hp).countP_eq, List.countP_cons]
      rfl
    show net.metrics.delivered + net.metrics.lost + (net.turnTo e rest).inFlight + _ = net.dues
    omega

theorem balanced_step {net net' : Network} (hs : Step net net') (h : Balanced net 0) :
    Balanced net' 0 := by
  cases hs with
  | plan time a => exact h.schedule rfl
  | setRole i role =>
    have he := effect_setRole net i role
    exact balanced_effect he h
  | withFailures f =>
    unfold withFailures
    split
    · exact h.tell _
    · have hs : Balanced (net.schedule (net.clock + f.tick) .failureTick) 0 := h.schedule rfl
      exact hs.of_same rfl (fun _ => rfl) rfl rfl rfl rfl
  | event limit hn =>
    obtain ⟨e, rest, net₁, hp, _, he, rfl⟩ := exists_effect_of_next hn
    have hb := balanced_effect he (balanced_turnTo hp h)
    exact hb.of_same (nodes_congr (members_watch _)) (fun i => by rw [topology_watch])
      (by rw [metrics_watch]) (by rw [metrics_watch]) (by rw [metrics_watch])
      (inFlight_congr (.of_eq (pending_watch _)))
  | rest limit hn => exact h.of_same rfl (fun _ => rfl) rfl rfl rfl rfl

/-- Nodes that have just been switched on have not sent anything. -/
theorem balanced_build (t : Topology) (s : ProtocolSettings) (seed : UInt64) :
    Balanced (build t s seed) 0 := by
  refine build_induction t s seed (fun _ net => Balanced net 0) ?_ ?_
  · exact ⟨fun k => rfl, rfl, rfl⟩
  · intro k net _ h
    have hn := nodes_addNode seed net k
    have hfly : (addNode seed net k).inFlight = net.inFlight := inFlight_setBootTimers ..
    -- a new node has not sent anything, and its timers are no deliveries
    have hzero : ∀ k, Counters.sentOf {} k = 0 := fun k => by cases k <;> rfl
    refine ⟨?_, ?_, ?_⟩
    · intro k
      rw [total_concat _ hn, ← h.kinds k]
      show net.metrics.sentOf k = net.metrics.sentOf k + Counters.sentOf {} k
      rw [hzero]
      rfl
    · rw [total_concat _ hn, ← h.messages]
      rfl
    · have hdues : (addNode seed net k).dues = net.dues := by
        show (addNode seed net k).total _ = _
        rw [total_concat _ hn]
        show net.dues + net.topology.dues net.size {} = net.dues
        simp [Topology.dues, hzero]
      rw [hdues, hfly]
      exact h.deliveries

theorem balanced_of_reachable {net : Network} (h : Reachable net) : Balanced net 0 := by
  obtain ⟨t, s, seed, hr⟩ := h
  apply hr.invariant (Balanced · 0) (fun _ => balanced_build t s seed)
  intro net net' _ _ hb hs
  exact balanced_step hs hb

/-- The deliveries due are the messages to single peers, and the broadcasts of every node once for
    each of its neighbors. -/
theorem Balanced.dues_eq {net : Network} {held : Nat} (h : Balanced net held) :
    net.dues = net.metrics.sentOf .data + net.metrics.sentOf .control +
      net.metrics.sentOf .recover +
      net.total fun i n =>
        net.topology.degree i * (n.counters.announcesSent + n.counters.beaconsSent) := by
  rw [h.kinds .data, h.kinds .control, h.kinds .recover, ← total_add, ← total_add, ← total_add]
  rfl

/-! ### The conservation of messages -/

/-- **Conservation of messages.**  In every state that a network can get into, each kind of message
    was put on the air as often as all nodes together count, and so were all messages, whatever
    nodes were switched off and on again.  Every delivery has arrived, is lost, or is on its way:
    one for each message to a single peer, and for each broadcast as many as its sender has
    neighbors. -/
theorem messages_conserved {net : Network} (h : Reachable net) :
    (∀ k, net.metrics.sentOf k = net.total fun _ n => n.counters.sentOf k) ∧
      (net.metrics.totalSent = net.total fun _ n => n.counters.messagesSent) ∧
      net.metrics.delivered + net.metrics.lost + net.inFlight =
        net.metrics.sentOf .data + net.metrics.sentOf .control + net.metrics.sentOf .recover +
          net.total fun i n =>
            net.topology.degree i * (n.counters.announcesSent + n.counters.beaconsSent) := by
  have hb := balanced_of_reachable h
  refine ⟨hb.kinds, hb.messages, ?_⟩
  rw [← hb.dues_eq]
  exact hb.deliveries

/-- Just after the first beacon, with a crash and a restart behind, two deliveries are done and one
    is on its way. -/
theorem messages_conserved_crashingPair :
    ∃ net, crashingPair.runUntil (Time.ofMillis 10002) 100 = .ok net ∧ Reachable net ∧
      net.metrics.sentOf .beacon = 1 ∧ net.inFlight = 1 ∧
      (net.metrics.sentOf .beacon = net.total fun _ n => n.counters.sentOf .beacon) ∧
      net.metrics.delivered + net.metrics.lost + net.inFlight =
        net.metrics.sentOf .data + net.metrics.sentOf .control + net.metrics.sentOf .recover +
          net.total fun i n =>
            net.topology.degree i * (n.counters.announcesSent + n.counters.beaconsSent) := by
  obtain ⟨net, hrun, hp⟩ := exists_of_endsWith
    (p := fun net => net.metrics.sentOf .beacon = 1 ∧ net.inFlight = 1)
    (by decide +kernel : crashingPair.endsWith (Time.ofMillis 10002) 100 _ = true)
  have hreach : Reachable net := reachable_crashingPair.runUntil hrun
  obtain ⟨hbeacon, hfly⟩ := of_decide_eq_true hp
  obtain ⟨hkinds, _, hdeliveries⟩ := messages_conserved hreach
  exact ⟨net, hrun, hreach, hbeacon, hfly, hkinds .beacon, hdeliveries⟩

end Network

end TokenMesh
