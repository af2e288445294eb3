import TokenMesh.Proofs.Network.Delivery
import TokenMesh.Proofs.Network.Ending
import TokenMesh.Proofs.Random

namespace TokenMesh

/-!
# A walk without an end

Two nodes that hear each other without a delay, and a walk whose hops are not limited: each hands
the data back to the other at the instant at which it arrives, so that the clock stands still and
the run never ends.  A limit of hops that the count of hops never exceeds does not help.

* `Node.Shuttles`: a node hands on whatever its only peer hands to it;
* `Network.Shuttling`: all that is due is data between two such nodes;
* `Network.moved_of_shuttling`: then the next event is such a delivery, and leads to another one;
* `Network.shuttle`, `Network.endless_shuttle`: an experiment that gets there.
-/

/-- A choice of one is no choice. -/
theorem Generator.below?_one (g : Generator) : ∃ g', g.below? 1 = some (0, g') := by
  obtain ⟨k, g', h, hlt⟩ := exists_below? Nat.one_pos g
  obtain rfl : k = 0 := Nat.lt_one_iff.1 hlt
  exact ⟨g', h⟩

theorem NeighborTable.pick_of_single {t : NeighborTable} {e : Neighbor} (h : t.entries = [e])
    (g : Generator) : ∃ g', t.pick g = (some e, g') := by
  obtain ⟨g', hg⟩ := g.below?_one
  refine ⟨g', ?_⟩
  unfold pick size
  rw [h, List.length_singleton, hg]
  rfl

namespace Node

/-- A node with power that has one peer to hand data to, and no limit of hops that keeps it from
    doing so. -/
structure Shuttles (n : Node) (peer : Address) (now : Nat) : Prop where
  up : n.isDown = false
  forwards : n.role.forwards = true
  other : peer ≠ n.address
  unlimited : n.settings.maxHops = none ∨ n.settings.maxHops = some Int32.maxValue
  peers : n.neighbors.addresses = [peer]
  known : n.neighbors.due now = []

instance (n : Node) (peer : Address) (now : Nat) : Decidable (n.Shuttles peer now) :=
  decidable_of_iff (n.isDown = false ∧ n.role.forwards = true ∧ peer ≠ n.address ∧
      (n.settings.maxHops = none ∨ n.settings.maxHops = some Int32.maxValue) ∧
      n.neighbors.addresses = [peer] ∧ n.neighbors.due now = [])
    ⟨fun ⟨h₁, h₂, h₃, h₄, h₅, h₆⟩ => ⟨h₁, h₂, h₃, h₄, h₅, h₆⟩,
      fun ⟨h₁, h₂, h₃, h₄, h₅, h₆⟩ => ⟨h₁, h₂, h₃, h₄, h₅, h₆⟩⟩

namespace Shuttles

variable {n : Node} {peer : Address} {now : Nat}

/-- No number of hops is too high. -/
theorem not_overLimit (h : n.Shuttles peer now) (hops : Int32) : n.overLimit hops = false := by
  unfold overLimit
  rcases h.unlimited with hmax | hmax
  · rw [hmax]
  · rw [hmax]
    exact decide_eq_false (Int32.not_lt.2 (Int32.le_iff_toInt_le.2 (Int32.toInt_le hops)))

theorem choosePeer (h : n.Shuttles peer now) :
    ∃ g, n.choosePeer = (some peer, { n with generator := g }) := by
  obtain ⟨e, he, rfl⟩ := List.map_eq_singleton_iff.1 h.peers
  obtain ⟨g, hg⟩ := NeighborTable.pick_of_single he n.generator
  refine ⟨g, ?_⟩
  unfold Node.choosePeer
  rw [hg]
  rfl

/-- A sweep at that instant forgets nobody. -/
theorem sweep (h : n.Shuttles peer now) : (n.sweep now).Shuttles peer now := by
  have hkeep : n.neighbors.expire now = n.neighbors := by
    have hlater : n.neighbors.entries.filter (fun e => now < e.expiry) = n.neighbors.entries :=
      List.filter_eq_self.2 fun e he => by
        have hdue := List.filter_eq_nil_iff.1 h.known e he
        simpa using hdue
    unfold NeighborTable.expire
    rw [hlater]
  have hpeers : (n.sweep now).neighbors = n.neighbors := hkeep
  exact ⟨h.up, h.forwards, h.other, h.unlimited, hpeers ▸ h.peers, hpeers ▸ h.known⟩

/-- Data that arrives is handed back at once. -/
theorem handleDatagram (h : n.Shuttles peer now) {bytes : List UInt8} {value : Int32}
    {version : Int16} {hops : Int32}
    (hd : Message.decode bytes = .ok (.data value version hops)) :
    (n.handleDatagram peer bytes now).node.Shuttles peer now ∧
      ∃ t hops', (n.handleDatagram peer bytes now).sends = [.unicast peer (.carry t hops')] := by
  let taken := n.takeData ⟨value, version⟩
  have htaken : taken.Shuttles peer now :=
    ⟨h.up, h.forwards, h.other, h.unlimited, h.peers, h.known⟩
  obtain ⟨g, hg⟩ := htaken.choosePeer
  have hreact : n.handleDatagram peer bytes now =
      (taken.forward (nextHops hops) (n.dataNotices peer ⟨value, version⟩ hops)).swept now := by
    have hon : n.onInbound peer (.data value version hops) now =
        n.onData peer ⟨value, version⟩ hops := onInbound_of_up h.up h.other _ now
    have hdata : n.onData peer ⟨value, version⟩ hops =
        taken.forward (nextHops hops) (n.dataNotices peer ⟨value, version⟩ hops) := by
      unfold onData
      simp only
      rw [if_neg (by rw [htaken.forwards]; decide),
        if_neg (by rw [htaken.not_overLimit]; exact Bool.false_ne_true)]
    unfold Node.handleDatagram
    rw [hd]
    show (n.onInbound peer (.data value version hops) now).swept now = _
    rw [hon, hdata]
  rw [hreact]
  unfold forward
  simp only [hg]
  refine ⟨?_, taken.token, nextHops hops, rfl⟩
  exact sweep ⟨htaken.up, htaken.forwards, htaken.other, htaken.unlimited, htaken.peers,
    htaken.known⟩

end Shuttles

end Node

namespace Occurrence

/-- The arrival of data at one of two nodes from the other one. -/
def Crosses (e : Occurrence) : Prop :=
  e.carriesData = true ∧
    match e with
    | deliver i sender _ => i < 2 ∧ sender = Network.addressOf (1 - i)
    | _ => False

instance (e : Occurrence) : Decidable e.Crosses := by
  unfold Crosses
  cases e <;> infer_instance

theorem Crosses.exists_data {e : Occurrence} (h : e.Crosses) : ∃ i bytes value version hops,
    i < 2 ∧ e = deliver i (Network.addressOf (1 - i)) bytes ∧
      Message.decode bytes = .ok (.data value version hops) := by
  obtain ⟨hdata, hends⟩ := h
  cases e with
  | deliver i sender bytes =>
    obtain ⟨hi, rfl⟩ := hends
    unfold carriesData at hdata
    simp only at hdata
    split at hdata
    · next value version hops hdec => exact ⟨i, bytes, value, version, hops, hi, rfl, hdec⟩
    · cases hdata
  | timer i kind generation => exact absurd hends id
  | failureTick => exact absurd hends id
  | action a => exact absurd hends id

/-- What one of the two nodes hands to the other one. -/
theorem crosses_carry {i : Nat} (hi : i < 2) (t : Token) (hops : Int32) :
    (deliver (1 - i) (Network.addressOf i) (Message.carry t hops).encode).Crosses := by
  have hback : 1 - (1 - i) = i := by omega
  refine ⟨?_, by omega, by rw [hback]⟩
  simp only [carriesData, Message.decode_encode]
  rfl

end Occurrence

namespace Network

/-- Two nodes hear each other without a delay, and whatever is due by now is data that they hand to
    each other. -/
structure Shuttling (net : Network) (now : Nat) : Prop where
  clock : net.clock = now
  delay : net.topology.delay = 0
  links : net.topology.links = (Topology.build .line 2).links
  size : net.size = 2
  nodes : ∀ i < 2, ∃ n ∈ net.node? i, n.Shuttles (addressOf (1 - i)) now
  crosses : ∀ x ∈ net.pending, x.time ≤ now → x.event.Crosses

instance (net : Network) (now : Nat) : Decidable (net.Shuttling now) :=
  decidable_of_iff (net.clock = now ∧ net.topology.delay = 0 ∧
      net.topology.links = (Topology.build .line 2).links ∧ net.size = 2 ∧
      (∀ i < 2, ∃ n ∈ net.node? i, n.Shuttles (addressOf (1 - i)) now) ∧
      ∀ x ∈ net.pending, x.time ≤ now → x.event.Crosses)
    ⟨fun ⟨h₁, h₂, h₃, h₄, h₅, h₆⟩ => ⟨h₁, h₂, h₃, h₄, h₅, h₆⟩,
      fun ⟨h₁, h₂, h₃, h₄, h₅, h₆⟩ => ⟨h₁, h₂, h₃, h₄, h₅, h₆⟩⟩

namespace Shuttling

variable {net net' : Network} {now : Nat}

theorem lossless (h : net.Shuttling now) : Lossless net := by
  unfold Lossless
  rw [h.links]
  decide

/-- The two nodes hear each other. -/
theorem isLinked_iff (h : net.Shuttling now) {i j : Nat} :
    net.topology.isLinked i j = true ↔ i < 2 ∧ j = 1 - i := by
  have hline : (Topology.build .line 2).links = [Link.perfect 0 1 (by decide)] := by decide
  rw [Topology.isLinked_iff, h.links, hline]
  simp only [List.mem_singleton, exists_eq_left, Link.joins, Link.perfect, Bool.or_eq_true,
    Bool.and_eq_true, beq_iff_eq]
  omega

/-- A change that touches nothing but what is counted, and takes events from the queue. -/
theorem of_same (h : net.Shuttling now) (hc : net'.clock = net.clock)
    (ht : net'.topology = net.topology) (hm : net'.members = net.members)
    (hp : ∀ x ∈ net'.pending, x ∈ net.pending) : net'.Shuttling now where
  clock := hc.trans h.clock
  delay := by rw [ht]; exact h.delay
  links := by rw [ht]; exact h.links
  size := by unfold Network.size; rw [hm]; exact h.size
  nodes i hi := by rw [node?_congr hm]; exact h.nodes i hi
  crosses x hx := h.crosses x (hp x hx)

section follow

variable {i : Nat} {n : Node} {r : Reaction} {t : Token} {hops : Int32}

/-- A node that gets data hands it back. -/
theorem follow (h : net.Shuttling now) (hi : i < 2) (hn : net.node? i = some n)
    (hr : r.node.Shuttles (addressOf (1 - i)) now)
    (hsends : r.sends = [.unicast (addressOf (1 - i)) (.carry t hops)]) :
    (net.follow i r).Shuttling now where
  clock := (clock_route ..).trans h.clock
  delay := by rw [topology_follow]; exact h.delay
  links := by rw [topology_follow]; exact h.links
  size := by
    show (net.follow i r).members.size = 2
    unfold Network.follow
    rw [members_route]
    exact (size_setNode net i r.node).trans h.size
  nodes j hj := by
    rw [node?_follow, node?_setNode]
    split
    · next hij =>
      subst hij
      rw [hn]
      exact ⟨r.node, rfl, hr⟩
    · exact h.nodes j hj
  crosses x hx hdue := by
    obtain ⟨as, has, harrive⟩ := (net.absorb i r).airs_route i r.sends
    rcases List.mem_append.1 (has.pending.mem_iff.1 hx) with hx | hx
    · -- what has just been sent
      obtain ⟨out, hout, hx⟩ := harrive x hx
      rw [hsends] at hout
      obtain rfl := List.mem_singleton.1 hout
      obtain ⟨j, hlink, hevent⟩ := hx.event
      have hlink : net.topology.isLinked i j = true := hlink
      obtain ⟨_, rfl⟩ := h.isLinked_iff.1 hlink
      rw [hevent]
      exact Occurrence.crosses_carry hi t hops
    · exact h.crosses x hx hdue

/-- What it hands back is due at once. -/
theorem due_follow (h : net.Shuttling now) (hi : i < 2)
    (hsends : r.sends = [.unicast (addressOf (1 - i)) (.carry t hops)]) :
    ∃ x ∈ (net.follow i r).pending, x.time ≤ now := by
  have hlink : net.topology.isLinked i (1 - i) = true := h.isLinked_iff.2 ⟨hi, rfl⟩
  have hsize : net.members.size = 2 := h.size
  obtain ⟨x, hx, ht, _⟩ := arrives_follow h.lossless hlink hsends (by
    rintro peer m hout
    obtain ⟨rfl, rfl⟩ := Outbound.unicast.inj hout
    exact indexAt?_addressOf (by omega) (by omega))
  refine ⟨x, hx, ?_⟩
  rw [ht, h.clock, h.delay]
  exact Nat.le_refl _

end follow

end Shuttling

/-- A datagram arrives unless the clock has run out or an expiry would lie too late. -/
theorem process_deliver {net : Network} {i : Nat} {n : Node} {sender : Address}
    {bytes : List UInt8} (hclock : net.clock < Time.horizon) (hdelay : net.topology.delay = 0)
    (hn : net.node? i = some n) (htime : n.inTime (.datagram sender bytes net.clock) = true) :
    net.process (.deliver i sender bytes) =
      .ok (net.countDelivery.follow i (n.handleDatagram sender bytes net.clock)) := by
  have hpresent : net.present = .ok net.clock := if_pos hclock
  show net.deliver i sender bytes = _
  unfold deliver ensure
  rw [hpresent]
  simp only [bind, Except.bind, hn, htime, ↓reduceIte]
  refine commit_eq_ok (by simp) fun _ => ?_
  rw [hdelay]
  exact Nat.lt_trans hclock Time.horizon_lt_spanLimit

/-- Data that is due is handed back, and is due again. -/
theorem moved_of_shuttling {net : Network} {now limit : Nat} (h : net.Shuttling now)
    (hdue : ∃ x ∈ net.pending, x.time ≤ now) (hnow : now < Time.horizon) (hl : now ≤ limit) :
    ∃ net', net.next limit = .moved net' ∧ net'.Shuttling now ∧
      ∃ x ∈ net'.pending, x.time ≤ now := by
  obtain ⟨x, hx, hxt⟩ := hdue
  cases hp : net.queue.pop? with
  | none =>
    have hempty : net.pending = [] := EventQueue.pop?_eq_none_iff.1 hp
    rw [hempty] at hx
    cases hx
  | some p =>
    obtain ⟨e, rest⟩ := p
    have htime : e.time ≤ now := Nat.le_trans (time_le_of_pop? hp hx) hxt
    have hperm := pending_of_pop? hp
    have hcross := h.crosses e (hperm.mem_iff.2 List.mem_cons_self) htime
    obtain ⟨i, bytes, value, version, hops, hi, hevent, hdec⟩ := hcross.exists_data
    have hclock : (net.turnTo e rest).clock = net.clock := by
      rw [clock_turnTo, h.clock]
      exact Nat.max_eq_left htime
    have hturn : (net.turnTo e rest).Shuttling now :=
      h.of_same hclock rfl rfl fun y hy => hperm.mem_iff.2 (List.mem_cons_of_mem _ hy)
    obtain ⟨n, hn, hshuttles⟩ := hturn.nodes i hi
    have hquiet : n.inTime (.datagram (addressOf (1 - i)) bytes (net.turnTo e rest).clock) := by
      simp only [Node.inTime, Node.sets?, hdec]
      rfl
    have hproc := process_deliver (by rw [hturn.clock]; exact hnow) hturn.delay hn hquiet
    rw [hturn.clock, ← hevent] at hproc
    obtain ⟨hnode, t, hops', hsends⟩ := hshuttles.handleDatagram hdec
    have hcount : (net.turnTo e rest).countDelivery.Shuttling now :=
      hturn.of_same rfl rfl rfl fun _ hy => hy
    have hfollow := hcount.follow hi hn hnode hsends
    refine ⟨_, next_of_process hp (Nat.le_trans htime hl) hproc,
      hfollow.of_same (clock_watch _) (topology_watch _) (members_watch _) ?_, ?_⟩
    · rw [pending_watch]
      exact fun _ hy => hy
    · rw [pending_watch]
      exact hcount.due_follow hi hsends

/-- So it goes on without an end. -/
theorem endless_of_shuttling {net : Network} {now limit : Nat} (h : net.Shuttling now)
    (hdue : ∃ x ∈ net.pending, x.time ≤ now) (hnow : now < Time.horizon) (hl : now ≤ limit)
    (k : Nat) : net.after limit k ≠ none := by
  induction k generalizing net with
  | zero => exact Option.some_ne_none net
  | succ k ih =>
    obtain ⟨mid, hn, hmid, hagain⟩ := moved_of_shuttling h hdue hnow hl
    simp only [after, hn]
    exact ih hmid hagain

/-- A run that gets to a state from which it does not end does not end. -/
theorem endless_of_after {net net' : Network} {limit j : Nat} (h : net.after limit j = some net')
    (hend : ∀ k, net'.after limit k ≠ none) (k : Nat) : net.after limit k ≠ none := by
  intro hk
  have hjk : net.after limit (j + k) = net'.after limit k := by rw [after_add, h]; rfl
  have hkj : net.after limit (j + k) = none := by rw [Nat.add_comm, after_add, hk]; rfl
  exact hend k (hjk.symm.trans hkj)

/-! ### An experiment -/

/-- Two nodes that hear each other without a delay. -/
def adjacent : Topology := (Topology.build .line 2).withDelay 0

/-- Two such nodes with a given limit of hops.  The first one originates a token when they have got
    to know each other. -/
def shuttle (most : Option Int32) : Network :=
  ((build adjacent { maxHops := most } 7).setRole 0 .source).plan (Time.ofSecs 2)
    (.originate 0 (some 5))

theorem run_shuttle (most : Option Int32) :
    Run (fun _ => True) (build adjacent { maxHops := most } 7) (shuttle most) :=
  .step (.step (.start trivial) (.setRole ..) trivial) (.plan ..) trivial

/-- Two announcements and the origination bring the walk under way. -/
theorem shuttling_shuttle {most : Option Int32} (h : most = none ∨ most = some Int32.maxValue) :
    ∃ net ∈ (shuttle most).after (Time.ofSecs 2) 5, net.Shuttling (Time.ofSecs 2) ∧
      ∃ x ∈ net.pending, x.time ≤ Time.ofSecs 2 := by
  rcases h with rfl | rfl
  · decide +kernel
  · decide +kernel

theorem after_shuttle_ne_none {most : Option Int32}
    (h : most = none ∨ most = some Int32.maxValue) (k : Nat) :
    (shuttle most).after (Time.ofSecs 2) k ≠ none := by
  obtain ⟨net, hnet, hshuttling, hdue⟩ := shuttling_shuttle h
  have hclock : Time.ofSecs 2 < Time.horizon := by decide
  exact endless_of_after hnet (endless_of_shuttling hshuttling hdue hclock (Nat.le_refl _)) k

/-- The walk keeps the two nodes busy for ever where hops are not limited, and where they are
    limited to a number that the count of hops does not exceed. -/
theorem endless_shuttle :
    adjacent.Closed ∧
      (({} : ProtocolSettings).Valid ∧ Run (fun _ => True) (build adjacent {} 7) (shuttle none) ∧
        ∀ k, (shuttle none).after (Time.ofSecs 2) k ≠ none) ∧
      ({ maxHops := some Int32.maxValue } : ProtocolSettings).Valid ∧
        Run (fun _ => True) (build adjacent { maxHops := some Int32.maxValue } 7)
          (shuttle (some Int32.maxValue)) ∧
        ∀ k, (shuttle (some Int32.maxValue)).after (Time.ofSecs 2) k ≠ none :=
  ⟨by decide, ⟨by decide, run_shuttle none, after_shuttle_ne_none (.inl rfl)⟩, by decide,
    run_shuttle _, after_shuttle_ne_none (.inr rfl)⟩

end Network

end TokenMesh
