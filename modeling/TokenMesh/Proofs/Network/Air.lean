import TokenMesh.Proofs.Network.Change
import TokenMesh.Proofs.Node.Reaction
import TokenMesh.Proofs.Tally

namespace TokenMesh

/-!
# Messages on the air

What becomes of the messages that a node sends.  Each of them is lost for some receivers and on
its way to the others; nothing else about the network changes but its counts and its choices.

* `Network.AirOnly`: two networks that differ in nothing that the radio does not touch;
* `Topology.fanOut`: how many deliveries a message makes;
* `Network.Airs`: some deliveries were put on the air, and as many as were due are on their way or
  lost;
* `Network.airs_route`: all messages of a node are put on the air.
-/

namespace Topology

/-- How many nodes hear a node. -/
def degree (t : Topology) (i : Nat) : Nat := (t.neighbors i).length

/-- How many deliveries a message of a node makes, arrived or lost. -/
def fanOut (t : Topology) (i : Nat) : Outbound → Nat
  | .unicast .. => 1
  | .multicast _ => t.degree i

end Topology

namespace Network

/-- Two networks that differ in nothing that the radio does not touch. -/
def AirOnly (net net' : Network) : Prop :=
  net' = { net with
    queue := net'.queue
    nextSeq := net'.nextSeq
    generator := net'.generator
    metrics := { net.metrics with sent := net'.metrics.sent, lost := net'.metrics.lost } }

namespace AirOnly

variable {net net' net'' : Network}

theorem refl (net : Network) : AirOnly net net := rfl

theorem trans (h : AirOnly net net') (h' : AirOnly net' net'') : AirOnly net net'' := by
  unfold AirOnly at *
  rw [h', h]

theorem clock (h : AirOnly net net') : net'.clock = net.clock := by rw [h]
theorem members (h : AirOnly net net') : net'.members = net.members := by rw [h]
theorem topology (h : AirOnly net net') : net'.topology = net.topology := by rw [h]
theorem settings (h : AirOnly net net') : net'.settings = net.settings := by rw [h]
theorem failures (h : AirOnly net net') : net'.failures = net.failures := by rw [h]
theorem journal (h : AirOnly net net') : net'.journal = net.journal := by rw [h]
theorem lastBegin (h : AirOnly net net') : net'.lastBegin = net.lastBegin := by rw [h]
theorem convergedAt (h : AirOnly net net') : net'.convergedAt = net.convergedAt := by rw [h]
theorem delivered (h : AirOnly net net') : net'.metrics.delivered = net.metrics.delivered := by
  rw [h]
theorem crashes (h : AirOnly net net') : net'.metrics.crashes = net.metrics.crashes := by rw [h]

end AirOnly

/-- Some deliveries have been put on the air: `n` of them were due, the `arrivals` are on their
    way, and the others are lost. -/
structure Airs (net net' : Network) (arrivals : List (Scheduled Occurrence)) (n : Nat) :
    Prop where
  airOnly : AirOnly net net'
  pending : net'.pending.Perm (arrivals ++ net.pending)
  nextSeq : net'.nextSeq = net.nextSeq + arrivals.length
  balance : net'.metrics.lost + arrivals.length = net.metrics.lost + n

/-- The arrival of a message of node `i` over one of its links. -/
structure IsArrival (net : Network) (i : Nat) (bytes : List UInt8) (e : Scheduled Occurrence) :
    Prop where
  time : e.time = net.clock + net.topology.delay
  event : ∃ j, net.topology.isLinked i j = true ∧ e.event = .deliver j (addressOf i) bytes

theorem Airs.refl (net : Network) : Airs net net [] 0 := ⟨.refl net, .refl _, rfl, rfl⟩

theorem Airs.trans {net net' net'' : Network} {as bs : List (Scheduled Occurrence)} {n m : Nat}
    (h : Airs net net' as n) (h' : Airs net' net'' bs m) : Airs net net'' (bs ++ as) (n + m) where
  airOnly := h.airOnly.trans h'.airOnly
  pending := by
    rw [List.append_assoc]
    exact h'.pending.trans (.append_left _ h.pending)
  nextSeq := by
    rw [h'.nextSeq, h.nextSeq, List.length_append, Nat.add_assoc, Nat.add_comm as.length]
  balance := by
    have h₁ := h.balance
    have h₂ := h'.balance
    rw [List.length_append]
    omega

/-- Arrivals from a network that differs only in what the radio touches. -/
theorem IsArrival.of_airOnly {net net' : Network} {i : Nat} {bytes : List UInt8}
    {e : Scheduled Occurrence} (ha : AirOnly net net') (h : IsArrival net' i bytes e) :
    IsArrival net i bytes e := by
  obtain ⟨ht, he⟩ := h
  rw [ha.clock, ha.topology] at ht
  rw [ha.topology] at he
  exact ⟨ht, he⟩

/-- Many things one after the other, each of which puts some deliveries on the air. -/
theorem airs_foldl {α : Type} (f : Network → α → Network) (w : α → Nat)
    (P : α → Scheduled Occurrence → Prop) (net : Network)
    (hf : ∀ net', AirOnly net net' → ∀ a, ∃ as, Airs net' (f net' a) as (w a) ∧ ∀ e ∈ as, P a e)
    (l : List α) :
    ∃ as, Airs net (l.foldl f net) as (l.map w).sum ∧ ∀ e ∈ as, ∃ a ∈ l, P a e := by
  -- all that is known of the network on the way is that it differs from the first one in what
  -- goes on air only
  suffices h : ∀ net', AirOnly net net' →
      ∃ as, Airs net' (l.foldl f net') as (l.map w).sum ∧ ∀ e ∈ as, ∃ a ∈ l, P a e from
    h net (.refl net)
  induction l with
  | nil => exact fun net' _ => ⟨[], .refl net', by simp⟩
  | cons a l ih =>
    intro net' ha
    obtain ⟨as, has, hp⟩ := hf net' ha a
    obtain ⟨bs, hbs, hq⟩ := ih (f net' a) (ha.trans has.airOnly)
    refine ⟨bs ++ as, has.trans hbs, ?_⟩
    intro e he
    rcases List.mem_append.1 he with he | he
    · obtain ⟨b, hb, hpb⟩ := hq e he
      exact ⟨b, List.mem_cons_of_mem _ hb, hpb⟩
    · exact ⟨a, List.mem_cons_self, hp e he⟩

/-! ### One delivery -/

/-- A delivery is lost, or the receiver hears the sender and the arrival waits in the queue. -/
theorem transmit_cases (net : Network) (i j : Nat) (bytes : List UInt8) :
    (∃ g, net.transmit i j bytes = ({ net with generator := g } : Network).lose) ∨
    (net.topology.isLinked i j = true ∧ ∃ g, net.transmit i j bytes =
      ({ net with generator := g } : Network).schedule (net.clock + net.topology.delay)
        (.deliver j (addressOf i) bytes)) := by
  unfold transmit
  cases hr : net.topology.lossRate? i j with
  | none => exact .inl ⟨net.generator, rfl⟩
  | some rate =>
    have hl : net.topology.isLinked i j = true := by rw [Topology.isLinked, hr]; rfl
    simp only
    split
    -- only a rate above zero may lose something
    · split
      · exact .inl ⟨_, rfl⟩
      · exact .inr ⟨hl, _, rfl⟩
    · exact .inr ⟨hl, net.generator, rfl⟩

theorem airs_transmit (net : Network) (i j : Nat) (bytes : List UInt8) :
    ∃ as, Airs net (net.transmit i j bytes) as 1 ∧ ∀ e ∈ as, IsArrival net i bytes e := by
  rcases net.transmit_cases i j bytes with ⟨g, h⟩ | ⟨hl, g, h⟩
  · rw [h]
    exact ⟨[], ⟨rfl, .refl _, rfl, rfl⟩, by simp⟩
  · rw [h]
    refine ⟨[_], ⟨rfl, pending_schedule .., rfl, rfl⟩, ?_⟩
    intro e he
    rw [List.mem_singleton.1 he]
    exact ⟨rfl, j, hl, rfl⟩

/-- A delivery counts no message: that is done once for all receivers. -/
theorem sent_transmit (net : Network) (i j : Nat) (bytes : List UInt8) :
    (net.transmit i j bytes).metrics.sent = net.metrics.sent := by
  rcases net.transmit_cases i j bytes with ⟨g, h⟩ | ⟨_, g, h⟩ <;> rw [h] <;> rfl

/-! ### One message -/

theorem airs_send (net : Network) (i : Nat) (out : Outbound) :
    ∃ as, Airs net (send i net out) as (net.topology.fanOut i out) ∧
      ∀ e ∈ as, IsArrival net i out.message.encode e := by
  -- counting the message puts nothing on the air yet
  have hrec : AirOnly net (net.recordSent out.message) := rfl
  suffices h : ∃ as, Airs (net.recordSent out.message) (send i net out) as
      (net.topology.fanOut i out) ∧
      ∀ e ∈ as, IsArrival (net.recordSent out.message) i out.message.encode e by
    obtain ⟨as, h, hp⟩ := h
    exact ⟨as, ⟨hrec.trans h.airOnly, h.pending, h.nextSeq, h.balance⟩,
      fun e he => (hp e he).of_airOnly hrec⟩
  cases out with
  | unicast peer m =>
    simp only [send, Outbound.message]
    cases (net.recordSent m).indexOf? peer with
    | some j => exact airs_transmit ..
    | none => exact ⟨[], ⟨rfl, .refl _, rfl, rfl⟩, by simp⟩
  | multicast m =>
    obtain ⟨as, h, hp⟩ := airs_foldl
      (fun net j => net.transmit i j m.encode) (fun _ => 1)
      (fun _ => IsArrival (net.recordSent m) i m.encode) (net.recordSent m)
      (fun net' ha j => by
        obtain ⟨as, h, hp⟩ := net'.airs_transmit i j m.encode
        exact ⟨as, h, fun e he => (hp e he).of_airOnly ha⟩)
      (net.topology.neighbors i)
    refine ⟨as, ?_, ?_⟩
    · rw [List.map_const', List.sum_replicate_nat, Nat.mul_one] at h
      exact h
    · intro e he
      obtain ⟨_, _, h⟩ := hp e he
      exact h

theorem sent_send (net : Network) (i : Nat) (out : Outbound) :
    (send i net out).metrics.sent = net.metrics.sent.add out.message.kind.name := by
  cases out with
  | unicast peer m =>
    simp only [send, Outbound.message]
    cases (net.recordSent m).indexOf? peer with
    | some j => exact sent_transmit ..
    | none => rfl
  | multicast m =>
    -- the message is counted before the first of its receivers has its turn
    have h : ∀ (l : List Nat) (net : Network),
        (l.foldl (fun net j => net.transmit i j m.encode) net).metrics.sent =
          net.metrics.sent := by
      intro l
      induction l with
      | nil => exact fun _ => rfl
      | cons j l ih => exact fun net => (ih _).trans (sent_transmit ..)
    exact h ..

/-! ### All messages of a node -/

/-- Every message of a node is lost or on its way, once for every receiver. -/
theorem airs_route (net : Network) (i : Nat) (sends : List Outbound) :
    ∃ as, Airs net (net.route i sends) as (sends.map (net.topology.fanOut i)).sum ∧
      ∀ e ∈ as, ∃ out ∈ sends, IsArrival net i out.message.encode e := by
  refine airs_foldl (send i) _ (fun out => IsArrival net i out.message.encode) net ?_
    sends
  intro net' ha out
  obtain ⟨as, h, hp⟩ := net'.airs_send i out
  rw [ha.topology] at h
  exact ⟨as, h, fun e he => (hp e he).of_airOnly ha⟩

/-- Nothing that is lost is found again, so that no more arrives than is due. -/
theorem lost_le_transmit (net : Network) (i j : Nat) (bytes : List UInt8) :
    net.metrics.lost ≤ (net.transmit i j bytes).metrics.lost := by
  rcases net.transmit_cases i j bytes with ⟨g, h⟩ | ⟨_, g, h⟩
  · rw [h]
    exact Nat.le_succ _
  · rw [h]
    exact Nat.le_refl _

theorem lost_le_send (net : Network) (i : Nat) (out : Outbound) :
    net.metrics.lost ≤ (send i net out).metrics.lost := by
  cases out with
  | unicast peer m =>
    simp only [send, Outbound.message]
    cases (net.recordSent m).indexOf? peer with
    | some j => exact lost_le_transmit (net.recordSent m) ..
    | none => exact Nat.le_succ _
  | multicast m =>
    have h : ∀ (l : List Nat) (net : Network), net.metrics.lost ≤
        (l.foldl (fun net j => net.transmit i j m.encode) net).metrics.lost := by
      intro l
      induction l with
      | nil => exact fun _ => Nat.le_refl _
      | cons j l ih => exact fun net => Nat.le_trans (lost_le_transmit ..) (ih _)
    exact h (net.topology.neighbors i) (net.recordSent m)

theorem airOnly_route (net : Network) (i : Nat) (sends : List Outbound) :
    AirOnly net (net.route i sends) := by
  obtain ⟨_, h, _⟩ := net.airs_route i sends
  exact h.airOnly

section route

variable (net : Network) (i : Nat) (sends : List Outbound)

@[simp] theorem clock_route : (net.route i sends).clock = net.clock :=
  (airOnly_route ..).clock
@[simp] theorem members_route : (net.route i sends).members = net.members :=
  (airOnly_route ..).members
@[simp] theorem topology_route : (net.route i sends).topology = net.topology :=
  (airOnly_route ..).topology
@[simp] theorem settings_route : (net.route i sends).settings = net.settings :=
  (airOnly_route ..).settings
@[simp] theorem failures_route : (net.route i sends).failures = net.failures :=
  (airOnly_route ..).failures
@[simp] theorem journal_route : (net.route i sends).journal = net.journal :=
  (airOnly_route ..).journal
@[simp] theorem lastBegin_route : (net.route i sends).lastBegin = net.lastBegin :=
  (airOnly_route ..).lastBegin
@[simp] theorem convergedAt_route : (net.route i sends).convergedAt = net.convergedAt :=
  (airOnly_route ..).convergedAt

end route

/-- A reaction touches neither the links nor how long a delivery takes. -/
@[simp] theorem topology_follow (net : Network) (i : Nat) (r : Reaction) :
    (net.follow i r).topology = net.topology :=
  topology_route ..

/-- A node that reacts is in its new state from then on. -/
theorem node?_follow (net : Network) (i : Nat) (r : Reaction) (j : Nat) :
    (net.follow i r).node? j = (net.setNode i r.node).node? j :=
  node?_congr (members_route ..) j

theorem name_injective {a b : Message.Kind} (h : a.name = b.name) : a = b := by
  cases a <;> cases b <;> first | rfl | exact absurd h (by decide)

/-- Every message of a node is counted under its kind. -/
theorem sentOf_route (net : Network) (i : Nat) (sends : List Outbound) (k : Message.Kind) :
    (net.route i sends).metrics.sentOf k =
      net.metrics.sentOf k + sends.countP (·.message.kind = k) := by
  unfold route
  induction sends generalizing net with
  | nil => rfl
  | cons out sends ih =>
    rw [List.foldl_cons, ih, List.countP_cons, Metrics.sentOf, sent_send, Tally.count_add]
    have hk : (out.message.kind.name = k.name) ↔ out.message.kind = k :=
      ⟨name_injective, congrArg _⟩
    simp only [hk, decide_eq_true_eq, Metrics.sentOf]
    omega

/-- Every message of a node is counted in the total. -/
theorem totalSent_route (net : Network) (i : Nat) (sends : List Outbound) :
    (net.route i sends).metrics.totalSent = net.metrics.totalSent + sends.length := by
  unfold route
  induction sends generalizing net with
  | nil => rfl
  | cons out sends ih =>
    rw [List.foldl_cons, ih, Metrics.totalSent, sent_send, Tally.total_add, List.length_cons,
      Metrics.totalSent]
    omega

end Network

end TokenMesh
