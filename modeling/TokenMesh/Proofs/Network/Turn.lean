import TokenMesh.Proofs.Network.Frame
import TokenMesh.Proofs.Network.Ledger

namespace TokenMesh

/-!
# Turns

Whatever is done with a network, at most one of its nodes takes a turn: it reacts, its new state is
kept, and its messages are put on the air.  All the rest concerns timers, failures, plans and
reports, which neither nodes nor deliveries notice.  What a network keeps about its nodes and its
deliveries is therefore shown for one turn.

* `Node.Reacts`: what nodes react to, and how;
* `Network.deliveries`: all deliveries on their way;
* `Network.Quiet`: two networks with the same nodes and the same deliveries;
* `Network.Turn`: a node takes its turn, or all is quiet;
* `Network.turn_of_effect`, `Network.turn_of_step`: nothing else happens.
-/

/-- A node in place `i` reacts to an event, and some originations go on record. -/
inductive Node.Reacts (n : Node) (i : Nat) : Occurrence → Reaction → List Origination → Prop
  | heard (sender : Address) (bytes : List UInt8) (now : Nat) :
      Reacts n i (.deliver i sender bytes) (n.handleDatagram sender bytes now) []
  | timer (kind : TimerKind) (generation now : Nat) :
      Reacts n i (.timer i kind generation) (n.handle kind.event now) []
  | originated {value : Option Int32} {now : Nat} {r : Reaction} {t : Token}
      (h : n.originate value now = (r, .ok t)) :
      Reacts n i (.action (.originate i value)) r [⟨i, t, now⟩]
  | notOriginated {value : Option Int32} {now : Nat} {r : Reaction} {e : Refusal}
      (h : n.originate value now = (r, .error e)) :
      Reacts n i (.action (.originate i value)) r []
  /-- Crashes are planned, or come of failure injection. -/
  | crashed {e : Occurrence} {recovery now : Nat} {r : Reaction} (he : e.isDelivery = false)
      (h : n.powerDown recovery now = .ok r) : Reacts n i e r []
  | roleSet (role : Role) : Reacts n i (.action (.setRole i role)) (n.setRole role) []

/-- However a node reacts, it does so lawfully. -/
theorem Node.Reacts.lawful {n : Node} {i : Nat} {e : Occurrence} {r : Reaction}
    {os : List Origination} (h : n.Reacts i e r os) : r.Lawful n := by
  cases h with
  | heard sender bytes now => exact n.lawful_handleDatagram sender bytes now
  | timer kind generation now => exact n.lawful_handle kind.event now
  | originated h => exact lawful_of_originate h
  | notOriginated h => exact lawful_of_originate h
  | crashed he h => exact (powerDown_eq_ok h).2.2.2
  | roleSet role => exact n.lawful_setRole role

namespace Network

/-! ### Deliveries -/

/-- All deliveries on their way, in no particular order. -/
def deliveries (net : Network) : List (Scheduled Occurrence) :=
  net.pending.filter (·.event.isDelivery)

theorem mem_deliveries {net : Network} {x : Scheduled Occurrence} :
    x ∈ net.deliveries ↔ x ∈ net.pending ∧ x.event.isDelivery = true :=
  List.mem_filter

/-- Timers and the like are no deliveries. -/
theorem deliveries_schedule (net : Network) (time : Nat) {e : Occurrence}
    (he : e.isDelivery = false) : (net.schedule time e).deliveries.Perm net.deliveries := by
  have hp := (pending_schedule net time e).filter (·.event.isDelivery)
  rw [List.filter_cons_of_neg (by rw [he]; exact Bool.false_ne_true)] at hp
  exact hp

/-- The messages of a node join the deliveries. -/
theorem deliveries_of_airs {net net' : Network} {as : List (Scheduled Occurrence)} {n i : Nat}
    {sends : List Outbound} (h : Airs net net' as n)
    (ha : ∀ e ∈ as, ∃ out ∈ sends, IsArrival net i out.message.encode e) :
    net'.deliveries.Perm (as ++ net.deliveries) := by
  have has : as.filter (·.event.isDelivery) = as := by
    apply List.filter_eq_self.2
    intro e he
    obtain ⟨out, _, harr⟩ := ha e he
    obtain ⟨j, _, hj⟩ := harr.event
    rw [hj]
    rfl
  have hp := h.pending.filter (·.event.isDelivery)
  rw [List.filter_append, has] at hp
  exact hp

/-- The event at hand has been among the deliveries, if it is one, and so have all those that are
    left. -/
theorem mem_deliveries_of_pop? {net : Network} {x : Scheduled Occurrence}
    {rest : EventQueue Occurrence} (hp : net.queue.pop? = some (x, rest)) :
    (x.event.isDelivery = true → x ∈ net.deliveries) ∧
      ∀ y ∈ (net.turnTo x rest).deliveries, y ∈ net.deliveries := by
  have hmem : ∀ y, y ∈ net.pending ↔ y ∈ x :: (net.turnTo x rest).pending :=
    fun y => (pending_of_pop? hp).mem_iff
  refine ⟨fun hx => mem_deliveries.2 ⟨(hmem x).2 List.mem_cons_self, hx⟩, ?_⟩
  intro y hy
  obtain ⟨hy, hdelivery⟩ := mem_deliveries.1 hy
  exact mem_deliveries.2 ⟨(hmem y).2 (List.mem_cons_of_mem _ hy), hdelivery⟩

/-! ### Quiet -/

/-- Nothing has happened that nodes or deliveries would notice. -/
structure Quiet (net net' : Network) : Prop where
  nodes : net'.nodes = net.nodes
  lost : net'.metrics.lost = net.metrics.lost
  originations : net'.originations = net.originations
  deliveries : net'.deliveries.Perm net.deliveries

namespace Quiet

variable {net net' net'' : Network}

theorem of_same (hn : net'.nodes = net.nodes) (hl : net'.metrics.lost = net.metrics.lost)
    (ho : net'.originations = net.originations) (hp : net'.pending = net.pending) :
    Quiet net net' where
  nodes := hn
  lost := hl
  originations := ho
  deliveries := by
    unfold Network.deliveries
    rw [hp]

theorem refl (net : Network) : Quiet net net := of_same rfl rfl rfl rfl

theorem trans (h : Quiet net net') (h' : Quiet net' net'') : Quiet net net'' where
  nodes := h'.nodes.trans h.nodes
  lost := h'.lost.trans h.lost
  originations := h'.originations.trans h.originations
  deliveries := h'.deliveries.trans h.deliveries

theorem node? (h : Quiet net net') (i : Nat) : net'.node? i = net.node? i := by
  rw [← getElem?_nodes, h.nodes, getElem?_nodes]

theorem schedule (net : Network) (time : Nat) {e : Occurrence} (he : e.isDelivery = false) :
    Quiet net (net.schedule time e) :=
  ⟨rfl, rfl, rfl, deliveries_schedule net time he⟩

theorem setTimer (net : Network) (i : Nat) (kind : TimerKind) (generation after : Nat) :
    Quiet net (net.setTimer i kind generation after) :=
  schedule net _ rfl

theorem setBootTimers (net : Network) (i generation : Nat) :
    Quiet net (net.setBootTimers i generation) :=
  (setTimer net i .announce generation _).trans (setTimer _ i .beacon generation _)

/-- Reports of anything but originations. -/
theorem tell (net : Network) {notices : List Notice}
    (h : ∀ x ∈ notices, x.origination? = none) : Quiet net (net.tell notices) :=
  ⟨rfl, rfl, originations_tell h, .refl _⟩

theorem watch (net : Network) : Quiet net net.watch :=
  of_same (nodes_congr (members_watch net)) (by rw [metrics_watch]) (originations_watch net)
    (pending_watch net)

theorem nextGeneration (net : Network) (i : Nat) : Quiet net (net.nextGeneration i) :=
  of_same (nodes_nextGeneration net i) rfl rfl rfl

theorem withFailures (net : Network) (f : FailureConfig) : Quiet net (net.withFailures f) := by
  unfold Network.withFailures
  split
  · exact tell net (by simp [Notice.origination?])
  · have hf : Quiet net { net with failures := some f } := of_same rfl rfl rfl rfl
    exact hf.trans (schedule _ _ rfl)

theorem ticked (net : Network) (f : FailureConfig) (g : Generator) (vetoes : Nat) :
    Quiet net (net.ticked f g vetoes) := by
  have hs : Quiet net (net.schedule (net.clock + f.tick) .failureTick) := schedule net _ rfl
  exact hs.trans (of_same rfl rfl rfl rfl)

end Quiet

/-! ### Turns -/

/-- The new state of a node is kept, and some originations go on record.  Nothing of what it sends
    is on the air yet. -/
structure Noted (net : Network) (i : Nat) (r : Reaction) (os : List Origination)
    (mid : Network) : Prop where
  nodes : mid.nodes = (net.setNode i r.node).nodes
  topology : mid.topology = net.topology
  lost : mid.metrics.lost = net.metrics.lost
  originations : mid.originations = os ++ net.originations
  deliveries : mid.deliveries.Perm net.deliveries

/-- All is quiet, or one node takes its turn. -/
inductive Turn (net : Network) (e : Occurrence) (net' : Network) : Prop
  | quiet (he : e.isDelivery = false) (h : Quiet net net')
  | react {i : Nat} {n : Node} {r : Reaction} {os : List Origination} {mid : Network}
      (hn : net.node? i = some n) (hr : n.Reacts i e r os) (hm : Noted net i r os mid)
      (h : Quiet (mid.route i r.sends) net')

theorem Noted.node? {net mid : Network} {i : Nat} {r : Reaction} {os : List Origination}
    (h : Noted net i r os mid) (j : Nat) : mid.node? j = (net.setNode i r.node).node? j := by
  rw [← getElem?_nodes, h.nodes, getElem?_nodes]

theorem noted_absorb (net : Network) (i : Nat) {n : Node} {r : Reaction} (hr : r.Lawful n) :
    Noted net i r [] (net.absorb i r) :=
  ⟨rfl, rfl, rfl, originations_absorb net i hr, .refl _⟩

namespace Turn

variable {net net' net'' : Network} {e : Occurrence}

/-- What follows a turn quietly belongs to it. -/
theorem followedBy (h : Turn net e net') (h' : Quiet net' net'') : Turn net e net'' := by
  cases h with
  | quiet he h => exact .quiet he (h.trans h')
  | react hn hr hm h => exact .react hn hr hm (h.trans h')

/-- So does what comes before it quietly, and leaves the links alone. -/
theorem precededBy (h' : Quiet net net') (ht : net'.topology = net.topology)
    (h : Turn net' e net'') : Turn net e net'' := by
  cases h with
  | quiet he h => exact .quiet he (h'.trans h)
  | @react i n r os mid hn hr hm h =>
    refine .react ((h'.node? i).symm.trans hn) hr ?_ h
    refine ⟨?_, hm.topology.trans ht, hm.lost.trans h'.lost, ?_, hm.deliveries.trans h'.deliveries⟩
    · rw [hm.nodes, nodes_setNode, nodes_setNode, h'.nodes]
    · rw [hm.originations, h'.originations]

/-- A node reacts and sends its messages. -/
theorem follow {i : Nat} {n : Node} {r : Reaction} (hn : net.node? i = some n)
    (hr : n.Reacts i e r []) : Turn net e (net.follow i r) :=
  .react hn hr (noted_absorb net i hr.lawful) (.refl _)

/-- A node reacts without a message. -/
theorem absorb {i : Nat} {n : Node} {r : Reaction} (hn : net.node? i = some n)
    (hr : n.Reacts i e r []) (hs : r.sends = []) : Turn net e (net.absorb i r) := by
  have hf := follow hn hr
  unfold Network.follow at hf
  rw [hs] at hf
  exact hf

theorem fireTimer {i : Nat} {m : Member} (hm : net.members[i]? = some m) (kind : TimerKind) :
    Turn net (.timer i kind m.generation) (net.fireTimer i m kind) := by
  have hn : net.node? i = some m.node := node?_eq_some_iff.2 ⟨m, hm, rfl⟩
  have hf := follow hn (.timer kind m.generation net.clock)
  cases kind with
  | announce => exact hf.followedBy (.setTimer ..)
  | beacon => exact hf.followedBy (.setTimer ..)
  | restart =>
    show Turn net _ (net.restart i m)
    rw [restart_eq]
    exact hf.followedBy ((Quiet.nextGeneration ..).trans (.setBootTimers ..))

theorem crashed {i recovery : Nat} {m : Member} {r : Reaction} (hm : net.members[i]? = some m)
    (hp : m.node.powerDown recovery net.clock = .ok r) (he : e.isDelivery = false) :
    Turn net e (net.crashed i m.generation r recovery) := by
  obtain ⟨_, _, hs, _⟩ := Node.powerDown_eq_ok hp
  have hn : net.node? i = some m.node := node?_eq_some_iff.2 ⟨m, hm, rfl⟩
  have hcount : Quiet (net.absorb i r) { net.absorb i r with metrics :=
      { net.metrics with crashes := net.metrics.crashes + 1 } } := .of_same rfl rfl rfl rfl
  exact (absorb hn (.crashed he hp) hs).followedBy (hcount.trans (.setTimer ..))

end Turn

/-- Whatever an event does, at most one node takes its turn. -/
theorem turn_of_effect {net net' : Network} {e : Occurrence} (h : Effect net e net') :
    Turn net e net' := by
  cases h with
  | @arrival _ i n sender bytes hn =>
    have hr : n.Reacts i (.deliver i sender bytes) (n.handleDatagram sender bytes net.clock) [] :=
      .heard sender bytes net.clock
    have hcount : Quiet net net.countDelivery := .of_same rfl rfl rfl rfl
    exact .precededBy hcount rfl (.follow hn hr)
  | stale kind generation hm hg => exact .quiet rfl (.refl net)
  | fired kind hm => exact .fireTimer hm kind
  | ignored hf => exact .quiet rfl (.refl net)
  | considered g vetoes hf => exact .quiet rfl (.ticked ..)
  | @injected _ _ f i g hf hi h =>
    -- the tick is planned and the crash announced before the crash itself
    have htell : Quiet (net.ticked f g 0) ((net.ticked f g 0).tell [.failing i net.clock]) :=
      .tell _ (by simp [Notice.origination?])
    have hpre := (Quiet.ticked net f g 0).trans htell
    cases h with
    | crashed hm hp => exact .precededBy hpre rfl (.crashed hm hp rfl)
    | notCrashed hm hp =>
      exact .quiet rfl (hpre.trans (.tell _ (by simp [Notice.origination?])))
    | noCrash recovery hm => exact .quiet rfl hpre
  | @originated _ i n value r t hn ho =>
    have hr : n.Reacts i (.action (.originate i value)) r [⟨i, t, net.clock⟩] := .originated ho
    have hm : Noted net i r [⟨i, t, net.clock⟩] (net.noted i r t) := by
      refine ⟨rfl, rfl, rfl, ?_, .refl _⟩
      rw [← originations_absorb net i hr.lawful]
      rfl
    exact .react hn hr hm (.refl _)
  | notOriginated hn ho =>
    have ha := Turn.absorb hn (.notOriginated ho) (Node.originate_eq_error ho).2
    exact ha.followedBy (.tell _ (by simp [Notice.origination?]))
  | nowhere value hn => exact .quiet rfl (.tell net (by simp [Notice.origination?]))
  | crashed hm hp => exact .crashed hm hp rfl
  | notCrashed hm hp => exact .quiet rfl (.tell net (by simp [Notice.origination?]))
  | noCrash recovery hm => exact .quiet rfl (.refl net)
  | roleSet role hn => exact .absorb hn (.roleSet role) (Node.sends_setRole ..)
  | noRole role hn => exact .quiet rfl (.refl net)
  | lossRateSet rate => exact .quiet rfl (.of_same rfl rfl rfl rfl)

/-- Whatever is done with a network, at most one node takes its turn: at the event at hand, which
    has left the queue, or at something that is no delivery. -/
theorem turn_of_step {net net' : Network} (hs : Step net net') :
    (∃ x rest, net.queue.pop? = some (x, rest) ∧ Turn (net.turnTo x rest) x.event net') ∨
      ∃ e, e.isDelivery = false ∧ Turn net e net' := by
  cases hs with
  | plan time a => exact .inr ⟨.action a, rfl, .quiet rfl (.schedule net time rfl)⟩
  | setRole i role => exact .inr ⟨_, rfl, turn_of_effect (effect_setRole net i role)⟩
  | withFailures f => exact .inr ⟨.failureTick, rfl, .quiet rfl (.withFailures net f)⟩
  | event limit hn =>
    obtain ⟨x, rest, net₁, hp, _, he, rfl⟩ := exists_effect_of_next hn
    exact .inl ⟨x, rest, hp, (turn_of_effect he).followedBy (.watch net₁)⟩
  | rest limit hn => exact .inr ⟨.failureTick, rfl, .quiet rfl (.of_same rfl rfl rfl rfl)⟩

end Network

end TokenMesh
