import TokenMesh.Proofs.Network.Plans
import TokenMesh.Proofs.Topology.Graph

namespace TokenMesh

/-!
# What every event keeps

An event never takes anything out of the queue but itself, and never plans anything for the past.
It changes one node at most, and that by one of the operations on nodes.

* `Network.Extends`: the clock stands still, and what is new in the queue is not due before;
* `Network.setup_effect`, `Network.NoNewActions`: what is set up stays, and events plan no actions;
* `Network.members_effect`: what can become of the nodes;
* `Network.Placed`: every node has its address, and everybody hears whom they heard at the start;
* `Network.OnTime`: nothing but actions can be overdue, and a beacon is due within one period.
-/

namespace Network

/-! ### The setup -/

theorem setup_follow (net : Network) (i : Nat) (r : Reaction) :
    (net.follow i r).failures = net.failures ∧ (net.follow i r).topology = net.topology :=
  ⟨failures_route .., topology_follow ..⟩

/-- No event touches the failures, and only a change of loss rates touches the topology. -/
theorem setup_effect {net net' : Network} {e : Occurrence} (he : Effect net e net') :
    net'.failures = net.failures ∧ (net'.topology = net.topology ∨
      ∃ rate, e = .action (.setLossRate rate) ∧
        net'.topology = net.topology.setLossRate rate) := by
  induction he with
  | arrival sender bytes hn => exact (setup_follow ..).imp_right .inl
  | stale kind generation hm hg => exact ⟨rfl, .inl rfl⟩
  | @fired net i m kind hm =>
    have hf := setup_follow net i (m.node.handle kind.event net.clock)
    cases kind <;> exact hf.imp_right .inl
  | ignored hf => exact ⟨rfl, .inl rfl⟩
  | considered g vetoes hf => exact ⟨rfl, .inl rfl⟩
  | injected g hf hi he ih =>
    obtain ⟨hfail, ht | ⟨rate, hact, _⟩⟩ := ih
    · exact ⟨hfail, .inl ht⟩
    · cases hact
  | originated hn ho => exact ⟨failures_route .., .inl (topology_route ..)⟩
  | notOriginated hn ho => exact ⟨rfl, .inl rfl⟩
  | nowhere value hn => exact ⟨rfl, .inl rfl⟩
  | crashed hm hp => exact ⟨rfl, .inl rfl⟩
  | notCrashed hm hp => exact ⟨rfl, .inl rfl⟩
  | noCrash recovery hm => exact ⟨rfl, .inl rfl⟩
  | roleSet role hn => exact ⟨rfl, .inl rfl⟩
  | noRole role hn => exact ⟨rfl, .inl rfl⟩
  | lossRateSet rate => exact ⟨rfl, .inr ⟨rate, rfl, rfl⟩⟩

/-! ### The queue -/

/-- Everything that waits goes on to wait, and nothing that is new is due before the present or is
    a beacon that is due later than one period from it. -/
structure Extends (net net' : Network) : Prop where
  clock : net'.clock = net.clock
  settings : net'.settings = net.settings
  delay : net'.topology.delay = net.topology.delay
  linked : ∀ i j, net'.topology.isLinked i j = net.topology.isLinked i j
  kept : ∀ x ∈ net.pending, x ∈ net'.pending
  added : ∀ x ∈ net'.pending, x ∈ net.pending ∨ (net.clock ≤ x.time ∧
    ∀ i g, x.event = .timer i .beacon g → x.time ≤ net.clock + net.settings.beaconPeriod)

namespace Extends

variable {net net' net'' : Network}

theorem of_same (hc : net'.clock = net.clock) (hs : net'.settings = net.settings)
    (ht : net'.topology = net.topology) (hp : net'.pending = net.pending) :
    Extends net net' where
  clock := hc
  settings := hs
  delay := by rw [ht]
  linked i j := by rw [ht]
  kept x hx := by rw [hp]; exact hx
  added x hx := by rw [hp] at hx; exact .inl hx

theorem trans (h : Extends net net') (h' : Extends net' net'') : Extends net net'' where
  clock := h'.clock.trans h.clock
  settings := h'.settings.trans h.settings
  delay := h'.delay.trans h.delay
  linked i j := (h'.linked i j).trans (h.linked i j)
  kept x hx := h'.kept x (h.kept x hx)
  added x hx := by
    obtain hx | hx := h'.added x hx
    · exact h.added x hx
    · rw [h.clock, h.settings] at hx
      exact .inr hx

/-- Something is planned for the present or later. -/
theorem schedule (net : Network) {time : Nat} {e : Occurrence} (ht : net.clock ≤ time)
    (hb : ∀ i g, e = .timer i .beacon g → time ≤ net.clock + net.settings.beaconPeriod) :
    Extends net (net.schedule time e) where
  clock := rfl
  settings := rfl
  delay := rfl
  linked _ _ := rfl
  kept x hx := (mem_pending_schedule net time e).2 (.inr hx)
  added x hx := by
    obtain rfl | hx := (mem_pending_schedule net time e).1 hx
    · exact .inr ⟨ht, hb⟩
    · exact .inl hx

theorem setBootTimers (net : Network) (i generation : Nat) :
    Extends net (net.setBootTimers i generation) := by
  have ha : Extends net
      (net.setTimer i .announce generation net.settings.initialAnnounceDelay) :=
    schedule net (Nat.le_add_right ..) (by simp)
  exact ha.trans (schedule _ (Nat.le_add_right ..) fun _ _ _ => Nat.le_refl _)

end Extends

/-- No event takes anything else out of the queue or plans anything for the past. -/
theorem extends_effect {net net' : Network} {e : Occurrence} (he : Effect net e net') :
    Extends net net' := by
  have hplans := plans_effect he
  have hadded : ∀ x ∈ net'.pending, x ∈ net.pending ∨ (net.clock ≤ x.time ∧
      ∀ i g, x.event = .timer i .beacon g → x.time ≤ net.clock + net.settings.beaconPeriod) :=
    fun x hx => (hplans.mem_pending hx).imp_right fun h => ⟨h.ahead, h.soon⟩
  obtain ⟨_, ht | ⟨rate, _, ht⟩⟩ := setup_effect he
  · exact ⟨hplans.clock, hplans.settings, by rw [ht], fun _ _ => by rw [ht],
      fun _ => hplans.kept, hadded⟩
  · exact ⟨hplans.clock, hplans.settings, by rw [ht]; rfl,
      fun i j => by rw [ht, Topology.isLinked_setLossRate], fun _ => hplans.kept, hadded⟩

/-! ### What is planned -/

/-- Every action that waits has been planned before. -/
structure NoNewActions (net net' : Network) : Prop where
  planned : ∀ x ∈ net'.pending, ∀ a, x.event = .action a → x ∈ net.pending

namespace NoNewActions

variable {net net' net'' : Network}

theorem of_same (h : net'.pending = net.pending) : NoNewActions net net' :=
  ⟨fun _ hx _ _ => h ▸ hx⟩

theorem trans (h : NoNewActions net net') (h' : NoNewActions net' net'') :
    NoNewActions net net'' :=
  ⟨fun x hx a ha => h.planned x (h'.planned x hx a ha) a ha⟩

theorem turnTo {e : Scheduled Occurrence} {rest : EventQueue Occurrence}
    (hp : net.queue.pop? = some (e, rest)) : NoNewActions net (net.turnTo e rest) :=
  ⟨fun _ hx _ _ => (pending_of_pop? hp).mem_iff.2 (List.mem_cons_of_mem _ hx)⟩

theorem schedule (net : Network) (time : Nat) {e : Occurrence} (he : ∀ a, e ≠ .action a) :
    NoNewActions net (net.schedule time e) := by
  refine ⟨fun x hx a ha => ?_⟩
  rcases (mem_pending_schedule net time e).1 hx with rfl | hx
  · exact absurd ha (he a)
  · exact hx

end NoNewActions

/-- No event plans an action. -/
theorem noNewActions_effect {net net' : Network} {e : Occurrence} (he : Effect net e net') :
    NoNewActions net net' :=
  ⟨fun _ hx a ha => ((plans_effect he).mem_pending hx).resolve_right fun h => h.noAction a ha⟩

/-! ### The nodes -/

/-- No node changes, or one does by an operation at the present, or one is switched on again. -/
theorem members_effect {net net' : Network} {e : Occurrence} (he : Effect net e net') :
    net'.members = net.members ∨
      (∃ i n op, net.node? i = some n ∧
        net'.members = (net.setNode i (n.perform op).1.node).members) ∨
      ∃ i m, e = .timer i .restart m.generation ∧ net.members[i]? = some m ∧
        net' = net.restart i m := by
  induction he with
  | @arrival net i n sender bytes hn =>
    exact .inr (.inl ⟨i, n, .datagram sender bytes net.clock, hn, members_route ..⟩)
  | stale kind generation hm hg => exact .inl rfl
  | @fired net i m kind hm =>
    have hn : net.node? i = some m.node := node?_eq_some_iff.2 ⟨m, hm, rfl⟩
    cases kind with
    | announce =>
      exact .inr (.inl ⟨i, m.node, .event .announceTimer net.clock, hn, members_route ..⟩)
    | beacon =>
      exact .inr (.inl ⟨i, m.node, .event .beaconTimer net.clock, hn, members_route ..⟩)
    | restart => exact .inr (.inr ⟨i, m, rfl, hm, rfl⟩)
  | ignored hf => exact .inl rfl
  | considered g vetoes hf => exact .inl rfl
  | injected g hf hi he ih =>
    obtain h | ⟨i, n, op, hn, h⟩ | ⟨i, m, hact, _⟩ := ih
    · exact .inl h
    · exact .inr (.inl ⟨i, n, op, hn, h⟩)
    · cases hact
  | @originated net i n value r t hn ho =>
    refine .inr (.inl ⟨i, n, .originate value net.clock, hn, ?_⟩)
    have hp : (n.perform (.originate value net.clock)).1 = r := by
      simp only [Node.perform, ho]
    rw [hp]
    exact members_route ..
  | @notOriginated net i n value r e hn ho =>
    refine .inr (.inl ⟨i, n, .originate value net.clock, hn, ?_⟩)
    have hp : (n.perform (.originate value net.clock)).1 = r := by
      simp only [Node.perform, ho]
    rw [hp]
    rfl
  | nowhere value hn => exact .inl rfl
  | @crashed net i recovery m r hm hp =>
    have hn : net.node? i = some m.node := node?_eq_some_iff.2 ⟨m, hm, rfl⟩
    refine .inr (.inl ⟨i, m.node, .powerDown recovery net.clock, hn, ?_⟩)
    have hr : (m.node.perform (.powerDown recovery net.clock)).1 = r := by
      simp only [Node.perform, hp]
    rw [hr]
    rfl
  | notCrashed hm hp => exact .inl rfl
  | noCrash recovery hm => exact .inl rfl
  | @roleSet net i n role hn => exact .inr (.inl ⟨i, n, .setRole role, hn, rfl⟩)
  | noRole role hn => exact .inl rfl
  | lossRateSet rate => exact .inl rfl

/-- A node that is switched on again reacts to its restart timer. -/
theorem node?_restart (net : Network) (i : Nat) (m : Member) (j : Nat) :
    (net.restart i m).node? j =
      (net.setNode i (m.node.handle .restartTimer net.clock).node).node? j := by
  let net' := net.follow i (m.node.handle .restartTimer net.clock)
  have hboot : (net.restart i m).node? j = (net'.nextGeneration i).node? j := rfl
  rw [hboot, node?_nextGeneration]
  exact node?_congr (members_route ..) j

/-- The nodes are as before, or one of them has performed an operation. -/
theorem node?_effect {net net' : Network} {e : Occurrence} (he : Effect net e net') :
    (∀ j, net'.node? j = net.node? j) ∨
      ∃ i n op, net.node? i = some n ∧
        ∀ j, net'.node? j = (net.setNode i (n.perform op).1.node).node? j := by
  obtain h | ⟨i, n, op, hn, h⟩ | ⟨i, m, _, hm, rfl⟩ := members_effect he
  · exact .inl fun j => node?_congr h j
  · exact .inr ⟨i, n, op, hn, fun j => node?_congr h j⟩
  · exact .inr ⟨i, m.node, .event .restartTimer net.clock, node?_eq_some_iff.2 ⟨m, hm, rfl⟩,
      node?_restart net i m⟩

/-- A node after an event was there before, and performed at most one operation. -/
theorem exists_of_node?_effect {net net' : Network} {e : Occurrence} (he : Effect net e net')
    {j : Nat} {n' : Node} (hn : net'.node? j = some n') :
    ∃ n, net.node? j = some n ∧ (n' = n ∨ ∃ op, n' = (n.perform op).1.node) := by
  obtain h | ⟨i, n, op, hi, h⟩ := node?_effect he
  · exact ⟨n', h j ▸ hn, .inl rfl⟩
  · rw [h j, node?_setNode] at hn
    by_cases hij : i = j
    · subst hij
      rw [if_pos rfl, hi] at hn
      exact ⟨n, hi, .inr ⟨op, (Option.some.inj hn).symm⟩⟩
    · rw [if_neg hij] at hn
      exact ⟨n', hn, .inl rfl⟩

/-- A node after a step was there before, and performed at most one operation. -/
theorem exists_of_node?_step {net net' : Network} (hs : Step net net') {j : Nat} {n' : Node}
    (hn : net'.node? j = some n') :
    ∃ n, net.node? j = some n ∧ (n' = n ∨ ∃ op, n' = (n.perform op).1.node) := by
  cases hs with
  | plan time a => exact ⟨n', hn, .inl rfl⟩
  | setRole i role =>
    have he := effect_setRole net i role
    exact exists_of_node?_effect he hn
  | withFailures f =>
    unfold withFailures at hn
    split at hn <;> exact ⟨n', hn, .inl rfl⟩
  | event limit h =>
    obtain ⟨e, rest, net₁, _, _, he, rfl⟩ := exists_effect_of_next h
    rw [node?_congr (members_watch net₁)] at hn
    exact exists_of_node?_effect he hn
  | rest limit h => exact ⟨n', hn, .inl rfl⟩

/-- A step leaves the record of originations alone, or a node originates its next token. -/
theorem originations_step {net net' : Network} (hs : Step net net') :
    net'.originations = net.originations ∨
      ∃ i n value now r t, net.node? i = some n ∧ n.originate value now = (r, .ok t) ∧
        net'.node? i = some r.node ∧ net'.originations = ⟨i, t, now⟩ :: net.originations := by
  cases hs with
  | plan time a => exact .inl rfl
  | setRole i role =>
    have he := effect_setRole net i role
    obtain h | ⟨_, _, _, _, _, hact, _⟩ := originations_effect he
    · exact .inl h
    · cases hact
  | withFailures f =>
    left
    unfold withFailures
    split
    · exact originations_tell (by simp [Notice.origination?])
    · rfl
  | event limit h =>
    obtain ⟨e, rest, net₁, _, _, he, rfl⟩ := exists_effect_of_next h
    rw [originations_watch]
    obtain h | ⟨i, n, value, r, t, _, hn, ho, rfl, h⟩ := originations_effect he
    · exact .inl h
    · refine .inr ⟨i, n, value, _, r, t, hn, ho, ?_, h⟩
      rw [node?_congr (members_watch _)]
      have hbegun : ((net.turnTo e rest).begun i r t).node? i =
          ((net.turnTo e rest).setNode i r.node).node? i := node?_congr (members_route ..) i
      rw [hbegun, node?_setNode, if_pos rfl, hn]
      rfl
  | rest limit h => exact .inl rfl

theorem size_effect {net net' : Network} {e : Occurrence} (he : Effect net e net') :
    net'.size = net.size := by
  obtain h | ⟨i, n, op, _, h⟩ | ⟨i, m, _, _, rfl⟩ := members_effect he
  · unfold size; rw [h]
  · have hs : net'.size = (net.setNode i (n.perform op).1.node).size := by unfold size; rw [h]
    rw [hs, size_setNode]
  · -- the nodes after a restart are in the same places
    have hl : (net.restart i m).nodes.length =
        (net.setNode i (m.node.handle .restartTimer net.clock).node).nodes.length := by
      rw [nodes_ext (node?_restart net i m)]
    rw [length_nodes, length_nodes, size_setNode] at hl
    exact hl

/-! ### Places -/

/-- A network of topology `t` and settings `s`, in which every node has the address of its place,
    and hears whom it heard at the start. -/
structure Placed (t : Topology) (s : ProtocolSettings) (net : Network) : Prop where
  settings : net.settings = s
  delay : net.topology.delay = t.delay
  linked : ∀ i j, net.topology.isLinked i j = t.isLinked i j
  size : net.size = t.nodeCount
  address : ∀ i n, net.node? i = some n → n.address = addressOf i

section Placed

variable {t : Topology} {s : ProtocolSettings} {net net' : Network}

theorem Placed.of_same (h : Placed t s net) (hs : net'.settings = net.settings)
    (ht : net'.topology = net.topology) (hm : net'.members = net.members) :
    Placed t s net' where
  settings := hs.trans h.settings
  delay := by rw [ht]; exact h.delay
  linked i j := by rw [ht]; exact h.linked i j
  size := by
    show net'.members.size = t.nodeCount
    rw [hm]
    exact h.size
  address i n hn := h.address i n ((node?_congr hm i).symm.trans hn)

/-- There is a node in every place. -/
theorem Placed.exists_node (h : Placed t s net) {i : Nat} (hi : i < t.nodeCount) :
    ∃ n, net.node? i = some n := by
  rw [← h.size, ← length_nodes] at hi
  refine ⟨net.nodes[i], ?_⟩
  rw [← getElem?_nodes, List.getElem?_eq_getElem hi]

/-- A node that is there is one of the nodes of the topology. -/
theorem Placed.lt_of_node? (h : Placed t s net) {i : Nat} {n : Node}
    (hn : net.node? i = some n) : i < t.nodeCount := by
  rw [← h.size]
  exact lt_size_of_node? hn

theorem placed_effect {e : Occurrence} (he : Effect net e net') (h : Placed t s net) :
    Placed t s net' := by
  have hext := extends_effect he
  refine ⟨hext.settings.trans h.settings, hext.delay.trans h.delay,
    fun i j => (hext.linked i j).trans (h.linked i j), (size_effect he).trans h.size, ?_⟩
  intro j n' hn
  -- no operation gives a node another address
  obtain ⟨n, hj, rfl | ⟨op, rfl⟩⟩ := exists_of_node?_effect he hn
  · exact h.address j n' hj
  · exact (n.lawful_perform op).address.trans (h.address j n hj)

theorem placed_step (hs : Step net net') (h : Placed t s net) : Placed t s net' := by
  cases hs with
  | plan time a => exact h.of_same rfl rfl rfl
  | setRole i role =>
    have he := effect_setRole net i role
    exact placed_effect he h
  | withFailures f =>
    unfold withFailures
    split <;> exact h.of_same rfl rfl rfl
  | event limit hn =>
    obtain ⟨e, rest, net₁, _, _, he, rfl⟩ := exists_effect_of_next hn
    have ht : Placed t s (net.turnTo e rest) := h.of_same rfl rfl rfl
    exact (placed_effect he ht).of_same (settings_watch _) (topology_watch _) (members_watch _)
  | rest limit hn => exact h.of_same rfl rfl rfl

theorem placed_build (t : Topology) (s : ProtocolSettings) (seed : UInt64) :
    Placed t s (build t s seed) where
  settings := settings_build t s seed
  delay := by rw [topology_build]
  linked i j := by rw [topology_build]
  size := size_build t s seed
  address i n hn := by
    rw [node?_build hn]
    rfl

theorem placed_of_run {P : Network → Prop} {seed : UInt64} (hr : Run P (build t s seed) net) :
    Placed t s net :=
  hr.invariant (Placed t s) (fun _ => placed_build t s seed) fun _ _ _ _ h hs => placed_step hs h

end Placed

/-! ### Times -/

/-- Nothing but actions can be overdue, and every beacon is due within one period. -/
structure OnTime (net : Network) : Prop where
  due : ∀ x ∈ net.pending, (∀ a, x.event ≠ .action a) → net.clock ≤ x.time
  beacons : ∀ x ∈ net.pending, ∀ i g, x.event = .timer i .beacon g →
    x.time ≤ net.clock + net.settings.beaconPeriod

section OnTime

variable {net net' : Network}

theorem Extends.onTime (hext : Extends net net') (h : OnTime net) : OnTime net' where
  due x hx ha := by
    rw [hext.clock]
    obtain hx | hx := hext.added x hx
    · exact h.due x hx ha
    · exact hx.1
  beacons x hx i g he := by
    rw [hext.clock, hext.settings]
    obtain hx | hx := hext.added x hx
    · exact h.beacons x hx i g he
    · exact hx.2 i g he

/-- When the clock moves on to the next event, nothing else becomes overdue. -/
theorem onTime_turnTo {e : Scheduled Occurrence} {rest : EventQueue Occurrence}
    (hp : net.queue.pop? = some (e, rest)) (h : OnTime net) : OnTime (net.turnTo e rest) := by
  have hmem : ∀ x ∈ (net.turnTo e rest).pending, x ∈ net.pending :=
    fun x hx => (pending_of_pop? hp).mem_iff.2 (List.mem_cons_of_mem _ hx)
  refine ⟨?_, ?_⟩
  · -- the event at hand is the first one to be due
    intro x hx ha
    have hnow := h.due x (hmem x hx) ha
    have hnext := time_le_of_pop? hp (hmem x hx)
    rw [clock_turnTo]
    omega
  · intro x hx i g he
    have hsoon := h.beacons x (hmem x hx) i g he
    rw [clock_turnTo, settings_turnTo]
    omega

theorem onTime_step (hs : Step net net') (h : OnTime net) : OnTime net' := by
  cases hs with
  | plan time a =>
    refine ⟨?_, ?_⟩
    · intro x hx ha
      obtain rfl | hx := (mem_pending_schedule net time _).1 hx
      · exact absurd rfl (ha a)
      · exact h.due x hx ha
    · intro x hx i g he
      obtain rfl | hx := (mem_pending_schedule net time _).1 hx
      · cases he
      · exact h.beacons x hx i g he
  | setRole i role =>
    have he := effect_setRole net i role
    exact (extends_effect he).onTime h
  | withFailures f =>
    unfold withFailures
    split
    · have ht : Extends net (net.tell [.failuresDisabled]) := .of_same rfl rfl rfl rfl
      exact ht.onTime h
    · have hf : Extends net { net with failures := some f } := .of_same rfl rfl rfl rfl
      exact (hf.trans (.schedule _ (Nat.le_add_right ..) (by simp))).onTime h
  | event limit hn =>
    obtain ⟨e, rest, net₁, hp, _, he, rfl⟩ := exists_effect_of_next hn
    have hext : Extends (net.turnTo e rest) net₁.watch := (extends_effect he).trans
      (.of_same (clock_watch _) (settings_watch _) (topology_watch _) (pending_watch _))
    exact hext.onTime (onTime_turnTo hp h)
  | rest limit hn =>
    -- what waits is due after the end of the run
    obtain ⟨_, hlate⟩ := of_next_eq_resting hn
    refine ⟨?_, ?_⟩
    · intro x hx ha
      have hnow := h.due x hx ha
      have hlt := hlate x hx
      rw [clock_advanceTo]
      omega
    · intro x hx i g he
      have hsoon := h.beacons x hx i g he
      rw [clock_advanceTo, settings_advanceTo]
      omega

theorem onTime_build (t : Topology) (s : ProtocolSettings) (seed : UInt64) :
    OnTime (build t s seed) := by
  refine build_induction t s seed (fun _ net => OnTime net) ⟨?_, ?_⟩ ?_
  · intro x hx
    cases hx
  · intro x hx
    cases hx
  · intro k net _ h
    let r := Node.start (addressOf k) (settingsOf net.settings seed k)
    let net' : Network := { net with members := net.members.push ⟨r.node, 0⟩ }.tell r.notices
    have hext : Extends net net' := .of_same rfl rfl rfl rfl
    exact (hext.trans (.setBootTimers net' k 0)).onTime h

theorem onTime_of_run {P : Network → Prop} {t : Topology} {s : ProtocolSettings} {seed : UInt64}
    (hr : Run P (build t s seed) net) : OnTime net :=
  hr.invariant OnTime (fun _ => onTime_build t s seed) fun _ _ _ _ h hs => onTime_step hs h

end OnTime

end Network

end TokenMesh
