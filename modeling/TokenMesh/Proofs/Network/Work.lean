import Mathlib.Algebra.Order.BigOperators.Group.List
import Mathlib.Algebra.Order.Group.Nat
import Mathlib.Algebra.Group.Action.Defs
import TokenMesh.Proofs.Message.RoundTrip
import TokenMesh.Proofs.Network.Frame
import TokenMesh.Proofs.Node.Replies

namespace TokenMesh

/-!
# The work of a run

Every event that is processed sets off other events, and some of them at the same instant.  Still
a run ends: each event is given a price that covers all that it can set off up to the end of the
run and something on top, so that what all waiting events cost together goes down with every
event.  Timers pay by the instants that are left, messages by the replies that they prompt.

Data has no price that covers its walk unless each hop takes time or the number of hops is
limited.  Where neither is so, a walk may go on for ever at one instant, but nothing else can.

* `Tariff`: the prices, up to the end of a run;
* `Tariff.Fair`: the price of data covers the next hop;
* `Network.workload`: what all events that wait cost together;
* `Network.workload_effect`, `Network.workload_next`: every event lowers it.
-/

namespace Occurrence

/-- Whether an event is the arrival of data. -/
def carriesData : Occurrence → Bool
  | deliver _ _ bytes =>
    match Message.decode bytes with
    | .ok (.data ..) => true
    | _ => false
  | _ => false

end Occurrence

/-- Settings that a node can run with let no periodic timer fire all the time. -/
theorem ProtocolSettings.Valid.periods_pos {s : ProtocolSettings} (h : s.Valid) :
    0 < s.announcePeriod ∧ 0 < s.beaconPeriod := by
  unfold Valid fault? at h
  split at h
  · cases h
  · split at h
    · cases h
    · exact ⟨by omega, by omega⟩

/-! ### Prices -/

/-- What events cost in a run up to `limit`, in a network where no node has more neighbors than
    `degree`. -/
structure Tariff where
  limit : Nat
  degree : Nat
  /-- What data costs that arrives at a given instant after a given number of hops. -/
  walk : Nat → Int32 → Nat
  /-- What is left of the price of data when it is forwarded. -/
  toll : Nat

namespace Tariff

variable (c : Tariff)

/-- The instants that are left. -/
def left (t : Nat) : Nat := c.limit + 1 - t

/-- The arrival of a message pays for the replies. -/
def message : Message → Nat → Nat
  | .announce, _ => 1
  | .recover .., _ => 1
  | .control _, _ => 2
  | .beacon _, _ => 3
  | .data _ _ hops, t => c.walk t hops

/-- A periodic timer pays for itself at all later instants, and each time for as many messages as
    there are neighbors. -/
def periodic (t : Nat) : Nat := c.left t * (3 * c.degree + 1)

/-- A restart pays for the two boot timers. -/
def restart (t : Nat) : Nat := 2 * c.periodic t + 1

/-- A crash pays for the restart. -/
def crash (t : Nat) : Nat := c.restart t + 1

/-- A failure tick pays for itself at all later instants, and each time for a crash. -/
def tick (t : Nat) : Nat := c.left t * c.crash 0

/-- What an event costs that is due at a given instant. -/
def cost : Occurrence → Nat → Nat
  | .deliver _ _ bytes, t =>
    match Message.decode bytes with
    | .ok m => c.message m t
    | .error _ => 1
  | .timer _ .restart _, t => c.restart t
  | .timer .., t => c.periodic t
  | .failureTick, t => c.tick t
  | .action (.originate ..), t => c.walk t 0 + 1
  | .action (.crash ..), t => c.crash t
  | .action _, _ => 1

/-- Events that are due after the end of the run cost nothing. -/
def price (x : Scheduled Occurrence) : Nat := if x.time ≤ c.limit then c.cost x.event x.time else 0

/-- What is left of the price of an event when all is paid that it sets off. -/
def surplus (e : Occurrence) : Nat := if e.carriesData then c.toll else 1

/-- The price of data covers the next hop of its walk, in a network with given settings and a
    given delay. -/
structure Fair (s : ProtocolSettings) (delay : Nat) : Prop where
  toll_le : c.toll ≤ 1
  pos : ∀ t hops, t ≤ c.limit → 1 ≤ c.walk t hops
  start : ∀ t u, t ≤ u → c.walk u 0 ≤ c.walk t 0
  hop : ∀ t u hops, t ≤ c.limit → t + delay ≤ u →
    (∀ most ∈ s.maxHops, Node.nextHops hops ≤ most) →
    c.walk u (Node.nextHops hops) + c.toll ≤ c.walk t hops

variable {c} {t u : Nat}

theorem price_le (x : Scheduled Occurrence) : c.price x ≤ c.cost x.event x.time := by
  unfold price
  split
  · exact Nat.le_refl _
  · exact Nat.zero_le _

theorem price_eq {x : Scheduled Occurrence} (h : x.time ≤ c.limit) :
    c.price x = c.cost x.event x.time :=
  if_pos h

theorem left_le (h : t ≤ u) : c.left u ≤ c.left t := Nat.sub_le_sub_left h _

theorem left_lt (hl : t ≤ c.limit) (h : t < u) : c.left u + 1 ≤ c.left t := by
  unfold left
  omega

theorem periodic_le (h : t ≤ u) : c.periodic u ≤ c.periodic t :=
  Nat.mul_le_mul_right _ (left_le h)

/-- A periodic timer that is set again leaves enough for one message to all neighbors. -/
theorem periodic_lt (hl : t ≤ c.limit) (h : t < u) :
    c.periodic u + (3 * c.degree + 1) ≤ c.periodic t := by
  have hmul := Nat.mul_le_mul_right (3 * c.degree + 1) (left_lt hl h)
  rw [Nat.succ_mul] at hmul
  exact hmul

theorem restart_le (h : t ≤ u) : c.restart u ≤ c.restart t := by
  have := c.periodic_le h
  unfold restart
  omega

theorem crash_le (h : t ≤ u) : c.crash u ≤ c.crash t := Nat.succ_le_succ (restart_le h)

/-- A failure tick that is set again leaves enough for a crash. -/
theorem tick_lt (hl : t ≤ c.limit) (h : t < u) : c.tick u + c.crash 0 ≤ c.tick t := by
  have hmul := Nat.mul_le_mul_right (c.crash 0) (left_lt hl h)
  rw [Nat.succ_mul] at hmul
  exact hmul

/-- What a message prompts costs less than the message. -/
theorem message_lt_of_prompts {s : ProtocolSettings} {delay : Nat} {n : Node} {m m' : Message}
    (hc : c.Fair s delay) (hs : n.settings.maxHops = s.maxHops) (hp : m.Prompts n m')
    (hl : t ≤ c.limit) (hu : t + delay ≤ u) :
    c.message m' u + (if m.kind = .data then c.toll else 1) ≤ c.message m t := by
  cases hp with
  | request version ours => exact Nat.le_refl 3
  | push version t => exact (by decide : 2 ≤ 3)
  | answer version t => exact Nat.le_refl 2
  | forward value version hops t' h =>
    refine hc.hop t u hops hl hu ?_
    intro most hmost
    have hmost : n.settings.maxHops = some most := hs.trans hmost
    unfold Node.overLimit at h
    rw [hmost] at h
    exact Int32.not_lt.1 (of_decide_eq_false h)

/-- What is left of the price of an event is no less than what data leaves. -/
theorem toll_le_surplus {s : ProtocolSettings} {delay : Nat} (hc : c.Fair s delay)
    (e : Occurrence) : c.toll ≤ c.surplus e := by
  unfold surplus
  split
  · exact Nat.le_refl _
  · exact hc.toll_le

/-- Within the run every event costs at least what is left of its price. -/
theorem surplus_le_cost {s : ProtocolSettings} {delay : Nat} (hc : c.Fair s delay) (e : Occurrence)
    (hl : t ≤ c.limit) : c.surplus e ≤ c.cost e t := by
  have hleft : 1 ≤ c.left t := by
    unfold left
    omega
  have htoll := hc.toll_le
  have hone : c.surplus e ≤ 1 := by
    unfold surplus
    split <;> omega
  refine Nat.le_trans hone ?_
  have hperiodic : 1 ≤ c.periodic t := Nat.mul_pos hleft (Nat.succ_pos _)
  cases e with
  | deliver i sender bytes =>
    simp only [cost]
    split
    · next m _ =>
      cases m with
      | data value version hops => exact hc.pos t hops hl
      | announce => exact Nat.le_refl 1
      | beacon version => exact (by decide : 1 ≤ 3)
      | control version => exact (by decide : 1 ≤ 2)
      | recover value version => exact Nat.le_refl 1
    · exact Nat.le_refl 1
  | timer i kind generation =>
    cases kind with
    | announce => exact hperiodic
    | beacon => exact hperiodic
    | restart => exact Nat.succ_pos _
  | failureTick => exact Nat.mul_pos hleft (Nat.succ_pos _)
  | action a =>
    cases a with
    | originate i value => exact Nat.succ_pos _
    | crash i recovery => exact Nat.succ_pos _
    | setRole i role => exact Nat.le_refl 1
    | setLossRate rate => exact Nat.le_refl 1

end Tariff

namespace Network

/-! ### What stays the same in every network -/

/-- A network of topology `t` and settings `s`: no links are added, no node gets another limit of
    hops, and failures are not considered all the time. -/
structure Regular (t : Topology) (s : ProtocolSettings) (net : Network) : Prop where
  placed : Placed t s net
  links : net.topology.links.length = t.links.length
  hops : ∀ i n, net.node? i = some n → n.settings.maxHops = s.maxHops
  ticks : ∀ f, net.failures = some f → 0 < f.tick

section Regular

variable {t : Topology} {s : ProtocolSettings} {net net' : Network}

/-- No node has more neighbors than there are links. -/
theorem Regular.degree_le (h : Regular t s net) (i : Nat) :
    net.topology.degree i ≤ t.links.length := by
  rw [← h.links]
  exact List.length_filterMap_le ..

theorem Regular.of_same (h : Regular t s net) (hs : net'.settings = net.settings)
    (ht : net'.topology = net.topology) (hm : net'.members = net.members)
    (hf : net'.failures = net.failures) : Regular t s net' where
  placed := h.placed.of_same hs ht hm
  links := by rw [ht]; exact h.links
  hops i n hn := h.hops i n ((node?_congr hm i).symm.trans hn)
  ticks f hf' := h.ticks f (hf ▸ hf')

theorem regular_effect {e : Occurrence} (he : Effect net e net') (h : Regular t s net) :
    Regular t s net' := by
  obtain ⟨hf, ht⟩ := setup_effect he
  have hl : net'.topology.links.length = net.topology.links.length := by
    rcases ht with ht | ⟨rate, _, ht⟩
    · rw [ht]
    · rw [ht]
      exact List.length_map ..
  refine ⟨placed_effect he h.placed, hl.trans h.links, ?_, fun f hf' => h.ticks f (hf ▸ hf')⟩
  intro i n' hn'
  obtain ⟨n, hn, rfl | ⟨op, rfl⟩⟩ := exists_of_node?_effect he hn'
  · exact h.hops i _ hn
  · rw [(n.lawful_perform op).settings]
    exact h.hops i n hn

theorem regular_step (hs : Step net net') (h : Regular t s net) : Regular t s net' := by
  cases hs with
  | plan time a => exact h.of_same rfl rfl rfl rfl
  | setRole i role =>
    have he := effect_setRole net i role
    exact regular_effect he h
  | withFailures f =>
    unfold withFailures
    split
    · exact h.of_same rfl rfl rfl rfl
    · next hf =>
      -- a tick of zero has just been refused
      refine ⟨h.placed.of_same rfl rfl rfl, h.links, h.hops, ?_⟩
      intro f' hf'
      obtain rfl := Option.some.inj hf'
      exact Nat.pos_of_ne_zero hf
  | event limit hn =>
    obtain ⟨e, rest, net₁, _, _, he, rfl⟩ := exists_effect_of_next hn
    have ht : Regular t s (net.turnTo e rest) := h.of_same rfl rfl rfl rfl
    exact (regular_effect he ht).of_same (settings_watch _) (topology_watch _) (members_watch _)
      (failures_watch _)
  | rest limit hn => exact h.of_same rfl rfl rfl rfl

theorem regular_of_run {P : Network → Prop} {seed : UInt64}
    (hr : Run P (build t s seed) net) : Regular t s net := by
  refine hr.invariant (Regular t s) ?_ fun _ _ _ _ h hs => regular_step hs h
  intro _
  refine ⟨placed_build t s seed, by rw [topology_build], ?_, ?_⟩
  · intro i n hn
    rw [node?_build hn]
    rfl
  · intro f hf
    rw [failures_build] at hf
    cases hf

end Regular

/-! ### The workload -/

/-- What all events that wait cost together. -/
def workload (c : Tariff) (net : Network) : Nat := (net.pending.map c.price).sum

section workload

variable {c : Tariff} {net net' : Network}

theorem workload_of_perm {xs : List (Scheduled Occurrence)}
    (h : net'.pending.Perm (xs ++ net.pending)) :
    net'.workload c = (xs.map c.price).sum + net.workload c := by
  unfold workload
  rw [(h.map c.price).sum_nat, List.map_append, List.sum_append]

theorem workload_congr (h : net'.pending = net.pending) : net'.workload c = net.workload c := by
  unfold workload
  rw [h]

/-- An event that is planned adds no more than it costs. -/
theorem workload_schedule (net : Network) (time : Nat) (e : Occurrence) :
    (net.schedule time e).workload c ≤ net.workload c + c.cost e time := by
  have hp : (net.schedule time e).pending.Perm ([⟨time, net.nextSeq, e⟩] ++ net.pending) :=
    pending_schedule net time e
  have h := workload_of_perm (c := c) hp
  have hle : c.price ⟨time, net.nextSeq, e⟩ ≤ c.cost e time := c.price_le _
  rw [List.map_singleton, List.sum_singleton] at h
  omega

/-- A message adds no more than one arrival for each node that hears it. -/
theorem workload_route (net : Network) (i : Nat) (out : Outbound) :
    (net.route i [out]).workload c ≤ net.workload c +
      net.topology.fanOut i out * c.message out.message (net.clock + net.topology.delay) := by
  obtain ⟨as, has, harrive⟩ := net.airs_route i [out]
  have hlost : net.metrics.lost ≤ (net.route i [out]).metrics.lost := lost_le_send ..
  have hcount : as.length ≤ net.topology.fanOut i out := by
    have := has.balance
    simp only [List.map_singleton, List.sum_singleton] at this
    omega
  have hprice : ∀ p ∈ as.map c.price,
      p ≤ c.message out.message (net.clock + net.topology.delay) := by
    intro p hp
    obtain ⟨x, hx, rfl⟩ := List.mem_map.1 hp
    obtain ⟨out', hout, hx⟩ := harrive x hx
    obtain rfl := List.mem_singleton.1 hout
    obtain ⟨j, _, he⟩ := hx.event
    refine Nat.le_trans (c.price_le x) ?_
    rw [he, hx.time]
    simp only [Tariff.cost, Message.decode_encode]
    exact Nat.le_refl _
  have hsum := List.sum_le_card_nsmul _ _ hprice
  rw [List.length_map, smul_eq_mul] at hsum
  rw [workload_of_perm has.pending]
  have hmul := Nat.mul_le_mul_right (c.message out.message (net.clock + net.topology.delay)) hcount
  omega

/-- A reaction that sends nothing adds nothing. -/
theorem workload_follow_silent {i : Nat} {r : Reaction} (h : r.sends = []) :
    (net.follow i r).workload c = net.workload c := by
  unfold follow
  rw [h]
  rfl

/-- A reaction that sends one message adds what that message adds. -/
theorem workload_follow (net : Network) (i : Nat) {r : Reaction} {out : Outbound}
    (h : r.sends = [out]) :
    (net.follow i r).workload c ≤ net.workload c +
      net.topology.fanOut i out * c.message out.message (net.clock + net.topology.delay) := by
  unfold follow
  rw [h]
  exact workload_route (net.absorb i r) i out

end workload

/-! ### Every event lowers it -/

section effect

variable {c : Tariff} {t : Topology} {s : ProtocolSettings} {net net' : Network} {τ : Nat}

/-- The arrival of a datagram pays for the reply. -/
theorem workload_arrival {i : Nat} {n : Node} (hc : c.Fair s t.delay) (hr : Regular t s net)
    (hn : net.node? i = some n) (sender : Address) (bytes : List UInt8) (hτ : τ ≤ net.clock)
    (hl : τ ≤ c.limit) :
    (net.countDelivery.follow i (n.handleDatagram sender bytes net.clock)).workload c +
        c.surplus (.deliver i sender bytes) ≤
      net.workload c + c.cost (.deliver i sender bytes) τ := by
  have hsame : net.countDelivery.workload c = net.workload c := workload_congr rfl
  rcases n.sends_handleDatagram sender bytes net.clock with hnone | ⟨m, peer, m', hdec, hsend, hp⟩
  · rw [workload_follow_silent hnone, hsame]
    exact Nat.add_le_add_left (c.surplus_le_cost hc _ hl) _
  · have hadd := workload_follow (c := c) net.countDelivery i hsend
    have hdelay : τ + t.delay ≤ net.clock + t.delay := Nat.add_le_add_right hτ _
    have hpay := c.message_lt_of_prompts hc (hr.hops i n hn) hp hl hdelay
    have hcost : c.cost (.deliver i sender bytes) τ = c.message m τ := by
      simp only [Tariff.cost, hdec]
    have hsurplus : c.surplus (.deliver i sender bytes) = if m.kind = .data then c.toll else 1 := by
      simp only [Tariff.surplus, Occurrence.carriesData, hdec]
      cases m <;> rfl
    have hone : net.countDelivery.topology.fanOut i (.unicast peer m') = 1 := rfl
    have htime : net.countDelivery.clock + net.countDelivery.topology.delay =
        net.clock + t.delay := by
      show net.clock + net.topology.delay = _
      rw [hr.placed.delay]
    rw [hone, htime, Nat.one_mul, hsame] at hadd
    rw [hcost, hsurplus]
    have hmessage : (Outbound.unicast peer m').message = m' := rfl
    rw [hmessage] at hadd
    omega

/-- A periodic timer pays for its messages and for being set again. -/
theorem workload_periodic {i : Nat} {r : Reaction} {kind : TimerKind} {generation period : Nat}
    {m : Message} (hd : t.links.length ≤ c.degree) (hr : Regular t s net)
    (hkind : kind ≠ .restart) (hp : 0 < period) (hsends : r.sends = [] ∨ r.sends = [.multicast m])
    (hm : ∀ u, c.message m u ≤ 3) (hτ : τ ≤ net.clock) (hl : τ ≤ c.limit) :
    ((net.follow i r).setTimer i kind generation period).workload c + 1 ≤
      net.workload c + c.periodic τ := by
  have hcost : c.cost (.timer i kind generation) (net.clock + period) =
      c.periodic (net.clock + period) := by
    cases kind with
    | announce => rfl
    | beacon => rfl
    | restart => exact absurd rfl hkind
  have hset : ((net.follow i r).setTimer i kind generation period).workload c ≤
      (net.follow i r).workload c + c.periodic (net.clock + period) := by
    have h := workload_schedule (c := c) (net.follow i r) (net.clock + period)
      (.timer i kind generation)
    rw [hcost] at h
    have hclock : (net.follow i r).clock = net.clock := clock_route ..
    unfold setTimer
    rw [hclock]
    exact h
  have hagain : c.periodic (net.clock + period) + (3 * c.degree + 1) ≤ c.periodic τ :=
    c.periodic_lt hl (by omega)
  have hsent : (net.follow i r).workload c ≤ net.workload c + 3 * c.degree := by
    rcases hsends with hnone | hone
    · rw [workload_follow_silent hnone]
      exact Nat.le_add_right ..
    · have h := workload_follow (c := c) net i hone
      have hdeg : net.topology.degree i ≤ c.degree := Nat.le_trans (hr.degree_le i) hd
      have hmul : net.topology.degree i * c.message m (net.clock + net.topology.delay) ≤
          c.degree * 3 := Nat.mul_le_mul hdeg (hm _)
      have hfan : net.topology.fanOut i (.multicast m) *
          c.message (Outbound.multicast m).message (net.clock + net.topology.delay) =
          net.topology.degree i * c.message m (net.clock + net.topology.delay) := rfl
      rw [hfan] at h
      omega
  omega

/-- A restart pays for the boot timers. -/
theorem workload_restart (i : Nat) (m : Member) (hτ : τ ≤ net.clock) :
    (net.restart i m).workload c + 1 ≤ net.workload c + c.restart τ := by
  let net₁ := (net.follow i (m.node.handle .restartTimer net.clock)).nextGeneration i
  have hsilent : net₁.workload c = net.workload c :=
    workload_follow_silent (m.node.sends_onRestartTimer)
  have hclock : net₁.clock = net.clock := clock_route ..
  have hannounce := workload_schedule (c := c) net₁
    (net₁.clock + net₁.settings.initialAnnounceDelay) (.timer i .announce (m.generation + 1))
  let net₂ := net₁.setTimer i .announce (m.generation + 1) net₁.settings.initialAnnounceDelay
  have hbeacon := workload_schedule (c := c) net₂ (net₂.clock + net₁.settings.beaconPeriod)
    (.timer i .beacon (m.generation + 1))
  have hle₁ : c.periodic (net₁.clock + net₁.settings.initialAnnounceDelay) ≤ c.periodic τ :=
    c.periodic_le (by omega)
  have hle₂ : c.periodic (net₁.clock + net₁.settings.beaconPeriod) ≤ c.periodic τ :=
    c.periodic_le (by omega)
  have hset₁ : net₂.workload c ≤ net₁.workload c + c.periodic τ :=
    Nat.le_trans hannounce (Nat.add_le_add_left hle₁ _)
  have hset₂ : (net.restart i m).workload c ≤ net₂.workload c + c.periodic τ :=
    Nat.le_trans hbeacon (Nat.add_le_add_left hle₂ _)
  unfold Tariff.restart
  omega

/-- A failure tick pays for being set again, and leaves enough for a crash. -/
theorem workload_ticked {f : FailureConfig} (g : Generator) (vetoes : Nat) (hf : 0 < f.tick)
    (hτ : τ ≤ net.clock) (hl : τ ≤ c.limit) :
    (net.ticked f g vetoes).workload c + c.crash 0 ≤ net.workload c + c.tick τ := by
  have hset : (net.ticked f g vetoes).workload c ≤
      net.workload c + c.tick (net.clock + f.tick) :=
    workload_schedule (c := c) net (net.clock + f.tick) .failureTick
  have hagain : c.tick (net.clock + f.tick) + c.crash 0 ≤ c.tick τ := c.tick_lt hl (by omega)
  omega

/-- An origination pays for the walk that it begins. -/
theorem workload_begun {i : Nat} {value : Option Int32} {r : Reaction} {u : Token}
    (hc : c.Fair s t.delay)
    (hsends : r.sends = [] ∨ ∃ peer, r.sends = [.unicast peer (.carry u 0)]) (hτ : τ ≤ net.clock) :
    (net.begun i r u).workload c + c.surplus (.action (.originate i value)) ≤
      net.workload c + c.cost (.action (.originate i value)) τ := by
  have hnoted : (net.noted i r u).workload c = net.workload c := workload_congr rfl
  have hcost : c.cost (.action (.originate i value)) τ = c.walk τ 0 + 1 := rfl
  have hone : c.surplus (.action (.originate i value)) = 1 := rfl
  unfold begun
  rcases hsends with hnone | ⟨peer, hsend⟩
  · rw [hnone]
    have hroute : ((net.noted i r u).route i []).workload c = net.workload c := hnoted
    omega
  · rw [hsend]
    have hadd := workload_route (c := c) (net.noted i r u) i (.unicast peer (.carry u 0))
    have hwalk : (net.noted i r u).topology.fanOut i (.unicast peer (.carry u 0)) *
        c.message (Outbound.unicast peer (.carry u 0)).message
          ((net.noted i r u).clock + (net.noted i r u).topology.delay) =
        c.walk (net.clock + net.topology.delay) 0 := Nat.one_mul _
    have hle : c.walk (net.clock + net.topology.delay) 0 ≤ c.walk τ 0 := hc.start _ _ (by omega)
    omega

/-- A crash pays for the restart. -/
theorem workload_crashed {i recovery g : Nat} {r : Reaction} (hτ : τ ≤ net.clock) :
    (net.crashed i g r recovery).workload c + c.surplus (.action (.crash i recovery)) ≤
      net.workload c + c.cost (.action (.crash i recovery)) τ := by
  have hset : (net.crashed i g r recovery).workload c ≤
      net.workload c + c.restart (net.clock + recovery) :=
    workload_schedule (c := c) (net.absorb i r) (net.clock + recovery) (.timer i .restart g)
  have hle : c.restart (net.clock + recovery) ≤ c.restart τ := c.restart_le (by omega)
  have hcost : c.cost (.action (.crash i recovery)) τ = c.restart τ + 1 := rfl
  have hone : c.surplus (.action (.crash i recovery)) = 1 := rfl
  omega

/-- An event that is due, and is processed no sooner, adds less than it costs. -/
theorem workload_effect {e : Occurrence} (hs : s.Valid) (hc : c.Fair s t.delay)
    (hd : t.links.length ≤ c.degree) (he : Effect net e net') (hr : Regular t s net)
    (hτ : τ ≤ net.clock) (hl : τ ≤ c.limit) :
    net'.workload c + c.surplus e ≤ net.workload c + c.cost e τ := by
  have hlazy : ∀ {net : Network} {e : Occurrence},
      net.workload c + c.surplus e ≤ net.workload c + c.cost e τ := fun {_ e} =>
    Nat.add_le_add_left (c.surplus_le_cost hc e hl) _
  induction he with
  | arrival sender bytes hn => exact workload_arrival hc hr hn sender bytes hτ hl
  | stale kind generation hm hg => exact hlazy
  | @fired net i m kind hm =>
    have hperiods := hr.placed.settings ▸ hs.periods_pos
    cases kind with
    | announce =>
      have hsame : (net.follow i (m.node.handle .announceTimer net.clock)).settings =
          net.settings := settings_route ..
      refine workload_periodic hd hr (by simp) ?_ (m.node.sends_announceTimer net.clock)
        (fun _ => (by decide : 1 ≤ 3)) hτ hl
      rw [hsame]
      exact hperiods.1
    | beacon =>
      have hsame : (net.follow i (m.node.handle .beaconTimer net.clock)).settings =
          net.settings := settings_route ..
      refine workload_periodic hd hr (by simp) ?_ (m.node.sends_timer_beacon net.clock)
        (fun _ => Nat.le_refl 3) hτ hl
      rw [hsame]
      exact hperiods.2
    | restart => exact workload_restart i m hτ
  | ignored hf => exact hlazy
  | considered g vetoes hf =>
    have hset := workload_ticked (c := c) g vetoes (hr.ticks _ hf) hτ hl
    exact Nat.le_trans (Nat.add_le_add_left (Nat.succ_pos _) _) hset
  | @injected net net' f i g hf hi he ih =>
    -- the tick pays for being set again, and then for the crash
    have hset := workload_ticked (c := c) g 0 (hr.ticks _ hf) hτ hl
    have hticked : Regular t s ((net.ticked f g 0).tell [.failing i net.clock]) :=
      hr.of_same rfl rfl rfl rfl
    have hcrash := ih hticked hτ
    have hle : c.crash τ ≤ c.crash 0 := c.crash_le (Nat.zero_le τ)
    have htell : ((net.ticked f g 0).tell [.failing i net.clock]).workload c =
        (net.ticked f g 0).workload c := rfl
    rw [htell] at hcrash
    have hcost : c.cost (.action (.crash i f.recoveryDelay)) τ = c.crash τ := rfl
    have htick : c.cost .failureTick τ = c.tick τ := rfl
    have hone : c.surplus (.action (.crash i f.recoveryDelay)) = c.surplus .failureTick := rfl
    omega
  | originated hn ho => exact workload_begun hc (Node.sends_of_originate ho) hτ
  | notOriginated hn ho => exact hlazy
  | nowhere value hn => exact hlazy
  | crashed hm hp => exact workload_crashed hτ
  | notCrashed hm hp => exact hlazy
  | noCrash recovery hm => exact hlazy
  | roleSet role hn => exact hlazy
  | noRole role hn => exact hlazy
  | lossRateSet rate => exact hlazy

/-- The next event lowers the workload by what is left of its price. -/
theorem workload_next (hs : s.Valid) (hc : c.Fair s t.delay) (hd : t.links.length ≤ c.degree)
    (hr : Regular t s net) (h : net.next c.limit = .moved net') :
    ∃ e rest, net.queue.pop? = some (e, rest) ∧
      net'.workload c + c.surplus e.event ≤ net.workload c := by
  obtain ⟨e, rest, net₁, hp, hle, he, rfl⟩ := exists_effect_of_next h
  have hturn : Regular t s (net.turnTo e rest) := hr.of_same rfl rfl rfl rfl
  have hadd := workload_effect hs hc hd he hturn (Nat.le_max_right ..) hle
  have hpay : net.workload c = c.cost e.event e.time + (net.turnTo e rest).workload c := by
    show (net.pending.map c.price).sum = _
    rw [((pending_of_pop? hp).map c.price).sum_nat, List.map_cons, List.sum_cons,
      c.price_eq hle]
    rfl
  have hwatch : net₁.watch.workload c = net₁.workload c := workload_congr (pending_watch _)
  refine ⟨e, rest, hp, ?_⟩
  rw [hwatch, hpay]
  omega

end effect

end Network

end TokenMesh
